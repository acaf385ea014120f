import TrafficControl.Policy.Bundle

/-!
# Services

A service has a bundle of its own and may have others for its paths and for the methods of a path.
To a request the most specific one applies (`Service.bundle?`). A service also remembers the owners
that contributed to it, in the order of their arrival.
-/

namespace TrafficControl

/-- A method of a path. -/
structure ServiceMethod where
  name : String
  bundle : Option Bundle := none
deriving DecidableEq

/-- The method as a document writes it. -/
def ServiceMethod.codec : Codec ServiceMethod :=
  (Codec.record (.cons (.required "name" .string) (.one (.optional "policy" Bundle.codec)))).imap
    (fun (name, bundle) => { name, bundle }) (fun m => (m.name, m.bundle))

/-- A path of a service. -/
structure ServicePath where
  path : String
  bundle : Option Bundle := none
  methods : List ServiceMethod := []
deriving DecidableEq

namespace ServicePath

/-- The path as a document writes it. -/
def codec : Codec ServicePath :=
  (Codec.record (.cons (.required "path" .string) (.cons (.optional "policy" Bundle.codec)
    (.one (.defaulted "methods" (.list ServiceMethod.codec) []))))).imap
    (fun (path, bundle, methods) => { path, bundle, methods })
    (fun p => (p.path, p.bundle, p.methods))

/-- The bundle for a method : that of the first method of this name, if it has one. -/
def methodBundle? (p : ServicePath) (method : Option String) : Option Bundle := do
  let method ← method
  (← p.methods.find? (·.name = method)).bundle

/-- All bundles of the path, its own first. -/
def bundles (p : ServicePath) : List Bundle := p.bundle.toList ++ p.methods.filterMap (·.bundle)

end ServicePath

/-- A service. -/
structure Service where
  name : String
  bundle : Option Bundle := none
  paths : List ServicePath := []
  /-- Who contributed to the service, in the order of arrival. -/
  owners : List String := []
deriving DecidableEq

namespace Service

/-- The service as a document writes it. -/
def codec : Codec Service :=
  (Codec.record (.cons (.required "name" .string) (.cons (.optional "policy" Bundle.codec)
    (.cons (.defaulted "paths" (.list ServicePath.codec) [])
    (.one (.defaulted "owners" (.list .string) [])))))).imap
    (fun (name, bundle, paths, owners) => { name, bundle, paths, owners })
    (fun s => (s.name, s.bundle, s.paths, s.owners))

/-- The first entry for a path. -/
def path? (s : Service) (path : Option String) : Option ServicePath := do
  let path ← path
  s.paths.find? (·.path = path)

/-- The bundle for a path and a method : that of the method, of the path, or of the service,
whichever comes first. -/
def bundle? (s : Service) (path method : Option String) : Option Bundle :=
  let entry := s.path? path
  (entry.bind (·.methodBundle? method)).or ((entry.bind (·.bundle)).or s.bundle)

/-- All bundles of the service, its own first. -/
def bundles (s : Service) : List Bundle := s.bundle.toList ++ s.paths.flatMap (·.bundles)

/-- Whether an owner contributed to the service. -/
def hasOwner (s : Service) (owner : String) : Bool := s.owners.contains owner

/-- Add an owner, unless it has no name or is known already. -/
def addOwner (s : Service) (owner : String) : Service :=
  if owner = "" ∨ s.hasOwner owner then s else { s with owners := s.owners ++ [owner] }

/-- Remove an owner. -/
def removeOwner (s : Service) (owner : String) : Service :=
  { s with owners := s.owners.filter (· ≠ owner) }

end Service

end TrafficControl
