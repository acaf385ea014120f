import TrafficControl.Policy.Access
import TrafficControl.Text.Case
import TrafficControl.Text.Match

/-!
# Database clusters

A cluster is found by its addresses, `host` or `host:port`. Addresses are compared without regard to
the case of ASCII letters and to white space around them.
-/

namespace TrafficControl

/-- A database cluster. -/
structure Database where
  name : String
  addresses : List String := []
  accessMode : AccessMode := .readWrite
deriving DecidableEq, Inhabited

/-- The key under which an address is looked up. Port zero is no port. -/
def addressKey (host : String) (port : Option UInt16) : String :=
  match port.filter (· ≠ 0) with
  | some port => s!"{Text.asciiLowercase host}:{port.toNat}"
  | none => Text.asciiLowercase host

namespace Database

/-- The cluster as a document writes it. -/
def codec : Codec Database :=
  (Codec.record (.cons (.required "name" .string)
    (.cons (.defaulted "addresses" (.list .string) [])
    (.one (.defaulted "accessMode" AccessMode.codec .readWrite))))).imap
    (fun (name, addresses, accessMode) => { name, addresses, accessMode })
    (fun d => (d.name, d.addresses, d.accessMode))

/-- The keys of all addresses. -/
def addressKeys (d : Database) : List String :=
  d.addresses.map fun a => Text.asciiLowercase (Text.trimBlanks a)

end Database

end TrafficControl
