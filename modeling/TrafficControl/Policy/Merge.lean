import TrafficControl.Policy.Service

/-!
# Merging deliveries

Several owners deliver services, each in batches of updates and deletes. A `Merger` says what
becomes of one service; `mergeServices` applies it to a list. Services that the list already has
keep their places, new ones follow in the order in which the batch first names them. If a batch
names a service several times its last update counts, and an update counts more than a delete.

`Merger.replace` lets the latest delivery win. `Merger.owned` keeps what an update does not mention,
since another owner may have delivered it, and removes a service only when its last owner does.
-/

namespace TrafficControl

/-- What becomes of a service that is added, updated or deleted by an owner. -/
structure Merger where
  onAdd : (new : Service) → (owner : String) → Service
  onUpdate : (old update : Service) → (owner : String) → Service
  /-- A service in place of the deleted one, if it is not to be removed. -/
  onDelete : (old : Service) → (owner : String) → Option Service

namespace Merger

/-- An update with the owners of the service so far and the one who updates it. -/
def adopt (old update : Service) (owner : String) : Service :=
  { update with owners := old.owners }.addOwner owner

/-- The latest delivery wins. -/
def replace : Merger where
  onAdd new owner := new.addOwner owner
  onUpdate := adopt
  onDelete _ _ := none

/-- The paths of an update, then those of the service so far that it does not mention. Of several
entries for one path only the first is kept. -/
def mergePaths (old update : List ServicePath) : List ServicePath :=
  old.foldl (fun paths p => if paths.any (·.path = p.path) then paths else paths ++ [p]) update

/-- Owners keep what they delivered. -/
def owned : Merger where
  onAdd new owner := new.addOwner owner
  onUpdate old update owner :=
    let merged := adopt old update owner
    { merged with
      bundle := merged.bundle.or old.bundle
      paths := mergePaths old.paths merged.paths }
  onDelete old owner :=
    let kept := old.removeOwner owner
    if kept.owners = [] then none else some kept

end Merger

/-- A service of a merged list. -/
structure Merged where
  service : Service
  /-- Whether it is the very service of the list before. -/
  isShared : Bool
deriving DecidableEq

/-- The last update for each name, in the order in which the batch first names them. -/
def latestUpdates (updates : List Service) : Table Service :=
  .ofList (updates.map fun s => (s.name, s))

/-- What becomes of a service of the list. -/
def mergeOne (m : Merger) (updates : Table Service) (deletes : List String) (owner : String)
    (old : Service) : Option Merged :=
  match updates.find? old.name with
  | some update => some ⟨m.onUpdate old update owner, false⟩
  | none =>
    if old.name ∈ deletes then (m.onDelete old owner).map (⟨·, false⟩) else some ⟨old, true⟩

/-- The list after a batch of updates and deletes by an owner. -/
def mergeServices (m : Merger) (old updates : List Service) (deletes : List String)
    (owner : String) : List Merged :=
  let updates := latestUpdates updates
  let added := updates.bindings.filter fun b => !old.any (·.name = b.1)
  old.filterMap (mergeOne m updates deletes owner) ++
    added.map fun b => ⟨m.onAdd b.2 owner, false⟩

end TrafficControl
