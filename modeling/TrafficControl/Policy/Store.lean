import TrafficControl.Policy.Merge
import TrafficControl.Policy.Snapshot

/-!
# The policy store

A `Store` holds the snapshot in force. Every change that it accepts publishes a new snapshot under
the next version, which those who watch the store get to see; a change that it refuses leaves
everything as it was. `Store.apply` is the one way to change a store. The indexes of a snapshot are
made before it is put in force.
-/

namespace TrafficControl

/-- The snapshot in force. -/
structure Store where
  current : Snapshot
  /-- The version that those who watch the store see. -/
  watched : Nat
  /-- The version that brought in the list of services in force. -/
  servicesSince : Nat

/-- A change of a store. -/
inductive StoreChange where
  /-- A batch of services from an owner. -/
  | merge (merger : Merger) (updates : List Service) (deletes : List String) (owner : String)
  | liveSpaces (spaces : List LiveSpace)
  | laneSpaces (spaces : List LaneSpace)
  | databases (databases : List Database)
  /-- A new snapshot in place of everything. -/
  | publish (s : Snapshot)

namespace Store

/-- A store whose first snapshot has version one. -/
def start (s : Snapshot) : Store := ⟨(s.withVersion 1).warm, 1, 1⟩

/-- The version in force. -/
def version (s : Store) : Nat := s.current.version

/-- Put the next snapshot in force. -/
def publish (s : Store) (next : Snapshot) (newServices : Bool) : Store :=
  let version := s.version + 1
  { current := (next.withVersion version).warm, watched := version,
    servicesSince := if newServices then version else s.servicesSince }

/-- Make a change, or refuse it. -/
def apply (s : Store) : StoreChange → Except PolicyError Store
  | .merge merger updates deletes owner =>
    let merged := mergeServices merger s.current.document.services updates deletes owner
    .ok (s.publish (s.current.withServices (merged.map (·.service))) true)
  | .liveSpaces spaces => do
    checkLiveSpaces spaces
    return s.publish (s.current.withLiveSpaces spaces) false
  | .laneSpaces spaces => do
    checkLaneSpaces spaces
    return s.publish (s.current.withLaneSpaces spaces) false
  | .databases databases => do
    checkDatabases databases
    return s.publish (s.current.withDatabases databases) false
  | .publish next => .ok (s.publish next true)

end Store

end TrafficControl
