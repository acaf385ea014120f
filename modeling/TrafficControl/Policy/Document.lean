import TrafficControl.Policy.Database
import TrafficControl.Policy.Live
import TrafficControl.Policy.Lane
import TrafficControl.Policy.Service

/-!
# Policy documents

A `Document` is a complete delivery of policy. `Document.check` says what makes one valid : no two
spaces, services or clusters of one kind have the same name, and no lane space has two default
lanes. The kinds are checked in the order of `check`, and the first fault is the one reported.
-/

namespace TrafficControl

/-- What is wrong with a policy. -/
inductive PolicyError where
  | duplicateService (name : String)
  | duplicateLiveSpace (id : String)
  | duplicateLaneSpace (id : String)
  | duplicateDatabase (name : String)
  /-- A lane space has more than one default lane. -/
  | severalDefaultLanes (space : String)
deriving DecidableEq

/-- The text of an error. -/
def PolicyError.message : PolicyError → String
  | duplicateService name => s!"duplicate service name: {name}"
  | duplicateLiveSpace id => s!"duplicate live space id: {id}"
  | duplicateLaneSpace id => s!"duplicate lane space id: {id}"
  | duplicateDatabase name => s!"duplicate database cluster name: {name}"
  | severalDefaultLanes space =>
    s!"invalid policy: lane space {space} declares more than one default lane"

/-- A complete delivery of policy. -/
structure Document where
  liveSpaces : List LiveSpace := []
  laneSpaces : List LaneSpace := []
  services : List Service := []
  databases : List Database := []
deriving DecidableEq

/-! ## Validity -/

/-- The first key that has occurred before. -/
def firstRepeated? (seen : List String) : List String → Option String
  | [] => none
  | key :: keys => if key ∈ seen then some key else firstRepeated? (key :: seen) keys

/-- Refuses keys of which one is repeated. -/
def checkDistinct (keys : List String) (error : String → PolicyError) : Except PolicyError Unit :=
  match firstRepeated? [] keys with
  | some key => .error (error key)
  | none => .ok ()

/-- Refuses live spaces of the same id. -/
def checkLiveSpaces (spaces : List LiveSpace) : Except PolicyError Unit :=
  checkDistinct (spaces.map (·.id)) .duplicateLiveSpace

/-- Refuses lane spaces of the same id, and one with several default lanes. -/
def checkLaneSpaces (spaces : List LaneSpace) : Except PolicyError Unit := do
  checkDistinct (spaces.map (·.id)) .duplicateLaneSpace
  match spaces.find? fun s => 1 < s.lanes.countP (·.isDefault) with
  | some s => .error (.severalDefaultLanes s.id)
  | none => .ok ()

/-- Refuses services of the same name. -/
def checkServices (services : List Service) : Except PolicyError Unit :=
  checkDistinct (services.map (·.name)) .duplicateService

/-- Refuses clusters of the same name. -/
def checkDatabases (databases : List Database) : Except PolicyError Unit :=
  checkDistinct (databases.map (·.name)) .duplicateDatabase

namespace Document

/-- Refuses a document that is not valid. -/
def check (d : Document) : Except PolicyError Unit := do
  checkLiveSpaces d.liveSpaces
  checkLaneSpaces d.laneSpaces
  checkServices d.services
  checkDatabases d.databases

/-- The document as JSON. -/
def codec : Codec Document :=
  (Codec.record (.cons (.defaulted "liveSpaces" (.list LiveSpace.codec) [])
    (.cons (.defaulted "laneSpaces" (.list LaneSpace.codec) [])
    (.cons (.defaulted "services" (.list Service.codec) [])
    (.one (.defaulted "dbClusters" (.list Database.codec) [])))))).imap
    (fun (liveSpaces, laneSpaces, services, databases) =>
      { liveSpaces, laneSpaces, services, databases })
    (fun d => (d.liveSpaces, d.laneSpaces, d.services, d.databases))

end Document

end TrafficControl
