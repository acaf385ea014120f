import TrafficControl.Json.Codec

/-!
# Lane spaces

A lane space is a scope within which traffic is kept apart in lanes. One lane may be the default
lane : it takes the requests that name no lane.
-/

namespace TrafficControl

/-- A lane of a lane space. -/
structure Lane where
  code : String
  name : Option String := none
  isDefault : Bool := false
deriving DecidableEq, Inhabited

/-- The lane as a document writes it. -/
def Lane.codec : Codec Lane :=
  (Codec.record (.cons (.required "code" .string) (.cons (.optional "name" .string)
    (.one (.defaulted "defaultLane" .bool false))))).imap
    (fun (code, name, isDefault) => { code, name, isDefault })
    (fun l => (l.code, l.name, l.isDefault))

/-- A host of a lane space. -/
structure LaneHost where
  host : String
deriving DecidableEq, Inhabited

/-- The host as a document writes it. -/
def LaneHost.codec : Codec LaneHost :=
  (Codec.record (.one (.required "host" .string))).imap (fun host => { host }) (fun h => h.host)

/-- Lanes of one scope. -/
structure LaneSpace where
  id : String
  /-- Whether the space applies to requests that name none. -/
  isDefault : Bool := false
  lanes : List Lane := []
  hosts : List LaneHost := []
deriving DecidableEq, Inhabited

namespace LaneSpace

/-- The space as a document writes it. -/
def codec : Codec LaneSpace :=
  (Codec.record (.cons (.required "id" .string) (.cons (.defaulted "defaultSpace" .bool false)
    (.cons (.defaulted "lanes" (.list Lane.codec) [])
    (.one (.defaulted "domains" (.list LaneHost.codec) [])))))).imap
    (fun (id, isDefault, lanes, hosts) => { id, isDefault, lanes, hosts })
    (fun s => (s.id, s.isDefault, s.lanes, s.hosts))

/-- The first lane of the code given. -/
def lane? (s : LaneSpace) (code : String) : Option Lane := s.lanes.find? (·.code = code)

/-- The first lane that is marked as the default. -/
def defaultLane? (s : LaneSpace) : Option Lane := s.lanes.find? (·.isDefault)

/-- The lane of the code given, or the default lane where the code is missing or empty. -/
def laneOrDefault? (s : LaneSpace) (code : Option String) : Option Lane :=
  match code.filter (· ≠ "") with
  | some code => s.lane? code
  | none => s.defaultLane?

end LaneSpace

end TrafficControl
