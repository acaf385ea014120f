import TrafficControl.Policy.Snapshot
import TrafficControl.Routing.Application
import TrafficControl.Routing.Request

/-!
# Facts

What a request, a snapshot and the place of the application say about a call : the service and its
bundle (`ServiceFacts`), the units (`LiveFacts`) and the lanes (`LaneFacts`). Headers come
first, the place of the application second. Ids may name nothing; the look-ups say what they name.
-/

namespace TrafficControl

/-! ## The service -/

/-- What is known about the service of a call. -/
structure ServiceFacts where
  name : String
  group : Option String
  path : Option String
  method : Option String
  write : Bool
  service : Option Service
  /-- The unit rule whose live policy applies. -/
  ruleId : Option String
deriving DecidableEq

namespace ServiceFacts

/-- The facts of a request, without a unit rule. -/
def resolve (r : Request) (s : Snapshot) : ServiceFacts where
  name := r.service
  group := nonEmpty? r.group
  path := nonEmpty? r.path
  method := nonEmpty? r.method
  write := r.write
  service := s.service? r.service
  ruleId := none

/-- The facts under a unit rule. -/
def withRule (m : ServiceFacts) (rule : Option UnitRule) : ServiceFacts :=
  { m with ruleId := rule.map (·.id) }

/-- The bundle that applies to the call. -/
def bundle? (m : ServiceFacts) : Option Bundle := m.service.bind (·.bundle? m.path m.method)

/-- The live policy that applies to the call. -/
def livePolicy? (m : ServiceFacts) : Option LivePolicy := m.bundle?.bind (·.livePolicy? m.ruleId)

/-- The unit policy that applies to the call. A service without one is called in any unit. -/
def unitPolicy (m : ServiceFacts) : UnitPolicy :=
  match m.livePolicy? with
  | some p => p.unitPolicy
  | none => .none

/-- Whether the call counts as a write. -/
def isWrite (m : ServiceFacts) : Bool := m.write || m.livePolicy?.any (·.writeProtect)

end ServiceFacts

/-! ## Units -/

/-- What is known about the units of a call. -/
structure LiveFacts where
  space : Option LiveSpace
  ruleId : Option String
  variableText : Option String
  /-- The unit of the application. -/
  currentUnitId : Option String
  /-- The cell of the application. -/
  currentCellId : Option String
  /-- The unit that owns the routing variable. -/
  targetUnitId : Option String
deriving DecidableEq

namespace LiveFacts

/-- The facts of a request, without a target unit. -/
def resolve (r : Request) (s : Snapshot) (a : Application) : LiveFacts where
  space := ((nonEmpty? (r.header? Header.liveSpace)).or a.location.liveSpace).bind s.liveSpace?
  ruleId := nonEmpty? (r.header? Header.unitRule)
  variableText := nonEmpty? r.routingVariable?
  currentUnitId := a.location.unit
  currentCellId := a.location.cell
  targetUnitId := none

/-- The unit rule of the call. -/
def rule? (m : LiveFacts) : Option UnitRule := do (← m.space).rule? (← m.ruleId)

/-- The routing variable of the call. -/
def routingVariable? (m : LiveFacts) : Option String := nonEmpty? m.variableText

/-- The unit of a code. -/
def unit? (m : LiveFacts) (code : Option String) : Option LiveUnit := do
  (← m.space).unit? (← code)

/-- The unit of the application. -/
def currentUnit? (m : LiveFacts) : Option LiveUnit := m.unit? m.currentUnitId

/-- The cell of the application. -/
def currentCell? (m : LiveFacts) : Option Cell := do
  (← m.currentUnit?).cell? (← m.currentCellId)

/-- The center unit. -/
def center? (m : LiveFacts) : Option LiveUnit := m.space.bind (·.center?)

/-- The unit that owns the routing variable. -/
def targetUnit? (m : LiveFacts) : Option LiveUnit := m.unit? m.targetUnitId

/-- Settle rule and target unit by the bundle of the service. Where the request names no rule, that
of the live policy applies. -/
def settle (m : LiveFacts) (bundle : Option Bundle) : LiveFacts :=
  let ruleId := m.ruleId.or ((bundle.bind (·.livePolicy? none)).bind (·.rule))
  let m := { m with ruleId }
  let route := do (← m.rule?).route? (← m.routingVariable?)
  { m with targetUnitId := route.map (·.unit) }

end LiveFacts

/-! ## Lanes -/

/-- What is known about the lanes of a call. -/
structure LaneFacts where
  /-- The lane space in which the request travels. -/
  space : Option LaneSpace
  currentLaneId : Option String
  targetSpaceId : Option String
  targetSpace : Option LaneSpace
  targetLaneId : Option String
  defaultSpaceId : Option String
  defaultLaneId : Option String
deriving DecidableEq

namespace LaneFacts

/-- The facts of a request. -/
def resolve (r : Request) (s : Snapshot) (a : Application) : LaneFacts :=
  let default := s.defaultLaneSpace?
  let defaultSpaceId := default.map (·.id)
  let spaceId := (nonEmpty? (r.header? Header.laneSpace)).or a.location.laneSpace
  let laneId := (nonEmpty? (r.header? Header.lane)).or a.location.lane
  let targetSpaceId := spaceId.or defaultSpaceId
  { space := spaceId.bind s.laneSpace?
    currentLaneId := laneId
    targetSpaceId
    targetSpace := targetSpaceId.bind s.laneSpace?
    targetLaneId := laneId
    defaultSpaceId
    defaultLaneId := (default.bind (·.defaultLane?)).map (·.code) }

/-- The lane in which the request travels. -/
def currentLane? (m : LaneFacts) : Option Lane := m.space.bind (·.laneOrDefault? m.currentLaneId)

/-- The lane that the request asks for, or the default lane of the target space. -/
def targetLane? (m : LaneFacts) : Option Lane :=
  m.targetSpace.bind (·.laneOrDefault? m.targetLaneId)

end LaneFacts

end TrafficControl
