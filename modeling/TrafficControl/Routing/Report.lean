import TrafficControl.Routing.Invocation

/-!
# Reports

What is known about a call and what became of it, as JSON, for those who look after the process. A
place that was looked up is named by the code or id of what was found.
-/

namespace TrafficControl

/-- A text, or `null` where there is none. -/
def reportText (s : Option String) : Json := (Codec.option .string).encode s

/-- A fault. -/
def Fault.report (f : Fault) : Json :=
  .object [
    ("kind", .string f.kind.name), ("type", .string f.type.name), ("reason", .string f.reason),
    ("display", .string f.message), ("transient", .bool f.isTransient),
    ("is", .list [.bool (f.kind = .reject), .bool (f.kind = .failover), .bool (f.kind = .degrade)])]

/-- A chosen endpoint. -/
def Choice.report (c : Choice) : Json :=
  .object [("id", .string c.endpoint.id), ("index", .number (.natural c.index))]

/-- What is left of the endpoints of a call. -/
def Selection.report (s : Selection) : Json :=
  let choice : Json := match s.choice with
    | some c => c.report
    | none => .null
  .object [
    ("endpoints", .list (s.endpoints.map fun e => .string e.id)),
    ("len", .number (.natural s.endpoints.length)), ("empty", .bool s.endpoints.isEmpty),
    ("unit", reportText s.unit), ("cell", reportText s.cell), ("candidate", choice)]

/-- The service of a call. -/
def ServiceFacts.report (m : ServiceFacts) : Json :=
  let bundle : Json := match m.bundle? with
    | some b => .object [("id", reportText b.id)]
    | none => .null
  .object [
    ("name", .string m.name), ("group", reportText m.group), ("path", reportText m.path),
    ("method", reportText m.method), ("write", .bool m.write), ("is_write", .bool m.isWrite),
    ("known", .bool m.service.isSome), ("unit_rule_id", reportText m.ruleId),
    ("unit_policy", UnitPolicy.codec.encode m.unitPolicy), ("policy", bundle),
    ("live_policy", (Codec.option LivePolicy.codec).encode m.livePolicy?)]

/-- The units of a call. -/
def LiveFacts.report (m : LiveFacts) : Json :=
  .object [
    ("space", reportText (m.space.map (·.id))), ("unit_rule_id", reportText m.ruleId),
    ("unit_rule", reportText (m.rule?.map (·.id))), ("variable", reportText m.routingVariable?),
    ("current_unit_id", reportText m.currentUnitId),
    ("current_cell_id", reportText m.currentCellId),
    ("target_unit_id", reportText m.targetUnitId),
    ("current_unit", reportText (m.currentUnit?.map (·.code))),
    ("current_cell", reportText (m.currentCell?.map (·.code))),
    ("center_unit", reportText (m.center?.map (·.code))),
    ("target_unit", reportText (m.targetUnit?.map (·.code)))]

/-- The lanes of a call. -/
def LaneFacts.report (m : LaneFacts) : Json :=
  .object [
    ("space", reportText (m.space.map (·.id))), ("current_lane_id", reportText m.currentLaneId),
    ("current_lane", reportText (m.currentLane?.map (·.code))),
    ("target_space_id", reportText m.targetSpaceId),
    ("target_space", reportText (m.targetSpace.map (·.id))),
    ("target_lane_id", reportText m.targetLaneId),
    ("target_lane", reportText (m.targetLane?.map (·.code))),
    ("default_space_id", reportText m.defaultSpaceId),
    ("default_lane_id", reportText m.defaultLaneId)]

/-- Everything known about a call. -/
def Invocation.report (i : Invocation) : Json :=
  .object [
    ("service", i.service.report), ("live", i.live.report), ("lane", i.lane.report),
    ("snapshot", .number (.natural i.snapshot.version))]

end TrafficControl
