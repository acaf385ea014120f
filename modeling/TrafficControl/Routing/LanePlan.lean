import TrafficControl.Routing.Filter

/-!
# Routing to lanes

A call goes to the lane that it asks for, after redirection by the lane policy, or to the default
lane. If no endpoint is in this lane the lane policy says whether endpoints of another lane may
take its place (`Invocation.lanePlan`); where it names none, no endpoint is left. So a call never
leaves its lane by accident.
-/

namespace TrafficControl

/-- The lanes that a call may go to. -/
inductive LanePlan where
  /-- To one lane only, or to the default lane. -/
  | direct (lane : Option String)
  /-- To a lane and, if no endpoint is in it, to another one, or to the default lane. -/
  | fallback (lane : String) (other : Option String)
deriving DecidableEq

namespace Invocation

/-- The lane policy for the target space. -/
def lanePolicy? (i : Invocation) : Option LanePolicy :=
  i.service.bundle?.bind (·.lanePolicy? i.lane.targetSpaceId)

/-- The lane to which the lane policy redirects the call. -/
def redirect? (i : Invocation) : Option String :=
  i.lanePolicy?.bind (·.redirect? i.lane.targetLaneId)

/-- What takes the place of a lane of a space : nothing, or perhaps a lane that is named. -/
def laneFallback? (i : Invocation) (space : LaneSpace) (lane : Lane) : Option (Option String) :=
  match (i.lanePolicy?.map (·.fallback)).getD .defaultLane with
  | .defaultLane => (space.defaultLane?.filter (·.code ≠ lane.code)).map fun d => some d.code
  | .custom => some (i.lanePolicy?.bind (·.fallbackLane))
  | .none => none

/-- The lanes that the call may go to. -/
def lanePlan (i : Invocation) : LanePlan :=
  match i.lane.targetSpace with
  | none => .direct i.lane.targetLaneId
  | some space =>
    let lane := match i.redirect? with
      | some code => space.lane? code
      | none => i.lane.targetLane?
    match lane with
    | none => .direct (i.redirect?.or i.lane.targetLaneId)
    | some lane =>
      match i.laneFallback? space lane with
      | some other => .fallback lane.code other
      | none => .direct (some lane.code)

/-- Whether an endpoint serves a lane of the target space. -/
def isOnLane (i : Invocation) (lane : Option String) (e : Endpoint) : Bool :=
  e.isLane i.lane.targetSpaceId lane i.lane.defaultSpaceId i.lane.defaultLaneId

/-- The endpoints that are left when the lanes are taken into account. -/
def onLanes (i : Invocation) : Selection :=
  match i.lanePlan with
  | .direct lane => (i.selection.filter (i.isOnLane lane) true).2
  | .fallback lane other =>
    let (found, selection) := i.selection.filter (i.isOnLane (some lane)) false
    if found = 0 then (selection.filter (i.isOnLane other) true).2 else selection

end Invocation

/-- Routes a call to its lane. -/
def Filter.lane {σ : Type} : Filter σ := .ofUpdate "lane" fun i =>
  if i.context.laneEnabled then { i with selection := i.onLanes } else i

end TrafficControl
