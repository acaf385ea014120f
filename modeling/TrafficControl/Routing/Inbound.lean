import TrafficControl.Routing.UnitDecision

/-!
# Inbound filters

The filters of a call that has just been received : does it belong to the unit of the application,
and may the cell of the application serve it ?
-/

namespace TrafficControl

/-! ## Units -/

/-- Why a call is not served by the unit that received it. -/
inductive Stray where
  /-- The application is in no unit. -/
  | noLocalUnit
  /-- The local unit does not serve the request. -/
  | notAccessible
  /-- The call goes to the center unit, which this is not. -/
  | notCenter
  /-- The routing variable is missing, and the center unit is to take care of it. -/
  | forCenter
  | noVariable
  /-- Another unit owns the routing variable. -/
  | forUnit (unit : String)
  /-- No existing unit owns the routing variable. -/
  | noRoute
deriving DecidableEq

namespace Invocation

/-- What happens to a call that is not served, and the reason. -/
def strayFault (i : Invocation) : Stray → FaultKind × String
  | .noLocalUnit => (.reject, i.reason Reason.noLocalUnit)
  | .notAccessible => (.failover, i.reason Reason.unitNotAccessibleFailover)
  | .notCenter => (.reject, i.reason Reason.unitNotCenter)
  | .forCenter => (.failover, i.reason Reason.noVariableFailover)
  | .noVariable => (.reject, i.reason Reason.noVariable)
  | .forUnit unit => (.failover, i.reasonAtUnit Reason.otherUnit (some unit))
  | .noRoute => (.reject, i.reason Reason.noUnitRoute)

/-- Whether a unit is the center unit. -/
def isCenter (i : Invocation) (unit : LiveUnit) : Bool := i.live.center?.any (·.code = unit.code)

/-- Why the local unit does not serve a call that it is to serve under a rule. -/
def strayUnder? (i : Invocation) (unit : LiveUnit) (rule : UnitRule) : Option Stray :=
  if i.live.routingVariable?.isSome then
    match i.live.targetUnit? with
    | some target => if target.code = unit.code then none else some (.forUnit target.code)
    | none => some .noRoute
  else
    match rule.missingVariable with
    | .center => if i.isCenter unit then none else some .forCenter
    | .reject => some .noVariable

/-- Why the local unit does not serve the call, unless it does. -/
def stray? (i : Invocation) : Option Stray :=
  match i.live.currentUnit? with
  | none => some .noLocalUnit
  | some unit =>
    if i.isAccessible (some unit.accessMode) then
      match i.service.unitPolicy with
      | .center => if i.isCenter unit then none else some .notCenter
      | .unit => i.live.rule?.bind (i.strayUnder? unit)
      | .none | .preferLocal => none
    else some .notAccessible

/-- Stop a call that is not served. -/
def turnAway (i : Invocation) (why : Stray) : Fault × Invocation :=
  match i.strayFault why with
  | (.failover, reason) => i.failover .unit reason
  | (_, reason) => i.reject .unit reason

end Invocation

/-- Turns away calls that do not belong to the local unit. -/
def Filter.unitInbound {σ : Type} : Filter σ := .ofInvocation "unit-inbound" fun i =>
  match i.stray? with
  | some why => if i.isLive then Verdict.ofFault (i.turnAway why) else (.proceed, i)
  | none => (.proceed, i)

/-! ## Cells -/

/-- Sends calls elsewhere that the local cell may not serve. -/
def Filter.cellInbound {σ : Type} : Filter σ := .ofInvocation "cell-inbound" fun i =>
  match i.live.currentCell? with
  | some cell =>
    if i.isLive && !i.isAccessible (some cell.accessMode) then
      Verdict.ofFault (i.failover .cell (i.reason Reason.cellNotAccessible))
    else (.proceed, i)
  | none => (.proceed, i)

end TrafficControl
