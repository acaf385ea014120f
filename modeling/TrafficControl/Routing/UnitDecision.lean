import TrafficControl.Routing.Filter

/-!
# Routing to units

Which unit a call goes to is a matter of the unit policy of the service
(`Invocation.unitDecision`). `Filter.unit` keeps the endpoints of this unit alone. If the call stays
in the unit of the application it also prefers the endpoints of the application's cell, but does
without them where there are none.
-/

namespace TrafficControl

/-- Why a call goes to no unit. -/
inductive UnitRefusal where
  /-- The unit does not serve the request. -/
  | notAccessible (unit : String)
  /-- The application is in no unit. -/
  | noLocalUnit
  | noCenter
  | noVariable
  /-- No existing unit owns the routing variable. -/
  | noRoute
deriving DecidableEq

/-- Where a call goes. -/
inductive UnitDecision where
  /-- To any unit. -/
  | any
  | route (unit : String)
  | refuse (why : UnitRefusal)
deriving DecidableEq

namespace Invocation

/-- Whether units matter to the call. -/
def isLive (i : Invocation) : Bool := i.context.liveEnabled && i.live.space.isSome

/-- The reason of a refusal. -/
def refusalReason (i : Invocation) : UnitRefusal → String
  | .notAccessible unit => i.reasonAtUnit Reason.unitNotAccessible (some unit)
  | .noLocalUnit => i.reason Reason.noLocalUnit
  | .noCenter => i.reason Reason.noCenter
  | .noVariable => i.reason Reason.noVariable
  | .noRoute => i.reason Reason.noUnitRoute

/-- To a unit, if it serves the request. -/
def toUnit (i : Invocation) (unit : LiveUnit) : UnitDecision :=
  if i.isAccessible (some unit.accessMode) then .route unit.code
  else .refuse (.notAccessible unit.code)

/-- To the center unit. -/
def toCenter (i : Invocation) : UnitDecision :=
  match i.live.center? with
  | some unit => i.toUnit unit
  | none => .refuse .noCenter

/-- To the unit of the application, or to the center unit where that does not serve the request. -/
def toLocal (i : Invocation) : UnitDecision :=
  match i.live.currentUnit? with
  | some unit => if i.isAccessible (some unit.accessMode) then .route unit.code else i.toCenter
  | none => .refuse .noLocalUnit

/-- To the unit that owns the routing variable under a rule. -/
def toOwner (i : Invocation) (rule : UnitRule) : UnitDecision :=
  if i.live.routingVariable?.isSome then
    match i.live.targetUnit? with
    | some unit => i.toUnit unit
    | none => .refuse .noRoute
  else
    match rule.missingVariable with
    | .center => i.toCenter
    | .reject => .refuse .noVariable

/-- Where the call goes. Without a unit rule, a service that is routed by unit is called nearby. -/
def unitDecision (i : Invocation) : UnitDecision :=
  match i.service.unitPolicy with
  | .none => .any
  | .center => i.toCenter
  | .preferLocal => i.toLocal
  | .unit =>
    match i.live.rule? with
    | some rule => i.toOwner rule
    | none => i.toLocal

/-- The cell of the application, if it is a cell of the unit given and serves the request. -/
def localCell? (i : Invocation) (unit : String) : Option String := do
  let current ← i.live.currentUnit?
  let cell ← i.live.currentCell?
  if current.code = unit ∧ i.isAccessible (some cell.accessMode) then some cell.code else none

end Invocation

namespace Selection

/-- Prefer the endpoints of a cell. -/
def preferCell (s : Selection) (cell : String) : Selection :=
  let (found, s) := s.filter (·.isCell cell) false
  if 0 < found then { s with cell := some cell } else s

/-- Keep the endpoints of a unit, preferably those of a cell. -/
def keepUnit (s : Selection) (unit : String) (cell : Option String) : Selection :=
  let s := (s.filter (·.isUnit unit) true).2
  let s := match cell with
    | some cell => s.preferCell cell
    | none => s
  { s with unit := some unit }

end Selection

/-- Routes a call to its unit. -/
def Filter.unit {σ : Type} : Filter σ := .ofInvocation "unit" fun i =>
  if i.isLive then
    match i.unitDecision with
    | .any => (.proceed, i)
    | .route unit =>
      (.proceed, { i with selection := i.selection.keepUnit unit (i.localCell? unit) })
    | .refuse why => Verdict.ofFault (i.reject .unit (i.refusalReason why))
  else (.proceed, i)

end TrafficControl
