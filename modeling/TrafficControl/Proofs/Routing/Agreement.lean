import TrafficControl.Proofs.Routing.Narrowing
import TrafficControl.Routing.Inbound

/-!
# Sender and receiver agree

A call is routed to a unit by the application that sends it, and checked against its own unit by the
application that receives it. The sender starts from the unit policy and looks last whether the unit
serves the request, the receiver does so first. Both ask the same of a unit
(`Invocation.Admits`) : it serves the request, and the unit policy assigns the call to it. What they
know of a call differs in their own places alone, if they resolve the same live space
(`Invocation.alike_resolve`). So a call that is routed to a unit is served there, wherever it comes
from, and a unit serves a call that is routed by units only if it would itself keep it
(`Invocation.sender_receiver_agree`).
-/

namespace TrafficControl

/-! ## Units by their codes -/

theorem LiveSpace.code_of_unit? {s : LiveSpace} {code : String} {u : LiveUnit}
    (h : s.unit? code = some u) : u.code = code := by
  simpa using List.find?_some h

namespace LiveFacts

variable {m : LiveFacts} {u v : LiveUnit} {code : Option String}

/-- Whether a unit is the one that its own code finds. -/
def HasUnit (m : LiveFacts) (u : LiveUnit) : Prop := m.unit? (some u.code) = some u

theorem HasUnit.eq (hu : m.HasUnit u) (hv : m.HasUnit v) (h : u.code = v.code) : u = v := by
  rw [HasUnit, h] at hu
  exact Option.some.inj (hu.symm.trans hv)

theorem code_of_unit? (h : m.unit? code = some u) : code = some u.code := by
  obtain ⟨s, -, h⟩ := Option.bind_eq_some_iff.1 h
  obtain ⟨c, rfl, h⟩ := Option.bind_eq_some_iff.1 h
  rw [LiveSpace.code_of_unit? h]

theorem hasUnit_of_unit? (h : m.unit? code = some u) : m.HasUnit u := by
  rwa [HasUnit, ← code_of_unit? h]

theorem currentUnit?_eq_some_iff {c : String} (h : m.currentUnitId = some c) :
    m.currentUnit? = some u ↔ m.HasUnit u ∧ u.code = c := by
  rw [currentUnit?, h]
  constructor
  · intro hu
    exact ⟨hasUnit_of_unit? hu, (Option.some.inj (code_of_unit? hu)).symm⟩
  · rintro ⟨hu, rfl⟩
    exact hu

theorem hasUnit_center (h : m.center? = some u) : m.HasUnit u := by
  obtain ⟨s, hs, hcenter⟩ := Option.bind_eq_some_iff.1 h
  obtain ⟨c, -, hunit⟩ := Option.bind_eq_some_iff.1 hcenter
  have hcode : m.unit? (some c) = some u := by simpa [unit?, hs] using hunit
  exact hasUnit_of_unit? hcode

end LiveFacts

/-! ## What both sides ask of a unit -/

namespace Invocation

variable {i j : Invocation} {u : LiveUnit} {code : String}

/-- Whether the unit policy assigns the call to a unit. -/
def Assigns (i : Invocation) (u : LiveUnit) : Prop :=
  match i.service.unitPolicy with
  | .none | .preferLocal => True
  | .center => i.isCenter u
  | .unit => i.live.rule?.bind (i.strayUnder? u) = none

/-- Whether the call may be served in a unit. -/
structure Admits (i : Invocation) (u : LiveUnit) : Prop where
  hasUnit : i.live.HasUnit u
  serves : i.isAccessible (some u.accessMode)
  assigns : i.Assigns u

theorem isCenter_iff (hu : i.live.HasUnit u) : i.isCenter u ↔ i.live.center? = some u := by
  constructor
  · intro h
    obtain ⟨c, hc, hcode⟩ := (Option.any_eq_true ..).1 h
    rw [hc, (LiveFacts.hasUnit_center hc).eq hu (by simpa using hcode)]
  · intro h
    simp [isCenter, h]

/-! ### The receiver -/

/-- Whether a call that was received belongs to the local unit. -/
def IsServed (i : Invocation) : Prop := (Filter.unitInbound.apply () i).1 = .proceed

theorem isServed_iff (hlive : i.isLive) : i.IsServed ↔ i.stray? = none := by
  cases h : i.stray? <;>
    simp [IsServed, Filter.unitInbound, Filter.ofInvocation, h, hlive, Verdict.ofFault]

/-- The local unit serves the calls that it admits. -/
theorem stray?_eq_none_iff :
    i.stray? = none ↔ ∃ u, i.live.currentUnit? = some u ∧ i.Admits u := by
  unfold stray?
  cases hu : i.live.currentUnit? with
  | none => simp
  | some u =>
    have hadmits : i.Admits u ↔ i.isAccessible (some u.accessMode) ∧ i.Assigns u :=
      ⟨fun h => ⟨h.serves, h.assigns⟩, fun h => ⟨LiveFacts.hasUnit_of_unit? hu, h.1, h.2⟩⟩
    by_cases hserves : i.isAccessible (some u.accessMode)
    · cases hp : i.service.unitPolicy <;> simp [hadmits, hserves, Assigns, hp]
    · simp [hadmits, hserves]

/-! ### The sender -/

theorem toUnit_eq_route_iff :
    i.toUnit u = .route code ↔ i.isAccessible (some u.accessMode) ∧ u.code = code := by
  unfold toUnit
  split <;> simp_all

theorem toCenter_eq_route_iff : i.toCenter = .route code ↔
    ∃ u, i.live.center? = some u ∧ i.isAccessible (some u.accessMode) ∧ u.code = code := by
  unfold toCenter
  cases i.live.center? <;> simp [toUnit_eq_route_iff]

/-- The local unit or the center unit, whichever the call goes to, serves the request. -/
theorem exists_of_toLocal (h : i.toLocal = .route code) :
    ∃ u, i.live.HasUnit u ∧ i.isAccessible (some u.accessMode) ∧ u.code = code := by
  unfold toLocal at h
  split at h
  · next u hu =>
    split at h
    · next hserves => exact ⟨u, LiveFacts.hasUnit_of_unit? hu, hserves, by simpa using h⟩
    · obtain ⟨c, hc, hserves, hcode⟩ := toCenter_eq_route_iff.1 h
      exact ⟨c, LiveFacts.hasUnit_center hc, hserves, hcode⟩
  · simp at h

theorem toLocal_of_admits (hu : i.live.currentUnit? = some u) (h : i.Admits u) :
    i.toLocal = .route u.code := by
  simp [toLocal, hu, h.serves]

/-- Under a rule the call goes to the unit that serves the request and is its owner, or the center
unit where the routing variable is missing. -/
theorem toOwner_eq_route_iff {rule : UnitRule} : i.toOwner rule = .route code ↔
    ∃ u, i.live.HasUnit u ∧ i.isAccessible (some u.accessMode) ∧ u.code = code ∧
      i.strayUnder? u rule = none := by
  unfold toOwner strayUnder?
  by_cases hvar : i.live.routingVariable?.isSome
  · simp only [hvar, if_true]
    cases htarget : i.live.targetUnit? with
    | none => simp
    | some t =>
      have ht := LiveFacts.hasUnit_of_unit? htarget
      simp only [toUnit_eq_route_iff, ite_eq_left_iff, reduceCtorEq, imp_false, not_not]
      constructor
      · rintro ⟨hserves, rfl⟩
        exact ⟨t, ht, hserves, rfl, rfl⟩
      · rintro ⟨u, hu, hserves, rfl, hcode⟩
        rw [ht.eq hu hcode]
        exact ⟨hserves, rfl⟩
  · simp only [hvar, Bool.false_eq_true, if_false]
    cases rule.missingVariable with
    | center =>
      simp only [toCenter_eq_route_iff, ite_eq_left_iff, reduceCtorEq, imp_false]
      constructor
      · rintro ⟨u, hu, hserves, rfl⟩
        have hunit := LiveFacts.hasUnit_center hu
        exact ⟨u, hunit, hserves, rfl, by simpa using (isCenter_iff hunit).2 hu⟩
      · rintro ⟨u, hunit, hserves, rfl, hcenter⟩
        exact ⟨u, (isCenter_iff hunit).1 (by simpa using hcenter), hserves, rfl⟩
    | reject => simp

/-- A call goes to no unit that does not admit it. -/
theorem exists_admits_of_route (h : i.unitDecision = .route code) :
    ∃ u, u.code = code ∧ i.Admits u := by
  unfold unitDecision at h
  cases hp : i.service.unitPolicy with
  | none => simp [hp] at h
  | center =>
    simp only [hp] at h
    obtain ⟨u, hu, hserves, hcode⟩ := toCenter_eq_route_iff.1 h
    have hunit := LiveFacts.hasUnit_center hu
    exact ⟨u, hcode, hunit, hserves, by simpa [Assigns, hp] using (isCenter_iff hunit).2 hu⟩
  | preferLocal =>
    simp only [hp] at h
    obtain ⟨u, hunit, hserves, hcode⟩ := exists_of_toLocal h
    exact ⟨u, hcode, hunit, hserves, by simp [Assigns, hp]⟩
  | unit =>
    simp only [hp] at h
    cases hr : i.live.rule? with
    | none =>
      simp only [hr] at h
      obtain ⟨u, hunit, hserves, hcode⟩ := exists_of_toLocal h
      exact ⟨u, hcode, hunit, hserves, by simp [Assigns, hp, hr]⟩
    | some rule =>
      simp only [hr] at h
      obtain ⟨u, hunit, hserves, hcode, hnone⟩ := toOwner_eq_route_iff.1 h
      exact ⟨u, hcode, hunit, hserves, by simpa [Assigns, hp, hr] using hnone⟩

/-- A call that is routed by units stays in the local unit, if that admits it. -/
theorem unitDecision_of_admits (hp : i.service.unitPolicy ≠ .none)
    (hu : i.live.currentUnit? = some u) (h : i.Admits u) : i.unitDecision = .route u.code := by
  have hassigns := h.assigns
  unfold unitDecision
  unfold Assigns at hassigns
  split at hassigns
  · next hnone => exact absurd hnone hp
  · next hlocal => simp only [hlocal, toLocal_of_admits hu h]
  · next hcenter =>
    simp only [hcenter]
    exact toCenter_eq_route_iff.2 ⟨u, (isCenter_iff h.hasUnit).1 hassigns, h.serves, rfl⟩
  · next hunit =>
    simp only [hunit]
    cases hr : i.live.rule? with
    | none => exact toLocal_of_admits hu h
    | some rule =>
      exact toOwner_eq_route_iff.2 ⟨u, h.hasUnit, h.serves, rfl, by simpa [hr] using hassigns⟩

/-! ## One call in two places -/

/-- Whether the same is known of two calls, but for the places of their applications. -/
structure Alike (i j : Invocation) : Prop where
  service : i.service = j.service
  space : i.live.space = j.live.space
  ruleId : i.live.ruleId = j.live.ruleId
  variableText : i.live.variableText = j.live.variableText
  targetUnitId : i.live.targetUnitId = j.live.targetUnitId

theorem Alike.admits (h : i.Alike j) (hi : i.Admits u) : j.Admits u := by
  obtain ⟨hservice, hspace, hrule, hvariable, htarget⟩ := h
  obtain ⟨hunit, hserves, hassigns⟩ := hi
  refine ⟨?_, ?_, ?_⟩
  · simpa only [LiveFacts.HasUnit, LiveFacts.unit?, hspace] using hunit
  · simpa only [isAccessible, hservice] using hserves
  · have hcenter : i.isCenter u = j.isCenter u := by
      simp only [isCenter, LiveFacts.center?, hspace]
    have hstray : i.strayUnder? u = j.strayUnder? u := by
      funext rule
      simp only [strayUnder?, LiveFacts.routingVariable?, LiveFacts.targetUnit?, LiveFacts.unit?,
        hcenter, hspace, hvariable, htarget]
      rfl
    simpa only [Assigns, LiveFacts.rule?, hservice, hspace, hrule, hcenter, hstray] using hassigns

variable {c c' : Context} {s : Snapshot} {r : Request} {es es' : List Endpoint}
  {ls ls' : List RequestListener}

/-- Two applications that resolve the same live space for a request know the same of it. -/
theorem alike_resolve
    (h : (resolve c s r es ls).live.space = (resolve c' s r es' ls').live.space) :
    (resolve c s r es ls).Alike (resolve c' s r es' ls') := by
  have hspace : (LiveFacts.resolve r s c.application).space =
      (LiveFacts.resolve r s c'.application).space := h
  have hrule : (LiveFacts.resolve r s c.application).rule? =
      (LiveFacts.resolve r s c'.application).rule? := by
    simp only [LiveFacts.rule?, hspace]
    rfl
  have hservice : (resolve c s r es ls).service = (resolve c' s r es' ls').service := by
    simp only [resolve, hrule]
  refine ⟨hservice, h, ?_, rfl, ?_⟩
  · simp only [resolve, LiveFacts.settle, hrule]
    rfl
  · simp only [resolve, LiveFacts.settle, LiveFacts.rule?, hspace]
    rfl

theorem routedUnit?_eq_some_iff :
    i.routedUnit? = some code ↔ i.isLive ∧ i.unitDecision = .route code := by
  unfold routedUnit?
  split
  · next hlive hroute => simp [hlive, hroute]
  · next h =>
    simp only [reduceCtorEq, false_iff, not_and]
    exact fun hlive hroute => h code hlive hroute

/-- Take a request that two applications resolve to the same live space, and let the second one be
in some unit. If the first one routes it to this unit then the second one serves it; and the second
one serves a call that is routed by units only if it would itself keep it in its unit. -/
theorem sender_receiver_agree (s : Snapshot) (r : Request) (sender receiver : Context)
    (es es' : List Endpoint) (ls ls' : List RequestListener) {space : LiveSpace} {unit : String}
    (hsender : (resolve sender s r es ls).live.space = some space)
    (hreceiver : (resolve receiver s r es' ls').live.space = some space)
    (hlive : receiver.liveEnabled) (hunit : receiver.application.location.unit = some unit) :
    ((resolve sender s r es ls).routedUnit? = some unit → (resolve receiver s r es' ls').IsServed) ∧
      ((resolve receiver s r es' ls').service.unitPolicy ≠ .none →
        (resolve receiver s r es' ls').IsServed →
          (resolve receiver s r es' ls').routedUnit? = some unit) := by
  have halike := alike_resolve (hsender.trans hreceiver.symm)
  have hcontext : (resolve receiver s r es' ls').context = receiver := rfl
  have hon : (resolve receiver s r es' ls').isLive := by simp [isLive, hcontext, hlive, hreceiver]
  have hcurrent := fun u => LiveFacts.currentUnit?_eq_some_iff (u := u)
    (show (resolve receiver s r es' ls').live.currentUnitId = some unit from hunit)
  constructor
  · intro hrouted
    obtain ⟨-, hroute⟩ := routedUnit?_eq_some_iff.1 hrouted
    obtain ⟨u, hcode, hadmits⟩ := exists_admits_of_route hroute
    have hadmits := halike.admits hadmits
    exact (isServed_iff hon).2
      (stray?_eq_none_iff.2 ⟨u, (hcurrent u).2 ⟨hadmits.hasUnit, hcode⟩, hadmits⟩)
  · intro hp h
    obtain ⟨u, hu, hadmits⟩ := stray?_eq_none_iff.1 ((isServed_iff hon).1 h)
    rw [← ((hcurrent u).1 hu).2]
    exact routedUnit?_eq_some_iff.2 ⟨hon, unitDecision_of_admits hp hu hadmits⟩

end Invocation

/-! ## A call between two units -/

namespace TwoUnits

/-- Two units, of which the first only serves reads, and a rule that gives each of them half of the
slots. -/
def space : LiveSpace where
  id := "live"
  spec := {
    units := [{ code := "east", accessMode := .read }, { code := "west" }]
    rules := [{ id := "users", modulo := 10, routes := [
      { unit := "east", ranges := [⟨0, 4⟩] }, { unit := "west", ranges := [⟨5, 9⟩] }] }]
    center := some "west" }

/-- The service that is called, in the unit of the user. -/
def service : Service where
  name := "orders"
  bundle := some { live := some { unitPolicy := .unit, rule := some "users" } }

def snapshot : Snapshot := .ofDocument { liveSpaces := [space], services := [service] }

/-- An application in a unit. -/
def context (unit : String) : Context where
  application := { location := { liveSpace := some "live", unit := some unit } }

/-- A read for a user of the first unit. -/
def request : Request where
  service := "orders"
  headers := .ofList [(Header.routingVariable, "3")]

/-- The call as an application in a unit knows it. -/
def call (unit : String) : Invocation := .resolve (context unit) snapshot request [] []

end TwoUnits

open TwoUnits in
/-- The second unit routes the call to the first one, which serves it and would keep it. -/
theorem sender_receiver_agree_east :
    (call "west").routedUnit? = some "east" ∧ (call "east").IsServed ∧
      (call "east").routedUnit? = some "east" := by
  have hspace : ∀ unit, (call unit).live.space = some space := fun _ => rfl
  have hunit : (context "east").application.location.unit = some "east" := rfl
  obtain ⟨hserved, hkept⟩ := Invocation.sender_receiver_agree snapshot request (context "west")
    (context "east") [] [] [] [] (hspace "west") (hspace "east") rfl hunit
  have hrouted : (call "west").routedUnit? = some "east" := by decide +kernel
  have hpolicy : (call "east").service.unitPolicy ≠ .none := by decide
  exact ⟨hrouted, hserved hrouted, hkept hpolicy (hserved hrouted)⟩

end TrafficControl
