import TrafficControl.Proofs.Routing.Agreement
import TrafficControl.Proofs.Routing.Preference

/-!
# What is known of a chosen endpoint

Each filter establishes something of the endpoints that it leaves, and no later filter brings an
endpoint back : the lists only get shorter, in their order (`Invocation.sublist_narrowed`,
`Engine.narrowed_of_route`). So everything that the filters demand holds of the endpoint that is
chosen in the end (`Engine.IsSoundChoice`, `Engine.isSoundChoice_of_route`).
-/

namespace TrafficControl

/-! ## What the filters establish -/

namespace LanePlan

/-- The lanes of a plan. -/
def lanes : LanePlan → List (Option String)
  | direct lane => [lane]
  | fallback lane other => [some lane, other]

end LanePlan

namespace Invocation

variable {i : Invocation} {x : Endpoint}

theorem isOnLane_of_mem_onLanes (h : x ∈ i.onLanes.endpoints) :
    ∃ lane ∈ i.lanePlan.lanes, i.isOnLane lane x := by
  unfold onLanes at h
  split at h
  · next lane hplan =>
    exact ⟨lane, by simp [hplan, LanePlan.lanes], (Selection.mem_filter_hard.1 h).2⟩
  · next lane other hplan =>
    dsimp only at h
    split at h
    · exact ⟨other, by simp [hplan, LanePlan.lanes], (Selection.mem_filter_hard.1 h).2⟩
    · next hfound =>
      have hsome := (Selection.found_pos false).1 (Nat.pos_of_ne_zero hfound)
      exact ⟨some lane, by simp [hplan, LanePlan.lanes], (Selection.mem_filter_soft.1 h).2 hsome⟩

theorem isOnLane_of_mem_narrowed (hx : x ∈ i.narrowed.selection.endpoints)
    (h : i.context.laneEnabled) : ∃ lane ∈ i.lanePlan.lanes, i.isOnLane lane x := by
  have hlane : x ∈ ((i.withSelection i.atHealthy).withSelection
      (i.withSelection i.atHealthy).atUnit).onLanes.endpoints := by
    simpa [narrowed, atLane, withSelection, h] using hx
  -- The plan does not look at the endpoints, so it is the same for those that are left.
  obtain ⟨lane, hmem, hon⟩ := isOnLane_of_mem_onLanes hlane
  exact ⟨lane, hmem, hon⟩

theorem isUnit_of_mem_narrowed {unit : String} (hx : x ∈ i.narrowed.selection.endpoints)
    (h : i.routedUnit? = some unit) : x.isUnit unit := by
  have hunit : x ∈ (i.withSelection i.atHealthy).atUnit.endpoints :=
    (sublist_atLane _).subset hx
  have hrouted : (i.withSelection i.atHealthy).routedUnit? = some unit := h
  simp only [atUnit, hrouted] at hunit
  exact (Selection.mem_keepUnit.1 hunit).2.1

theorem healthy_of_mem_narrowed (hx : x ∈ i.narrowed.selection.endpoints)
    (h : ∃ y ∈ i.selection.endpoints, y.healthy) : x.healthy := by
  have hhealthy : x ∈ i.atHealthy.endpoints :=
    ((sublist_atLane _).trans (sublist_atUnit _)).subset hx
  exact ((mem_atHealthy h).1 hhealthy).2

end Invocation

/-! ## The chosen endpoint -/

namespace Engine

variable {e e' : Engine} {i i' : Invocation} {now draw : Nat} {c : Choice}

/-- A call that its unit refuses is not routed. -/
theorem run_outboundFilters_of_isRefused (e : Engine) (now draw : Nat) (turns : RoundRobin)
    (h : i.IsRefused) :
    ∃ f i', Filter.run (e.outboundFilters now draw) turns i = (some f, turns, i') := by
  obtain ⟨hlive, why, hrefuse⟩ := h
  have hhealthy : Filter.healthy.apply turns i =
      (.proceed, turns, i.withSelection i.atHealthy) := rfl
  have hlive' : (i.withSelection i.atHealthy).isLive := hlive
  have hrefuse' : (i.withSelection i.atHealthy).unitDecision = .refuse why := hrefuse
  have hunit : ∃ f i', Filter.unit.apply turns (i.withSelection i.atHealthy) =
      (.fault f, turns, i') := by
    simp [Filter.unit, Filter.ofInvocation, hlive', hrefuse', Verdict.ofFault]
  obtain ⟨f, i', hunit⟩ := hunit
  refine ⟨f, i', ?_⟩
  rw [outboundFilters]
  simp only [List.cons_append, Filter.run_proceed hhealthy, Filter.run_fault hunit]

/-- A call that is routed has gone through all filters. -/
theorem exists_run_of_route (h : e.route i now draw = (.ok c, e', i')) :
    ∃ turns, Filter.run (e.outboundFilters now draw) e.turns i = (none, turns, i') ∧
      i'.selection.choice = some c := by
  unfold route at h
  obtain ⟨fault, turns, j, hrun⟩ :
      ∃ f t j, Filter.run (e.outboundFilters now draw) e.turns i = (f, t, j) := ⟨_, _, _, rfl⟩
  rw [hrun] at h ⊢
  cases fault with
  | some f => simp at h
  | none =>
    cases hchoice : j.selection.choice with
    | none => simp [hchoice] at h
    | some d =>
      simp only [hchoice, Prod.mk.injEq, Except.ok.injEq] at h
      obtain ⟨rfl, -, rfl⟩ := h
      exact ⟨turns, rfl, hchoice⟩

theorem narrowed_of_route (h : e.route i now draw = (.ok c, e', i')) :
    ¬i.IsRefused ∧ i'.selection.endpoints[c.index]? = some c.endpoint ∧
      i'.selection.endpoints.Sublist i.narrowed.selection.endpoints ∧
      e.LetsThrough i now c.endpoint := by
  obtain ⟨turns, hrun, hchoice⟩ := exists_run_of_route h
  have hunit : ¬i.IsRefused := by
    intro hrefused
    obtain ⟨f, j, hfault⟩ := e.run_outboundFilters_of_isRefused now draw e.turns hrefused
    simp [hfault] at hrun
  rw [e.run_outboundFilters now draw e.turns hunit] at hrun
  by_cases hlets : ∃ y ∈ i.narrowed.selection.endpoints, e.LetsThrough i.narrowed now y
  · obtain ⟨turns', j, d, hrun', hchoice', hget, hsub, hthrough⟩ :=
      e.run_lastFilters draw e.turns hlets
    obtain ⟨-, rfl⟩ := Prod.mk.inj (Prod.mk.inj (hrun'.symm.trans hrun)).2
    obtain rfl := Option.some.inj (hchoice'.symm.trans hchoice)
    exact ⟨hunit, hget, hsub, hthrough⟩
  · have hnone : ∀ y ∈ i.narrowed.selection.endpoints, ¬e.LetsThrough i.narrowed now y :=
      fun y hy hthrough => hlets ⟨y, hy, hthrough⟩
    obtain ⟨f, turns', j, hfault⟩ := e.run_lastFilters_of_none draw e.turns hnone
    simp [hfault] at hrun

end Engine

/-! ## The unit of the call -/

namespace Invocation

variable {i : Invocation} {u : LiveUnit} {code : String}

theorem toUnit_ne_any : i.toUnit u ≠ .any := by
  unfold toUnit
  split <;> simp

theorem toCenter_ne_any : i.toCenter ≠ .any := by
  unfold toCenter
  split
  · exact toUnit_ne_any
  · simp

theorem toLocal_ne_any : i.toLocal ≠ .any := by
  unfold toLocal
  split
  · split
    · simp
    · exact toCenter_ne_any
  · simp

theorem toOwner_ne_any {rule : UnitRule} : i.toOwner rule ≠ .any := by
  unfold toOwner
  split
  · split
    · exact toUnit_ne_any
    · simp
  · split
    · exact toCenter_ne_any
    · simp

/-- A call is left to any unit only where its service is not routed by units. -/
theorem unitDecision_ne_any (h : i.service.unitPolicy ≠ .none) : i.unitDecision ≠ .any := by
  unfold unitDecision
  split
  · next hnone => exact absurd hnone h
  · exact toCenter_ne_any
  · exact toLocal_ne_any
  · split
    · exact toOwner_ne_any
    · exact toLocal_ne_any

/-- A call that is routed by units and not refused goes to one of them. -/
theorem exists_route_of_not_isRefused (hlive : i.isLive) (hp : i.service.unitPolicy ≠ .none)
    (h : ¬i.IsRefused) : ∃ code, i.unitDecision = .route code := by
  cases hd : i.unitDecision with
  | any => exact absurd hd (unitDecision_ne_any hp)
  | route code => exact ⟨code, rfl⟩
  | refuse why => exact absurd ⟨hlive, why, hd⟩ h

theorem targetUnitId_of_toOwner {rule : UnitRule} (hvar : i.live.routingVariable?.isSome)
    (h : i.toOwner rule = .route code) : i.live.targetUnitId = some code := by
  unfold toOwner at h
  rw [if_pos hvar] at h
  cases ht : i.live.targetUnit? with
  | none => simp [ht] at h
  | some t =>
    simp only [ht] at h
    obtain ⟨-, rfl⟩ := toUnit_eq_route_iff.1 h
    exact LiveFacts.code_of_unit? ht

theorem isAccessible_iff {mode : AccessMode} : i.isAccessible (some mode) ↔
    mode = .readWrite ∨ mode = .read ∧ ¬i.service.isWrite := by
  cases mode <;> simp [isAccessible, AccessMode.serves]

variable {context : Context} {s : Snapshot} {r : Request} {es : List Endpoint}
  {ls : List RequestListener}

/-- The target unit of a call is that of the route that owns its variable under its rule. -/
theorem targetUnitId_resolve (hi : i = .resolve context s r es ls) {rule : UnitRule} {text : String}
    (hrule : i.live.rule? = some rule) (htext : i.live.routingVariable? = some text) :
    i.live.targetUnitId = (rule.route? text).map (·.unit) := by
  have hroute : i.live.targetUnitId =
      (i.live.rule?.bind fun rule => i.live.routingVariable?.bind rule.route?).map (·.unit) := by
    subst hi
    rfl
  rw [hroute, hrule, htext]
  rfl

end Invocation

/-! ## What a choice keeps of all demands -/

namespace Engine

/-- What holds of a choice from the endpoints that the filters have left for a call. -/
structure IsSoundChoice (e : Engine) (i : Invocation) (now : Nat) (left : List Endpoint)
    (c : Choice) : Prop where
  /-- No endpoint is added, and the order stays. -/
  sublist : left.Sublist i.selection.endpoints
  getElem? : left[c.index]? = some c.endpoint
  healthy : (∃ y ∈ i.selection.endpoints, y.healthy) → c.endpoint.healthy
  /-- It is in the unit that was decided on, which exists and serves the request. -/
  inUnit : i.isLive → i.service.unitPolicy ≠ .none →
    ∃ u, i.unitDecision = .route u.code ∧ c.endpoint.unit = some u.code ∧
      i.live.unit? (some u.code) = some u ∧
      (u.accessMode = .readWrite ∨ u.accessMode = .read ∧ ¬i.service.isWrite)
  /-- It is in the unit to which the rule assigns the variable. -/
  atOwner : i.isLive → i.service.unitPolicy = .unit →
    ∀ rule text, i.live.rule? = some rule → i.live.routingVariable? = some text →
      ∃ route, rule.route? text = some route ∧ c.endpoint.unit = some route.unit
  /-- It is on the lane that was planned, or on the one that takes its place. -/
  onLane : i.context.laneEnabled → ∃ lane ∈ i.lanePlan.lanes, i.isOnLane lane c.endpoint
  /-- All its breakers would let the call through. -/
  available : e.settings.breakers.enabled → ∀ p ∈ i.breaksAt .endpoint, ∀ b,
    e.breakers.find? (instanceUri i.service.name p.name c.endpoint.id) = some b → b.isAvailable now

variable {e : Engine} {now draw : Nat} {c : Choice} {context : Context} {s : Snapshot} {r : Request}
  {es : List Endpoint} {ls : List RequestListener}

/-- If a call is routed, the choice is sound for the endpoints that are left. -/
theorem isSoundChoice_of_route
    (h : (e.route (.resolve context s r es ls) now draw).1 = .ok c) :
    e.IsSoundChoice (.resolve context s r es ls) now
      (e.route (.resolve context s r es ls) now draw).2.2.selection.endpoints c := by
  generalize hi : Invocation.resolve context s r es ls = i at h
  obtain ⟨hunit, hget, hsub, hlets⟩ := narrowed_of_route (Prod.ext h rfl)
  have hmem := hsub.subset (List.mem_of_getElem? hget)
  have hcode : ∀ code, i.isLive → i.unitDecision = .route code → c.endpoint.unit = some code :=
    fun code hlive hroute => by
      have hrouted := Invocation.routedUnit?_eq_some_iff.2 ⟨hlive, hroute⟩
      simpa [Endpoint.isUnit] using Invocation.isUnit_of_mem_narrowed hmem hrouted
  refine ⟨hsub.trans i.sublist_narrowed, hget, Invocation.healthy_of_mem_narrowed hmem, ?_, ?_,
    Invocation.isOnLane_of_mem_narrowed hmem, ?_⟩
  · intro hlive hp
    obtain ⟨code, hroute⟩ := Invocation.exists_route_of_not_isRefused hlive hp hunit
    obtain ⟨u, rfl, hadmits⟩ := Invocation.exists_admits_of_route hroute
    exact ⟨u, hroute, hcode _ hlive hroute, hadmits.hasUnit,
      Invocation.isAccessible_iff.1 hadmits.serves⟩
  · intro hlive hp rule text hrule htext
    obtain ⟨code, hroute⟩ :=
      Invocation.exists_route_of_not_isRefused hlive (by simp [hp]) hunit
    have howner : i.toOwner rule = .route code := by
      simpa only [Invocation.unitDecision, hp, hrule] using hroute
    have htarget := Invocation.targetUnitId_of_toOwner (by simp [htext]) howner
    rw [Invocation.targetUnitId_resolve hi.symm hrule htext] at htarget
    obtain ⟨route, hr, rfl⟩ := Option.map_eq_some_iff.1 htarget
    exact ⟨route, hr, hcode _ hlive hroute⟩
  · intro hon p hp b hb
    have hall := List.all_eq_true.1 (hlets hon) p hp
    simpa [BreakerRegistry.isAvailable, hb] using hall

end Engine

/-! ## A call with a unit, a lane and breakers -/

namespace TwoUnits

/-- The policy of the breakers of instances. -/
def breakPolicy : BreakPolicy := { name := "errors", level := .endpoint }

/-- The service that is called, behind breakers. -/
def guardedService : Service where
  name := "orders"
  bundle := some {
    live := some { unitPolicy := .unit, rule := some "users" }, breaks := [breakPolicy] }

/-- A lane space whose default lane may take the place of the other one. -/
def lanes : LaneSpace where
  id := "lanes"
  isDefault := true
  lanes := [{ code := "base", isDefault := true }, { code := "gray" }]

/-- The endpoints of the service. Only the last two are healthy and in the first unit. -/
def endpoints : List Endpoint := [
  { id := "a", unit := some "west" }, { id := "b", unit := some "east", healthy := false },
  { id := "c", unit := some "east" }, { id := "d", unit := some "east" }]

/-- A breaker of the third endpoint, opened and not due, and a closed one of the last. -/
def breakers : BreakerRegistry :=
  let uri := instanceUri "orders" "errors"
  let opened : Breaker :=
    { Breaker.create (uri "c") breakPolicy 0 with state := .opened, retryAt := 9 }
  { entries := .ofList [(uri "c", ⟨"orders", 0⟩), (uri "d", ⟨"orders", 1⟩)]
    breakers := [⟨opened, 0⟩, ⟨.create (uri "d") breakPolicy 0, 0⟩] }

/-- An application in the second unit. -/
def engine : Engine where
  settings := {}
  context := context "west"
  store := .start (.ofDocument
    { liveSpaces := [space], laneSpaces := [lanes], services := [guardedService] })
  balancing := .roundRobin
  breakers := breakers

/-- A read on the other lane for a user of the first unit. -/
def grayRequest : Request where
  service := "orders"
  headers := .ofList [(Header.routingVariable, "3"), (Header.lane, "gray")]

end TwoUnits

open TwoUnits in
/-- The call goes to the last endpoint, the only one left : it is in the unit of the user, on the
default lane, and its breaker is closed. -/
theorem isSoundChoice_last :
    engine.IsSoundChoice (engine.invocation grayRequest endpoints) 0 [endpoints[3]]
      ⟨endpoints[3], 0⟩ := by
  have hroute : (engine.route (engine.invocation grayRequest endpoints) 0 0).1 =
      .ok ⟨endpoints[3], 0⟩ := rfl
  have hleft : (engine.route (engine.invocation grayRequest endpoints) 0
      0).2.2.selection.endpoints = [endpoints[3]] := by decide +kernel
  have hsound := Engine.isSoundChoice_of_route hroute
  rwa [← hleft]

end TrafficControl
