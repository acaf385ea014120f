import TrafficControl.Proofs.Routing.Narrowing

/-!
# Lanes fail closed

A call whose target lane exists is routed to the endpoints on this lane. Only where there is none,
another lane may take its place : the default lane of the space, or the lane that the policy names
(`Invocation.substitute?`). Where no lane may, no endpoint is left (`Invocation.FailsClosed`).

There is one exception. A custom fallback that names no lane is taken for the default lane, so that
the call leaves its lane although the policy sends it nowhere (`not_failsClosed`).
`Invocation.failsClosed_iff` says that there is no other.
-/

namespace TrafficControl

namespace Invocation

variable {i : Invocation} {space : LaneSpace} {lane : Lane}

/-! ## The lanes of a call -/

/-- The lane of the target space to which a call is to go : the one that it is redirected to, the
one that it asks for, or the default one. -/
def targetIn? (i : Invocation) (space : LaneSpace) : Option Lane :=
  match i.redirect? with
  | some code => space.lane? code
  | none => space.laneOrDefault? i.lane.targetLaneId

/-- The kind of fallback in effect. Without a lane policy it is the default lane. -/
def fallbackKind (i : Invocation) : LaneFallback :=
  (i.lanePolicy?.map (·.fallback)).getD .defaultLane

/-- The lane that may take the place of the target lane, if one may. -/
def substitute? (i : Invocation) (space : LaneSpace) : Option String :=
  match i.fallbackKind with
  | .defaultLane => space.defaultLane?.map (·.code)
  | .custom => (i.lanePolicy?.bind (·.fallbackLane)).filter (· ≠ "")
  | .none => none

theorem lanePlan_of_targetIn (hspace : i.lane.targetSpace = some space)
    (hlane : i.targetIn? space = some lane) :
    i.lanePlan = (i.laneFallback? space lane).elim (.direct (some lane.code))
      (.fallback lane.code) := by
  have htarget : i.redirect?.elim i.lane.targetLane? space.lane? = some lane := by
    rw [← hlane, targetIn?, LaneFacts.targetLane?, hspace]
    cases i.redirect? <;> rfl
  unfold lanePlan
  rw [hspace]
  cases hredirect : i.redirect? with
  | some code =>
    rw [hredirect, Option.elim_some] at htarget
    simp only [htarget]
    cases i.laneFallback? space lane <;> rfl
  | none =>
    rw [hredirect, Option.elim_none] at htarget
    simp only [htarget]
    cases i.laneFallback? space lane <;> rfl

theorem target_lanePlan (hspace : i.lane.targetSpace = some space)
    (hlane : i.targetIn? space = some lane) : i.lanePlan.target = some lane.code := by
  rw [lanePlan_of_targetIn hspace hlane]
  cases i.laneFallback? space lane <;> rfl

/-- A lane without a name stands for the default lane. -/
theorem isOnLane_of_unnamed {other : Option String} (h : other.filter (· ≠ "") = none) :
    i.isOnLane other = i.isOnLane none := by
  have hdefault : Endpoint.orDefault other i.lane.defaultLaneId =
      Endpoint.orDefault none i.lane.defaultLaneId := by
    rw [Endpoint.orDefault, h]
    rfl
  funext x
  simp only [isOnLane, Endpoint.isLane, hdefault]

/-! ## What is left -/

theorem endpoints_onLanes_of_some
    (h : ∃ y ∈ i.selection.endpoints, i.isOnLane i.lanePlan.target y) :
    i.onLanes.endpoints = i.selection.endpoints.filter (i.isOnLane i.lanePlan.target) := by
  have hne : i.selection.endpoints.filter (i.isOnLane i.lanePlan.target) ≠ [] := by
    obtain ⟨y, hy, hon⟩ := h
    exact List.ne_nil_of_mem (List.mem_filter.2 ⟨hy, hon⟩)
  unfold onLanes
  cases hplan : i.lanePlan with
  | direct lane => simp [Selection.endpoints_filter, LanePlan.target]
  | fallback lane other =>
    rw [hplan, LanePlan.target] at h hne
    have hfound := (Selection.found_pos false).2 h
    simp only [Nat.ne_of_gt hfound, if_false, Selection.endpoints_filter, hne, ne_eq,
      not_false_eq_true, true_or, if_true, LanePlan.target]

/-- The endpoints that are left of those given if none is on the target lane of a plan. -/
def spilled (i : Invocation) (endpoints : List Endpoint) : LanePlan → List Endpoint
  | .direct _ => []
  | .fallback _ other => endpoints.filter (i.isOnLane other)

theorem endpoints_onLanes_of_none
    (h : ∀ y ∈ i.selection.endpoints, ¬i.isOnLane i.lanePlan.target y) :
    i.onLanes.endpoints = i.spilled i.selection.endpoints i.lanePlan := by
  have hnil : i.selection.endpoints.filter (i.isOnLane i.lanePlan.target) = [] :=
    List.filter_eq_nil_iff.2 h
  unfold onLanes
  cases hplan : i.lanePlan with
  | direct lane =>
    rw [hplan, LanePlan.target] at hnil
    simp [Selection.endpoints_filter, hnil, spilled]
  | fallback lane other =>
    rw [hplan, LanePlan.target] at h hnil
    have hfound : (i.selection.filter (i.isOnLane (some lane)) false).1 = 0 := by
      simpa [Selection.filter, Selection.matching] using h
    have hkept : (i.selection.filter (i.isOnLane (some lane)) false).2.endpoints =
        i.selection.endpoints := by
      simp [Selection.endpoints_filter, hnil]
    simp only [hfound, if_true, Selection.endpoints_filter, hkept, spilled]
    simp

/-! ## Failing closed -/

/-- Whether a custom fallback names no lane. -/
def IsUnnamed (i : Invocation) : Prop :=
  i.fallbackKind = .custom ∧ (i.lanePolicy?.bind (·.fallbackLane)).filter (· ≠ "") = none

theorem spilled_of_substitute {endpoints : List Endpoint} {other : String}
    (hspace : i.lane.targetSpace = some space) (hlane : i.targetIn? space = some lane)
    (hnone : ∀ x ∈ endpoints, ¬i.isOnLane (some lane.code) x)
    (h : i.substitute? space = some other) :
    i.spilled endpoints i.lanePlan = endpoints.filter (i.isOnLane (some other)) := by
  have hfallback : i.laneFallback? space lane = some (some other) ∨
      i.laneFallback? space lane = none ∧ other = lane.code := by
    unfold substitute? fallbackKind at h
    cases hkind : (i.lanePolicy?.map (·.fallback)).getD .defaultLane with
    | defaultLane =>
      rw [hkind] at h
      obtain ⟨d, hd, rfl⟩ := Option.map_eq_some_iff.1 h
      by_cases hcode : d.code = lane.code
      · exact .inr ⟨by simp [laneFallback?, hkind, hd, hcode], hcode⟩
      · have hd' : (some d).filter (·.code ≠ lane.code) = some d :=
          Option.filter_some_pos (by simpa)
        exact .inl (by rw [laneFallback?, hkind, hd, hd', Option.map_some])
    | custom =>
      rw [hkind] at h
      obtain ⟨hname, -⟩ := Option.filter_eq_some_iff.1 h
      exact .inl (by simp [laneFallback?, hkind, hname])
    | none =>
      rw [hkind] at h
      exact nomatch h
  rw [lanePlan_of_targetIn hspace hlane]
  rcases hfallback with hother | ⟨hclosed, rfl⟩
  · rw [hother]
    rfl
  · rw [hclosed]
    exact (List.filter_eq_nil_iff.2 hnone).symm

theorem spilled_of_isUnnamed {endpoints : List Endpoint} (hspace : i.lane.targetSpace = some space)
    (hlane : i.targetIn? space = some lane) (h : i.IsUnnamed) :
    i.spilled endpoints i.lanePlan = endpoints.filter (i.isOnLane none) := by
  have hkind : (i.lanePolicy?.map (·.fallback)).getD .defaultLane = .custom := h.1
  have hfallback : i.laneFallback? space lane = some (i.lanePolicy?.bind (·.fallbackLane)) := by
    simp [laneFallback?, hkind]
  rw [lanePlan_of_targetIn hspace hlane, hfallback, ← isOnLane_of_unnamed h.2]
  rfl

theorem spilled_of_not_isUnnamed {endpoints : List Endpoint}
    (hspace : i.lane.targetSpace = some space) (hlane : i.targetIn? space = some lane)
    (hnamed : ¬i.IsUnnamed) (h : i.substitute? space = none) :
    i.spilled endpoints i.lanePlan = [] := by
  have hfallback : i.laneFallback? space lane = none := by
    unfold substitute? fallbackKind at h
    cases hkind : (i.lanePolicy?.map (·.fallback)).getD .defaultLane with
    | defaultLane =>
      rw [hkind] at h
      simp [laneFallback?, hkind, Option.map_eq_none_iff.1 h]
    | custom =>
      rw [hkind] at h
      exact absurd ⟨hkind, h⟩ hnamed
    | none => simp [laneFallback?, hkind]
  rw [lanePlan_of_targetIn hspace hlane, hfallback]
  rfl

/-- Whether those that are left of the endpoints of a call are the ones on its target lane and, if
there is none, the ones on the lane that may take its place. -/
structure FailsClosed (i : Invocation) (space : LaneSpace) (lane : Lane) (left : List Endpoint) :
    Prop where
  onTarget : (∃ x ∈ i.selection.endpoints, i.isOnLane (some lane.code) x) →
    left = i.selection.endpoints.filter (i.isOnLane (some lane.code))
  onSubstitute : (∀ x ∈ i.selection.endpoints, ¬i.isOnLane (some lane.code) x) →
    ∀ other, i.substitute? space = some other →
      left = i.selection.endpoints.filter (i.isOnLane (some other))
  closed : (∀ x ∈ i.selection.endpoints, ¬i.isOnLane (some lane.code) x) →
    i.substitute? space = none → left = []

/-- A call whose target lane exists fails closed, unless its custom fallback names no lane and finds
endpoints on the default lane in place of the target lane. -/
theorem failsClosed_iff {σ : Type} (s : σ) (hlanes : i.context.laneEnabled)
    (hspace : i.lane.targetSpace = some space) (hlane : i.targetIn? space = some lane) :
    i.FailsClosed space lane (Filter.lane.apply s i).2.2.selection.endpoints ↔
      (i.IsUnnamed → (∀ x ∈ i.selection.endpoints, ¬i.isOnLane (some lane.code) x) →
        ∀ x ∈ i.selection.endpoints, ¬i.isOnLane none x) := by
  have hleft : (Filter.lane.apply s i).2.2.selection.endpoints = i.onLanes.endpoints := by
    rw [apply_lane, selection_withSelection, atLane, if_pos hlanes]
  have htarget := target_lanePlan hspace hlane
  have hspilled : (∀ x ∈ i.selection.endpoints, ¬i.isOnLane (some lane.code) x) →
      i.onLanes.endpoints = i.spilled i.selection.endpoints i.lanePlan := by
    rw [← htarget]
    exact endpoints_onLanes_of_none
  rw [hleft]
  constructor
  · intro h hunnamed hnone
    have hsubstitute : i.substitute? space = none := by
      rw [substitute?, hunnamed.1]
      exact hunnamed.2
    rw [← List.filter_eq_nil_iff, ← spilled_of_isUnnamed hspace hlane hunnamed, ← hspilled hnone]
    exact h.closed hnone hsubstitute
  · intro h
    refine ⟨fun hsome => ?_, fun hnone other hother => ?_, fun hnone hsubstitute => ?_⟩
    · rw [← htarget] at hsome ⊢
      exact endpoints_onLanes_of_some hsome
    · rw [hspilled hnone]
      exact spilled_of_substitute hspace hlane hnone hother
    · rw [hspilled hnone]
      by_cases hunnamed : i.IsUnnamed
      · rw [spilled_of_isUnnamed hspace hlane hunnamed]
        exact List.filter_eq_nil_iff.2 (h hunnamed hnone)
      · exact spilled_of_not_isUnnamed hspace hlane hunnamed hsubstitute

end Invocation

/-! ## Fallbacks with and without a name -/

namespace GrayLane

/-- Three lanes, the first of them the default one. -/
def lanes : LaneSpace where
  id := "lanes"
  isDefault := true
  lanes := [{ code := "base", isDefault := true }, { code := "gray" }, { code := "blue" }]

/-- A call in the second lane of a service with a custom fallback. No endpoint is on this lane. -/
def call (fallbackLane : Option String) : Invocation :=
  let bundle : Bundle := { lanes := [{ space := "lanes", fallback := .custom, fallbackLane }] }
  .resolve {} (.ofDocument
      { laneSpaces := [lanes], services := [{ name := "orders", bundle := some bundle }] })
    { service := "orders", headers := .ofList [(Header.lane, "gray")] }
    [{ id := "a" }, { id := "b", lane := some "blue" }] []

end GrayLane

open GrayLane in
/-- A fallback without a name sends the call to the endpoint on the default lane. -/
theorem not_failsClosed :
    (call none).context.laneEnabled ∧ (call none).lane.targetSpace = some lanes ∧
      (call none).targetIn? lanes = some { code := "gray" } ∧
      ¬(call none).FailsClosed lanes { code := "gray" }
        (Filter.lane.apply () (call none)).2.2.selection.endpoints := by
  refine ⟨rfl, rfl, rfl, fun h => ?_⟩
  have hleft : (Filter.lane.apply () (call none)).2.2.selection.endpoints = [{ id := "a" }] := by
    decide +kernel
  rw [hleft] at h
  exact absurd (h.closed (by decide +kernel) (by decide +kernel)) (by decide)

open GrayLane in
/-- A fallback with a name sends it to the endpoint on the lane of this name. -/
theorem failsClosed_blue :
    (call (some "blue")).FailsClosed lanes { code := "gray" }
      [{ id := "b", lane := some "blue" }] := by
  have hleft : (Filter.lane.apply () (call (some "blue"))).2.2.selection.endpoints =
      [{ id := "b", lane := some "blue" }] := by
    decide +kernel
  rw [← hleft]
  refine (Invocation.failsClosed_iff () rfl rfl rfl).2 fun hunnamed => ?_
  exact absurd hunnamed.2 (by decide +kernel)

end TrafficControl
