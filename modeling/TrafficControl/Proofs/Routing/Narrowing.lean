import Mathlib.Tactic.ByContra
import Mathlib.Tactic.Set
import TrafficControl.Engine.Basic

/-!
# What filters leave

Every filter of a call to be sent narrows the selection. A hard filter keeps the endpoints that
satisfy it (`Selection.mem_filter_hard`), a soft one does so only where there are some
(`Selection.mem_filter_soft`). From these two follows what each filter leaves : the endpoints of a
unit (`Selection.mem_keepUnit`), those of a lane (`Invocation.mem_onLanes`), and those whose
breakers let the call through (`Engine.run_lastFilters`), of which one is chosen. No filter brings
an endpoint back or changes the order (`Invocation.sublist_narrowed`).
-/

namespace TrafficControl

namespace Selection

variable {s : Selection} {p : Endpoint → Bool} {x : Endpoint}

theorem endpoints_filter (s : Selection) (p : Endpoint → Bool) (nullable : Bool) :
    (s.filter p nullable).2.endpoints =
      if s.endpoints.filter p ≠ [] ∨ nullable then s.endpoints.filter p else s.endpoints := by
  simp only [filter, matching]
  exact apply_ite Selection.endpoints _ _ _

theorem sublist_filter (s : Selection) (p : Endpoint → Bool) (nullable : Bool) :
    (s.filter p nullable).2.endpoints.Sublist s.endpoints := by
  rw [endpoints_filter]
  split
  · exact List.filter_sublist
  · exact .refl _

theorem mem_filter_hard : x ∈ (s.filter p true).2.endpoints ↔ x ∈ s.endpoints ∧ p x := by
  simp [endpoints_filter]

theorem found_pos (nullable : Bool) :
    0 < (s.filter p nullable).1 ↔ ∃ y ∈ s.endpoints, p y := by
  simp [filter, matching, List.length_pos_iff_exists_mem]

theorem mem_filter_soft :
    x ∈ (s.filter p false).2.endpoints ↔
      x ∈ s.endpoints ∧ ((∃ y ∈ s.endpoints, p y) → p x) := by
  rw [endpoints_filter]
  by_cases h : ∃ y ∈ s.endpoints, p y
  · have hne : s.endpoints.filter p ≠ [] := by
      obtain ⟨y, hy, hp⟩ := h
      exact List.ne_nil_of_mem (List.mem_filter.2 ⟨hy, hp⟩)
    simp [hne, h]
  · have hnil : s.endpoints.filter p = [] := by simpa using h
    simp [hnil, h]

theorem sublist_preferCell (s : Selection) (cell : String) :
    (s.preferCell cell).endpoints.Sublist s.endpoints := by
  have hfilter := s.sublist_filter (·.isCell cell) false
  unfold preferCell
  dsimp only
  split <;> exact hfilter

theorem sublist_keepUnit (s : Selection) (unit : String) (cell : Option String) :
    (s.keepUnit unit cell).endpoints.Sublist s.endpoints := by
  have hfilter := s.sublist_filter (·.isUnit unit) true
  cases cell with
  | none => exact hfilter
  | some c => exact (sublist_preferCell _ c).trans hfilter

theorem mem_preferCell {cell : String} :
    x ∈ (s.preferCell cell).endpoints ↔
      x ∈ s.endpoints ∧ ((∃ y ∈ s.endpoints, y.isCell cell) → x.isCell cell) := by
  rw [← mem_filter_soft (p := (·.isCell cell)), preferCell]
  dsimp only
  split <;> rfl

/-- Of the endpoints of the unit, those of the cell are kept alone if there are some. -/
theorem mem_keepUnit {unit : String} {cell : Option String} :
    x ∈ (s.keepUnit unit cell).endpoints ↔
      x ∈ s.endpoints ∧ x.isUnit unit ∧ ∀ c, cell = some c →
        (∃ y ∈ s.endpoints, y.isUnit unit ∧ y.isCell c) → x.isCell c := by
  cases cell with
  | none => simp [keepUnit, mem_filter_hard]
  | some c =>
    simp only [keepUnit, mem_preferCell, mem_filter_hard, Option.some.injEq, forall_eq', and_assoc]

end Selection

namespace LanePlan

/-- The lane that is tried first. -/
def target : LanePlan → Option String
  | direct lane => lane
  | fallback lane _ => some lane

end LanePlan

namespace Invocation

/-- The call with another selection. -/
def withSelection (i : Invocation) (s : Selection) : Invocation := { i with selection := s }

@[simp] theorem selection_withSelection (i : Invocation) (s : Selection) :
    (i.withSelection s).selection = s := rfl

variable {i : Invocation} {x : Endpoint}

theorem sublist_onLanes (i : Invocation) : i.onLanes.endpoints.Sublist i.selection.endpoints := by
  unfold onLanes
  split
  · exact Selection.sublist_filter ..
  · dsimp only
    split
    · exact (Selection.sublist_filter ..).trans (Selection.sublist_filter ..)
    · exact Selection.sublist_filter ..

/-- If some endpoint is on the target lane, those on it are left and no others. -/
theorem mem_onLanes (h : ∃ y ∈ i.selection.endpoints, i.isOnLane i.lanePlan.target y) :
    x ∈ i.onLanes.endpoints ↔
      x ∈ i.selection.endpoints ∧ i.isOnLane i.lanePlan.target x := by
  unfold onLanes
  cases hplan : i.lanePlan with
  | direct lane => exact Selection.mem_filter_hard
  | fallback lane other =>
    simp only [hplan, LanePlan.target] at h ⊢
    have hfound := (Selection.found_pos false).2 h
    rw [if_neg (by omega), Selection.mem_filter_soft]
    exact and_congr_right fun _ => ⟨fun hx => hx h, fun hx _ => hx⟩

end Invocation

/-! ## Choice -/

namespace Balancing

theorem total_cons (w : Nat) (ws : List Nat) : total (w :: ws) = w + total ws := rfl

/-- The walk along the weights ends at one of them, for every point below their sum. -/
theorem exists_walk {weights : List Nat} {point : Nat} (h : point < total weights) :
    ∃ k < weights.length, walk weights point = some k := by
  induction weights generalizing point with
  | nil => simp [total] at h
  | cons w ws ih =>
    rw [total_cons] at h
    by_cases hw : point < w
    · exact ⟨0, by simp, by simp [walk, hw]⟩
    · have hrest : point - w < total ws := by omega
      obtain ⟨k, hk, hwalk⟩ := ih hrest
      exact ⟨k + 1, by simpa using hk, by simp [walk, hw, hwalk]⟩

/-- Where there is an endpoint, every way to choose chooses one. -/
theorem exists_choose (b : Balancing) (r : RoundRobin) (key : String) {weights : List Nat}
    (draw : Nat) (h : weights ≠ []) :
    ∃ k < weights.length, (b.choose r key weights draw).1 = some k := by
  have hpos : 0 < weights.length := List.length_pos_iff.2 h
  cases b with
  | roundRobin =>
    refine ⟨_, Nat.mod_lt (r.count key).toNat hpos, ?_⟩
    simp [choose, RoundRobin.choose, h]
  | random =>
    refine ⟨_, Nat.mod_lt draw hpos, ?_⟩
    simp [choose, chooseEvenly, h]
  | weightedRandom =>
    by_cases htotal : total weights = 0
    · refine ⟨_, Nat.mod_lt draw hpos, ?_⟩
      simp [choose, chooseWeighted, chooseEvenly, htotal, h]
    · obtain ⟨k, hk, hwalk⟩ := exists_walk (Nat.mod_lt draw (Nat.pos_of_ne_zero htotal))
      exact ⟨k, hk, by simpa [choose, chooseWeighted, htotal] using hwalk⟩

end Balancing

namespace Filter

variable {σ : Type}

theorem run_proceed {f : Filter σ} {fs : List (Filter σ)} {s s' : σ} {i i' : Invocation}
    (h : f.apply s i = (.proceed, s', i')) : run (f :: fs) s i = run fs s' i' := by
  simp [run, h]

theorem run_fault {f : Filter σ} {fs : List (Filter σ)} {s s' : σ} {i i' : Invocation} {e : Fault}
    (h : f.apply s i = (.fault e, s', i')) : run (f :: fs) s i = (some e, s', i') := by
  simp [run, h]

end Filter

/-! ## Breakers and choice together -/

namespace Filter

variable {i : Invocation}

theorem run_balance (b : Balancing) (draw : Nat) (turns : RoundRobin)
    (h : i.selection.endpoints ≠ []) :
    ∃ turns' c, run [.balance b draw] turns i =
        (none, turns', i.withSelection { i.selection with choice := some c }) ∧
      i.selection.endpoints[c.index]? = some c.endpoint := by
  have hw : i.selection.endpoints.map (·.weight.toNat) ≠ [] := by simpa using h
  obtain ⟨k, hk, hchoose⟩ := (i.balancing b).exists_choose turns i.service.name draw hw
  rw [List.length_map] at hk
  have happly : (balance b draw).apply turns i = (.proceed,
      ((i.balancing b).choose turns i.service.name
        (i.selection.endpoints.map (·.weight.toNat)) draw).2,
      i.withSelection { i.selection with choice := some ⟨i.selection.endpoints[k], k⟩ }) := by
    simp [balance, h, hchoose, Selection.choose, List.getElem?_eq_getElem hk,
      Invocation.withSelection]
  exact ⟨_, ⟨i.selection.endpoints[k], k⟩, run_proceed happly, List.getElem?_eq_getElem hk⟩

theorem run_balance_of_nil (b : Balancing) (draw : Nat) (turns : RoundRobin)
    (h : i.selection.endpoints = []) :
    ∃ f turns' i', run [.balance b draw] turns i = (some f, turns', i') := by
  have happly : (balance b draw).apply turns i =
      (.fault i.refuseUnready.1, turns, i.refuseUnready.2) := by
    simp [balance, h, Verdict.ofFault]
  exact ⟨_, _, _, run_fault happly⟩

variable {σ : Type} {breakers : BreakerRegistry} {now : Nat}

/-- If the breakers of some endpoint let the call through, these endpoints are left. -/
theorem apply_breaker (s : σ) (h : ∃ y ∈ i.selection.endpoints,
      breakers.lets now i.service.name (i.breaksAt .endpoint) y) :
    (Filter.breaker breakers now).apply s i =
      (.proceed, s, i.withSelection (i.selection.filter
        (breakers.lets now i.service.name (i.breaksAt .endpoint)) true).2) := by
  by_cases hp : i.breaksAt .endpoint = []
  · have hlets : breakers.lets now i.service.name [] = fun _ => true := rfl
    have hall : (i.selection.filter (fun _ => true) true).2 = i.selection := by
      have hkeep : i.selection.matching (fun _ => true) none = i.selection.endpoints :=
        List.filter_eq_self.2 fun _ _ => rfl
      rw [Selection.filter, hkeep]
      exact ite_self _
    rw [hp, hlets, hall]
    simp [breaker, ofInvocation, hp, Invocation.withSelection]
  · have hne : i.selection.endpoints ≠ [] := by
      obtain ⟨y, hy, -⟩ := h
      exact List.ne_nil_of_mem hy
    have hpos := (Selection.found_pos true).2 h
    simp only [breaker, ofInvocation, hp, hne, or_self, if_false, hpos, if_true,
      Invocation.withSelection]

/-- If the breakers of all endpoints refuse the call, it ends. -/
theorem apply_breaker_of_none (s : σ) (hne : i.selection.endpoints ≠ [])
    (h : ∀ y ∈ i.selection.endpoints,
      ¬breakers.lets now i.service.name (i.breaksAt .endpoint) y) :
    ∃ f i', (Filter.breaker breakers now).apply s i = (.fault f, s, i') := by
  have hp : i.breaksAt .endpoint ≠ [] := by
    intro hp
    obtain ⟨y, hy⟩ := List.exists_mem_of_ne_nil _ hne
    exact h y hy (by simp [hp, BreakerRegistry.lets])
  have hpos : ¬0 < (i.selection.filter
      (breakers.lets now i.service.name (i.breaksAt .endpoint)) true).1 := by
    rw [Selection.found_pos]
    rintro ⟨y, hy, hlets⟩
    exact h y hy hlets
  simp [breaker, ofInvocation, hp, hne, hpos, Verdict.ofFault]

end Filter

namespace Engine

/-- Whether the breakers of an endpoint let the call through, if breakers are in use. -/
def LetsThrough (e : Engine) (i : Invocation) (now : Nat) (x : Endpoint) : Prop :=
  e.settings.breakers.enabled →
    e.breakers.lets now i.service.name (i.breaksAt .endpoint) x

variable {e : Engine} {i : Invocation} {now : Nat}

/-- The filters that come after those for health, units and lanes. -/
def lastFilters (e : Engine) (now draw : Nat) : List (Filter RoundRobin) :=
  (if e.settings.breakers.enabled then [.breaker e.breakers now] else []) ++
    [.balance e.balancing draw]

/-- An endpoint whose breakers let the call through is chosen, if there is one. No endpoint comes
back. -/
theorem run_lastFilters (draw : Nat) (turns : RoundRobin)
    (h : ∃ y ∈ i.selection.endpoints, e.LetsThrough i now y) :
    ∃ turns' i' c, Filter.run (e.lastFilters now draw) turns i = (none, turns', i') ∧
      i'.selection.choice = some c ∧ i'.selection.endpoints[c.index]? = some c.endpoint ∧
      i'.selection.endpoints.Sublist i.selection.endpoints ∧ e.LetsThrough i now c.endpoint := by
  obtain ⟨y, hy, hlets⟩ := h
  by_cases hon : e.settings.breakers.enabled
  · set left := (i.selection.filter
      (e.breakers.lets now i.service.name (i.breaksAt .endpoint)) true).2
    have hguard : Filter.run (e.lastFilters now draw) turns i =
        Filter.run [.balance e.balancing draw] turns (i.withSelection left) := by
      rw [lastFilters, if_pos hon, List.singleton_append,
        Filter.run_proceed (Filter.apply_breaker turns ⟨y, hy, hlets hon⟩)]
    have hy' : y ∈ left.endpoints := Selection.mem_filter_hard.2 ⟨hy, hlets hon⟩
    obtain ⟨turns', c, hrun, hc⟩ := Filter.run_balance e.balancing draw turns
      (i := i.withSelection left) (List.ne_nil_of_mem hy')
    have hclets := (Selection.mem_filter_hard.1 (List.mem_of_getElem? hc)).2
    exact ⟨turns', _, c, hguard.trans hrun, rfl, hc, i.selection.sublist_filter .., fun _ => hclets⟩
  · simp only [lastFilters, hon, Bool.false_eq_true, if_false, List.nil_append]
    obtain ⟨turns', c, hrun, hc⟩ :=
      Filter.run_balance e.balancing draw turns (List.ne_nil_of_mem hy)
    exact ⟨turns', _, c, hrun, rfl, hc, .refl _, fun h => absurd h hon⟩

/-- If the breakers of all endpoints refuse the call, or there is no endpoint, it ends. -/
theorem run_lastFilters_of_none (draw : Nat) (turns : RoundRobin)
    (h : ∀ y ∈ i.selection.endpoints, ¬e.LetsThrough i now y) :
    ∃ f turns' i', Filter.run (e.lastFilters now draw) turns i = (some f, turns', i') := by
  by_cases hne : i.selection.endpoints = []
  · have hbalance := Filter.run_balance_of_nil e.balancing draw turns hne
    by_cases hon : e.settings.breakers.enabled
    · simp only [lastFilters, hon, if_true, List.singleton_append]
      have happly : (Filter.breaker e.breakers now).apply turns i = (.proceed, turns, i) := by
        simp [Filter.breaker, Filter.ofInvocation, hne]
      rwa [Filter.run_proceed happly]
    · simpa [lastFilters, hon] using hbalance
  · have hon : e.settings.breakers.enabled := by
      obtain ⟨y, hy⟩ := List.exists_mem_of_ne_nil _ hne
      by_contra hon
      exact h y hy fun hon' => absurd hon' hon
    obtain ⟨f, i', happly⟩ := Filter.apply_breaker_of_none turns hne
      fun y hy hlets => h y hy fun _ => hlets
    simp only [lastFilters, hon, if_true, List.singleton_append, Filter.run_fault happly]
    exact ⟨f, turns, i', rfl⟩

end Engine

/-! ## Health, unit and lane together -/

namespace Invocation

variable {i : Invocation} {x : Endpoint}

/-- The selection after the filter for health. -/
def atHealthy (i : Invocation) : Selection := (i.selection.filter (·.healthy) false).2

/-- The unit to which the call is routed, if units matter to it. -/
def routedUnit? (i : Invocation) : Option String :=
  match i.isLive, i.unitDecision with
  | true, .route unit => some unit
  | _, _ => none

/-- The selection after the filter for units, where that does not refuse the call. -/
def atUnit (i : Invocation) : Selection :=
  match i.routedUnit? with
  | some unit => i.selection.keepUnit unit (i.localCell? unit)
  | none => i.selection

/-- The selection after the filter for lanes. -/
def atLane (i : Invocation) : Selection := if i.context.laneEnabled then i.onLanes else i.selection

/-- Whether the filter for units refuses the call. -/
def IsRefused (i : Invocation) : Prop := i.isLive ∧ ∃ why, i.unitDecision = .refuse why

/-- What the filters for health, units and lanes leave of a call that they do not refuse. -/
def narrowed (i : Invocation) : Invocation :=
  let i := i.withSelection i.atHealthy
  let i := i.withSelection i.atUnit
  i.withSelection i.atLane

theorem sublist_atUnit (i : Invocation) : i.atUnit.endpoints.Sublist i.selection.endpoints := by
  unfold atUnit
  split
  · exact Selection.sublist_keepUnit ..
  · exact .refl _

theorem sublist_atLane (i : Invocation) : i.atLane.endpoints.Sublist i.selection.endpoints := by
  unfold atLane
  split
  · exact i.sublist_onLanes
  · exact .refl _

/-- The filters for health, units and lanes bring no endpoint back and keep the order. -/
theorem sublist_narrowed (i : Invocation) :
    i.narrowed.selection.endpoints.Sublist i.selection.endpoints :=
  ((sublist_atLane _).trans (sublist_atUnit _)).trans (Selection.sublist_filter ..)

theorem apply_unit {σ : Type} (s : σ) (h : ¬i.IsRefused) :
    Filter.unit.apply s i = (.proceed, s, i.withSelection i.atUnit) := by
  by_cases hlive : i.isLive
  · cases hd : i.unitDecision with
    | any =>
      simp [Filter.unit, Filter.ofInvocation, atUnit, routedUnit?, hlive, hd, withSelection]
    | route unit =>
      simp [Filter.unit, Filter.ofInvocation, atUnit, routedUnit?, hlive, hd, withSelection]
    | refuse why => exact absurd ⟨hlive, why, hd⟩ h
  · simp [Filter.unit, Filter.ofInvocation, atUnit, routedUnit?, hlive, withSelection]

theorem apply_lane {σ : Type} (s : σ) (i : Invocation) :
    Filter.lane.apply s i = (.proceed, s, i.withSelection i.atLane) := by
  by_cases h : i.context.laneEnabled
  · simp [Filter.lane, Filter.ofUpdate, Filter.ofInvocation, atLane, h, withSelection]
  · simp [Filter.lane, Filter.ofUpdate, Filter.ofInvocation, atLane, h, withSelection]

end Invocation

theorem Engine.run_outboundFilters (e : Engine) {i : Invocation} (now draw : Nat)
    (turns : RoundRobin) (h : ¬i.IsRefused) :
    Filter.run (e.outboundFilters now draw) turns i =
      Filter.run (e.lastFilters now draw) turns i.narrowed := by
  have hfilters : e.outboundFilters now draw =
      .healthy :: .unit :: .lane :: e.lastFilters now draw := by
    simp [outboundFilters, lastFilters]
  have hhealthy : Filter.healthy.apply turns i =
      (.proceed, turns, i.withSelection i.atHealthy) := rfl
  rw [hfilters, Filter.run_proceed hhealthy,
    Filter.run_proceed (Invocation.apply_unit (i := i.withSelection i.atHealthy) turns h),
    Filter.run_proceed (Invocation.apply_lane turns _)]
  rfl

end TrafficControl
