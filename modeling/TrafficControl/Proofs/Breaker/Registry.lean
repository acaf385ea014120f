import Mathlib.Data.List.Basic
import TrafficControl.Proofs.Breaker.Operation

/-!
# Breakers in a registry

An operation of one breaker leaves the other breakers of a registry as they are, and telling a
change leaves all of them as they are (`BreakerRegistry.onlyTells_announce`). A request for a permit
comes apart into what is done before telling and after it (`BreakerRegistry.acquire_cases`). A
listener is told every change if none of the listeners before it fails
(`BreakerRegistry.changesTold_announce`).
-/

namespace TrafficControl

namespace BreakerRegistry

variable {r : BreakerRegistry} {n m : Nat} {b : Breaker}

/-! ## Other breakers -/

@[simp] theorem listeners_update (r : BreakerRegistry) (n : Nat) (b : Breaker) :
    (r.update n b).listeners = r.listeners := rfl

theorem breaker?_update (r : BreakerRegistry) (n m : Nat) (b : Breaker) :
    (r.update n b).breaker? m = if n = m then (r.breaker? m).map fun _ => b else r.breaker? m := by
  unfold breaker? update
  rw [List.getElem?_modify]
  split
  · cases r.breakers[m]? <;> rfl
  · cases r.breakers[m]? <;> rfl

theorem breaker?_update_self (h : r.breaker? n = some b) (b' : Breaker) :
    (r.update n b').breaker? n = some b' := by
  simp [breaker?_update, h]

theorem getElem?_update_self {w : WatchedBreaker} (h : r.breakers[n]? = some w) (b : Breaker) :
    (r.update n b).breakers[n]? = some { w with breaker := b } := by
  simp [update, h]

theorem breaker?_of_getElem? {w : WatchedBreaker} (h : r.breakers[n]? = some w) :
    r.breaker? n = some w.breaker := by
  simp [breaker?, h]

/-- Putting a breaker in the state it is in does nothing. -/
theorem update_self (h : r.breaker? n = some b) : r.update n b = r := by
  obtain ⟨w, hw, rfl⟩ := Option.map_eq_some_iff.1 h
  have hmodify : r.breakers.modify n (fun w' => { w' with breaker := w.breaker }) = r.breakers := by
    apply List.ext_getElem?
    intro m
    rw [List.getElem?_modify]
    split
    · next hn => subst hn; simp [hw]
    · exact Option.map_id'
  rw [update, hmodify]

/-! ## Telling a change -/

/-- Whether only listeners were told something. -/
structure OnlyTells (r r' : BreakerRegistry) : Prop where
  entries : r'.entries = r.entries
  breakers : r'.breakers = r.breakers
  listeners : r'.listeners = r.listeners

theorem onlyTells_tell (r : BreakerRegistry) (change : StateChange) (ls : List Nat) :
    r.OnlyTells (r.tell change ls).2 := by
  induction ls generalizing r with
  | nil => exact ⟨rfl, rfl, rfl⟩
  | cons l ls ih =>
    unfold tell
    dsimp only
    split
    · exact ⟨rfl, rfl, rfl⟩
    · have h := ih { r with deliveries := r.deliveries ++ [⟨l, change⟩] }
      exact ⟨h.entries, h.breakers, h.listeners⟩

theorem onlyTells_announce (r : BreakerRegistry) (n : Nat) (change : Option StateChange) :
    r.OnlyTells (r.announce n change).2 := by
  cases change with
  | none => exact ⟨rfl, rfl, rfl⟩
  | some change => exact r.onlyTells_tell change _

theorem OnlyTells.breaker? {r' : BreakerRegistry} (h : r.OnlyTells r') (n : Nat) :
    r'.breaker? n = r.breaker? n := by
  rw [BreakerRegistry.breaker?, h.breakers, BreakerRegistry.breaker?]

/-! ## Operations -/

/-- The registry after one of its breakers woke, if its wait was over, and told so. -/
def woken (r : BreakerRegistry) (n : Nat) (b : Breaker) (now : Nat) : BreakerRegistry :=
  ((r.update n (b.wake now).2).announce n (b.wake now).1).2

theorem onlyTells_woken (r : BreakerRegistry) (n : Nat) (b : Breaker) (now : Nat) :
    (r.update n (b.wake now).2).OnlyTells (r.woken n b now) :=
  onlyTells_announce ..

/-- A request for a permit wakes the breaker and tells so. If no listener fails it then takes. -/
theorem acquire_cases (h : r.breaker? n = some b) (now : Nat) :
    r.acquire n now = (.interrupted, r.woken n b now) ∧
        ((r.update n (b.wake now).2).announce n (b.wake now).1).1 = false ∨
      ∃ p b', (b.wake now).2.take now = (p, b') ∧
        r.acquire n now = (p.elim .refused .granted, (r.woken n b now).update n b') := by
  unfold woken
  rcases hannounce : (r.update n (b.wake now).2).announce n (b.wake now).1 with ⟨_ | _, told⟩
  · exact .inl ⟨by simp [acquire, h, hannounce], rfl⟩
  · rcases htake : (b.wake now).2.take now with ⟨_ | p, b'⟩
    · exact .inr ⟨none, b', rfl, by simp [acquire, h, hannounce, htake]⟩
    · exact .inr ⟨some p, b', rfl, by simp [acquire, h, hannounce, htake]⟩

theorem releasePermit_eq (h : r.breaker? n = some b) (p : Permit) :
    r.releasePermit n p = r.update n (b.releasePermit p) := by
  simp [releasePermit, h]

theorem complete_eq (h : r.breaker? n = some b) (micros : Nat) (cause : Option String)
    (now : Nat) : r.complete n micros cause now =
      (r.update n (b.complete micros cause now).2).announce n (b.complete micros cause now).1 := by
  simp [complete, h]

/-- Of all breakers only the one that is updated changes. -/
theorem breaker?_of_update {r' : BreakerRegistry} {f : Breaker → Breaker}
    (hnone : r.breaker? n = none → r' = r)
    (hsome : ∀ b, r.breaker? n = some b → r'.breaker? m = (r.update n (f b)).breaker? m) :
    r'.breaker? m = if n = m then (r.breaker? m).map f else r.breaker? m := by
  cases h : r.breaker? n with
  | none =>
    rw [hnone h]
    split
    · next hm => rw [← hm, h, Option.map_none]
    · rfl
  | some b =>
    rw [hsome b h, breaker?_update]
    split
    · next hm => rw [← hm, h, Option.map_some, Option.map_some]
    · rfl

theorem breaker?_releasePermit (r : BreakerRegistry) (n m : Nat) (p : Permit) :
    (r.releasePermit n p).breaker? m =
      if n = m then (r.breaker? m).map (·.releasePermit p) else r.breaker? m :=
  breaker?_of_update (fun h => by simp [releasePermit, h]) fun b h => by rw [releasePermit_eq h]

theorem breaker?_complete (r : BreakerRegistry) (n m micros : Nat) (cause : Option String)
    (now : Nat) : (r.complete n micros cause now).2.breaker? m =
      if n = m then (r.breaker? m).map fun b => (b.complete micros cause now).2
      else r.breaker? m :=
  breaker?_of_update (fun h => by simp [complete, h]) fun b h => by
    rw [complete_eq h, (onlyTells_announce ..).breaker?]

/-! ## What listeners hear -/

/-- The changes that a listener was told, in order. -/
def changesTold (r : BreakerRegistry) (listener : Nat) : List StateChange :=
  (r.deliveries.filter (·.listener = listener)).map (·.change)

/-- Whether no listener before the one given ever fails. -/
def IsReliableBefore (r : BreakerRegistry) (listener : Nat) : Prop :=
  ∀ j < listener, ∀ s, r.listeners[j]? = some s → ∀ k, s.fails k = false

/-- Whether no listener ever fails. -/
def IsReliable (r : BreakerRegistry) : Prop := ∀ s ∈ r.listeners, ∀ k, s.fails k = false

theorem tell_of_reliable (h : r.IsReliable) (change : StateChange) (ls : List Nat) :
    (r.tell change ls).1 = true := by
  induction ls generalizing r with
  | nil => rfl
  | cons l ls ih =>
    have hfails : r.listeners[l]?.any (fun s => s.fails (r.heard l)) = false := by
      cases hl : r.listeners[l]? with
      | none => rfl
      | some s => exact h s (List.mem_of_getElem? hl) _
    simp only [tell, hfails, Bool.false_eq_true, if_false]
    exact ih h

theorem changesTold_tell_of_not_mem {listener : Nat} (r : BreakerRegistry) (change : StateChange)
    {ls : List Nat} (h : listener ∉ ls) :
    (r.tell change ls).2.changesTold listener = r.changesTold listener := by
  induction ls generalizing r with
  | nil => rfl
  | cons l ls ih =>
    have hl : l ≠ listener := fun hl => h (hl ▸ List.mem_cons_self)
    have hone : changesTold { r with deliveries := r.deliveries ++ [⟨l, change⟩] } listener =
        r.changesTold listener := by
      simp [changesTold, hl]
    unfold tell
    dsimp only
    split
    · exact hone
    · exact (ih _ fun hmem => h (List.mem_cons_of_mem _ hmem)).trans hone

/-- A listener hears a change if those that are told before it do not fail. -/
theorem changesTold_tell_append {listener : Nat} (change : StateChange) {before after : List Nat}
    (hreliable : r.IsReliableBefore listener) (hbefore : ∀ l ∈ before, l < listener)
    (hafter : listener ∉ after) :
    (r.tell change (before ++ listener :: after)).2.changesTold listener =
      r.changesTold listener ++ [change] := by
  induction before generalizing r with
  | nil =>
    have hone : changesTold { r with deliveries := r.deliveries ++ [⟨listener, change⟩] } listener =
        r.changesTold listener ++ [change] := by
      simp [changesTold]
    rw [List.nil_append, tell]
    split
    · exact hone
    · exact (changesTold_tell_of_not_mem _ change hafter).trans hone
  | cons l before ih =>
    have hl : l < listener := hbefore l List.mem_cons_self
    have hfails : r.listeners[l]?.any (fun s => s.fails (r.heard l)) = false := by
      cases hl' : r.listeners[l]? with
      | none => rfl
      | some s => exact hreliable l hl s hl' _
    have hone : changesTold { r with deliveries := r.deliveries ++ [⟨l, change⟩] } listener =
        r.changesTold listener := by
      simp [changesTold, Nat.ne_of_lt hl]
    rw [List.cons_append, tell]
    simp only [hfails, Bool.false_eq_true, if_false]
    rw [← hone]
    exact ih hreliable fun l' hl' => hbefore l' (List.mem_cons_of_mem _ hl')

theorem changesTold_announce {listener : Nat} {w : WatchedBreaker} (hw : r.breakers[n]? = some w)
    (hl : listener < w.listeners) (hreliable : r.IsReliableBefore listener)
    (change : Option StateChange) :
    (r.announce n change).2.changesTold listener =
      r.changesTold listener ++ change.toList := by
  cases change with
  | none => simp [announce]
  | some change =>
    have hrange : List.range w.listeners = List.range listener ++
        listener :: (List.range (w.listeners - listener - 1)).map (listener + 1 + ·) := by
      have hsum : w.listeners = listener + 1 + (w.listeners - listener - 1) := by omega
      conv_lhs => rw [hsum, List.range_add, List.range_succ]
      simp
    have hafter : listener ∉ (List.range (w.listeners - listener - 1)).map (listener + 1 + ·) := by
      simp only [List.mem_map, not_exists, not_and]
      omega
    rw [announce, hw, Option.map_some, Option.getD_some, hrange]
    exact changesTold_tell_append change hreliable (fun l hmem => List.mem_range.1 hmem) hafter

theorem announce_of_reliable (h : r.IsReliable) (n : Nat) (change : Option StateChange) :
    (r.announce n change).1 = true := by
  cases change with
  | none => rfl
  | some change => exact tell_of_reliable h change _

/-- A request for a permit takes from the breaker that woke, if no listener fails. -/
theorem acquire_of_reliable (hreliable : r.IsReliable) (h : r.breaker? n = some b) (now : Nat) :
    r.acquire n now = (((b.wake now).2.take now).1.elim .refused .granted,
      (r.woken n b now).update n ((b.wake now).2.take now).2) := by
  have hwoken : (r.update n (b.wake now).2).IsReliable := hreliable
  rcases acquire_cases h now with ⟨-, hfailed⟩ | ⟨p, b', htake, hacquire⟩
  · have htold := announce_of_reliable hwoken n (b.wake now).1
    exact Bool.noConfusion (htold.symm.trans hfailed)
  · rw [hacquire, htake]

end BreakerRegistry

end TrafficControl
