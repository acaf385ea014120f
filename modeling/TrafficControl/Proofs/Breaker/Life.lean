import TrafficControl.Proofs.Breaker.Registry

/-!
# The life of a breaker

A `BreakerLife` is a registry of one breaker with the log of the calls that the breaker answered.
Whatever is called, and whatever listeners fail, its changes of state form a path of allowed steps,
one for each generation, and a listener hears them all if none before it fails. If no call lies
before an earlier one, an open breaker refuses every request for a permit until its wait is over,
and grants the first one after that as a trial. An outcome that comes while it is open changes
nothing. `BreakerLife.IsSound` is what one call preserves, `BreakerLife.Obeys` what holds after any
number of calls (`BreakerLife.obeys_run`).
-/

namespace TrafficControl

/-- Whether changes lead from one state to another, each from where the last one led to. -/
def BreakerState.Path : BreakerState → List StateChange → BreakerState → Prop
  | s, [], t => s = t
  | s, c :: cs, t => c.before = s ∧ s.Allows c.after ∧ Path c.after cs t

theorem BreakerState.path_append_singleton {s t : BreakerState} {cs : List StateChange}
    {c : StateChange} :
    s.Path (cs ++ [c]) t ↔ s.Path cs c.before ∧ c.before.Allows c.after ∧ c.after = t := by
  induction cs generalizing s with
  | nil =>
    simp only [List.nil_append, Path]
    exact ⟨fun ⟨h, allowed, ht⟩ => ⟨h.symm, h ▸ allowed, ht⟩,
      fun ⟨h, allowed, ht⟩ => ⟨h.symm, h ▸ allowed, ht⟩⟩
  | cons d cs ih => simp [Path, ih, and_assoc]

/-! ## Calls -/

/-- A call of a breaker. -/
inductive BreakerCall where
  | acquire
  | releasePermit (p : Permit)
  /-- A call that was let through has ended, and failed if it has a cause. -/
  | complete (micros : Nat) (cause : Option String)
  | window
deriving DecidableEq

/-- The change of state that a breaker makes at a call. -/
def Breaker.told (b : Breaker) (now : Nat) : BreakerCall → Option StateChange
  | .acquire => (b.wake now).1
  | .complete micros cause => (b.complete micros cause now).1
  | .releasePermit _ | .window => none

namespace BreakerRegistry

/-- Bring the window of a breaker up to date, to read it. -/
def window (r : BreakerRegistry) (n now : Nat) : BreakerRegistry :=
  match r.breaker? n with
  | none => r
  | some b => r.update n (b.counts now).2

/-- The registry after a call of one of its breakers. -/
def call (r : BreakerRegistry) (n now : Nat) : BreakerCall → BreakerRegistry
  | .acquire => (r.acquire n now).2
  | .releasePermit p => r.releasePermit n p
  | .complete micros cause => (r.complete n micros cause now).2
  | .window => r.window n now

variable {r : BreakerRegistry} {n : Nat} {w : WatchedBreaker}

/-- At a call a breaker changes, tells so, and may change once more without telling. In all it makes
the change that it tells and no other. -/
theorem exists_call_eq (h : r.breakers[n]? = some w) (now : Nat) (c : BreakerCall) :
    ∃ b b', w.breaker.Moves now (w.breaker.told now c) b' ∧
      r.call n now c = ((r.update n b).announce n (w.breaker.told now c)).2.update n b' := by
  have hb := breaker?_of_getElem? h
  have hannounced : ∀ b change, ((r.update n b).announce n change).2.update n b =
      ((r.update n b).announce n change).2 := by
    intro b change
    refine update_self ?_
    rw [(onlyTells_announce ..).breaker?, breaker?_update_self hb]
  cases c with
  | acquire =>
    have hwake := w.breaker.moves_wake now
    rcases acquire_cases hb now with ⟨hacquire, -⟩ | ⟨p, b, htake, hacquire⟩
    · refine ⟨(w.breaker.wake now).2, (w.breaker.wake now).2, hwake, ?_⟩
      rw [call, hacquire, hannounced]
      rfl
    · have hstays := (w.breaker.wake now).2.stays_take now
      rw [htake] at hstays
      exact ⟨(w.breaker.wake now).2, b, hwake.trans_stays hstays, by rw [call, hacquire]; rfl⟩
  | releasePermit p =>
    refine ⟨w.breaker, _, .stays (w.breaker.stays_releasePermit p), ?_⟩
    rw [call, releasePermit_eq hb, update_self hb]
    rfl
  | complete micros cause =>
    refine ⟨(w.breaker.complete micros cause now).2, (w.breaker.complete micros cause now).2,
      w.breaker.moves_complete micros cause now, ?_⟩
    rw [call, complete_eq hb, hannounced]
    rfl
  | window =>
    refine ⟨w.breaker, _, .stays (w.breaker.stays_counts now), ?_⟩
    rw [update_self hb]
    simp only [call, window, hb]
    rfl

/-- What a call of a breaker leaves : the breaker moved on, with the same listeners, and those of
them that are told before no other fails have heard. -/
theorem exists_moves_call (h : r.breakers[n]? = some w) (now : Nat) (c : BreakerCall) :
    ∃ b, w.breaker.Moves now (w.breaker.told now c) b ∧
      (r.call n now c).breakers[n]? = some { w with breaker := b } ∧
      (r.call n now c).listeners = r.listeners ∧
      ∀ k < w.listeners, r.IsReliableBefore k →
        (r.call n now c).changesTold k = r.changesTold k ++ (w.breaker.told now c).toList := by
  obtain ⟨b, b', hmoves, hcall⟩ := exists_call_eq h now c
  have htells := (r.update n b).onlyTells_announce n (w.breaker.told now c)
  refine ⟨b', hmoves, ?_, ?_, fun k hk hreliable => ?_⟩
  · have hannounced : ((r.update n b).announce n (w.breaker.told now c)).2.breakers[n]? =
        some { w with breaker := b } := by
      rw [htells.breakers, getElem?_update_self h]
    rw [hcall, getElem?_update_self hannounced]
  · rw [hcall, listeners_update, htells.listeners, listeners_update]
  · rw [hcall]
    exact changesTold_announce (getElem?_update_self h b) hk hreliable _

end BreakerRegistry

/-! ## Calls of an open breaker -/

namespace BreakerRegistry

variable {r : BreakerRegistry} {n now : Nat} {b : Breaker}

theorem acquire_of_not_due (h : r.breaker? n = some b) (hopen : b.state = .opened)
    (hdue : ¬b.isDue now) : r.acquire n now = (.refused, r) := by
  have hwake : b.wake now = (none, b) := Breaker.wake_of_not_due fun h => hdue h.2
  simp [acquire, h, hwake, announce, Breaker.take_of_opened hopen, update_self h]

/-- An open breaker whose wait is over wakes and grants a trial, if no listener fails. -/
theorem acquire_of_due (h : r.breaker? n = some b) (hopen : b.state = .opened)
    (hdue : b.isDue now) :
    ∃ r', (r.acquire n now = (.granted ⟨true, b.generation + 1⟩, r') ∨
        ¬r.IsReliable ∧ r.acquire n now = (.interrupted, r')) ∧
      (r'.breaker? n).map (·.state) = some .halfOpen := by
  have hwake := Breaker.wake_of_due hopen hdue
  have hwoken : (r.woken n b now).breaker? n = some (b.change .halfOpen now).2 := by
    rw [(r.onlyTells_woken n b now).breaker?, hwake, breaker?_update_self h]
  rcases acquire_cases h now with ⟨hacquire, hfailed⟩ | ⟨p, b', htake, hacquire⟩
  · refine ⟨_, .inr ⟨fun hreliable => ?_, hacquire⟩, by rw [hwoken]; rfl⟩
    have htells := announce_of_reliable (r := r.update n (b.wake now).2) hreliable n (b.wake now).1
    exact Bool.noConfusion (htells.symm.trans hfailed)
  · have hfew : (b.change .halfOpen now).2.trials < (b.change .halfOpen now).2.trialLimit := by
      rw [Breaker.trials_change_halfOpen]
      exact Breaker.trialLimit_pos _
    rw [hwake, Breaker.take_of_few (Breaker.state_change ..) hfew] at htake
    obtain ⟨rfl, rfl⟩ := Prod.mk.inj htake
    exact ⟨_, .inl hacquire, by rw [breaker?_update_self hwoken]; rfl⟩

theorem complete_of_opened (h : r.breaker? n = some b) (hopen : b.state = .opened) (micros : Nat)
    (cause : Option String) : r.complete n micros cause now = (true, r) := by
  rw [complete_eq h, Breaker.complete_of_opened hopen, update_self h]
  rfl

end BreakerRegistry

/-! ## Lives -/

/-- A call that was answered. -/
structure AnsweredCall where
  /-- The millisecond of the call, counted from the epoch of the breaker. -/
  millis : Int
  call : BreakerCall
  /-- The change that the breaker told. -/
  change : Option StateChange
deriving DecidableEq

namespace AnsweredCall

/-- Whether the breaker opened at the call. -/
def opens (a : AnsweredCall) : Bool := a.change.any (·.after = .opened)

/-- Whether the call is no request for a permit, or one before the millisecond given. -/
def IsEarly (a : AnsweredCall) (millis : Int) : Prop := a.call = .acquire → a.millis < millis

/-- The millisecond at which the breaker last opened, and the calls after that, in a log that has
the latest call first. -/
def sinceOpened : List AnsweredCall → Option (Int × List AnsweredCall)
  | [] => none
  | a :: log =>
    if a.opens then some (a.millis, [])
    else (sinceOpened log).map fun (millis, later) => (millis, a :: later)

theorem mem_of_sinceOpened {log : List AnsweredCall} {millis : Int} {later : List AnsweredCall}
    (h : sinceOpened log = some (millis, later)) {a : AnsweredCall} (ha : a ∈ later) :
    a ∈ log := by
  induction log generalizing later with
  | nil => simp [sinceOpened] at h
  | cons d log ih =>
    unfold sinceOpened at h
    split at h
    · obtain ⟨-, rfl⟩ := Prod.mk.inj (Option.some.inj h)
      simp at ha
    · obtain ⟨⟨_, before⟩, hbefore, heq⟩ := Option.map_eq_some_iff.1 h
      obtain ⟨rfl, rfl⟩ := Prod.mk.inj heq
      rcases List.mem_cons.1 ha with rfl | ha
      · exact List.mem_cons_self
      · exact List.mem_cons_of_mem _ (ih hbefore ha)

end AnsweredCall

open AnsweredCall

/-- How a breaker is made. -/
structure BreakerOrigin where
  uri : String
  service : String
  policy : BreakPolicy
  /-- The instant at which it is made. -/
  epoch : Nat
  /-- The listeners that are there by then. -/
  listeners : List StateListener

/-- A registry of one breaker, and the calls that the breaker answered, latest first. -/
structure BreakerLife where
  registry : BreakerRegistry
  log : List AnsweredCall := []

namespace BreakerLife

/-- The life of a breaker that was just made. -/
def start (o : BreakerOrigin) : BreakerLife where
  registry := BreakerRegistry.register { listeners := o.listeners } o.uri o.service o.policy o.epoch

/-- The life after a call at an instant. -/
def step (l : BreakerLife) (c : Nat × BreakerCall) : BreakerLife where
  registry := l.registry.call 0 c.1 c.2
  log := match l.registry.breaker? 0 with
    | some b => ⟨b.elapsedMillis c.1, c.2, b.told c.1 c.2⟩ :: l.log
    | none => l.log

/-- The life after calls, each at an instant. -/
def run (l : BreakerLife) (calls : List (Nat × BreakerCall)) : BreakerLife := calls.foldl step l

/-- The changes of state in a log that has the latest call first, in order. -/
def changes (l : BreakerLife) : List StateChange := (l.log.filterMap (·.change)).reverse

theorem changes_mk (r : BreakerRegistry) (a : AnsweredCall) (log : List AnsweredCall) :
    changes ⟨r, a :: log⟩ = changes ⟨r, log⟩ ++ a.change.toList := by
  rcases a with ⟨millis, call, _ | change⟩ <;> simp [changes]

end BreakerLife

/-- Whether a breaker is open and waits, if there was no request for a permit that came when its
wait was over since it opened. -/
def Breaker.Waits (b : Breaker) (log : List AnsweredCall) : Prop :=
  ∀ millis later, sinceOpened log = some (millis, later) →
    (∀ a ∈ later, a.IsEarly (b.wakesAt millis)) →
      b.state = .opened ∧ b.retryAt = b.wakesAt millis

namespace Breaker

variable {b b' : Breaker} {now : Nat} {c : BreakerCall}

/-- An open breaker makes no change before a request for a permit after its wait. -/
theorem told_of_opened (hopen : b.state = .opened) (h : c = .acquire → ¬b.isDue now) :
    b.told now c = none := by
  cases c with
  | acquire => rw [told, wake_of_not_due fun hdue => h rfl hdue.2]
  | releasePermit p => rfl
  | complete micros cause => rw [told, complete_of_opened hopen]
  | window => rfl

theorem Waits.moves {log : List AnsweredCall} (h : b.Waits log)
    (hmoves : b.Moves now (b.told now c) b') :
    b'.Waits (⟨b.elapsedMillis now, c, b.told now c⟩ :: log) := by
  intro millis later hsince hearly
  simp only [hmoves.wakesAt] at hearly ⊢
  by_cases hopens : (b.told now c).any (·.after = .opened)
  · -- The breaker opens now, so its wait begins.
    obtain ⟨rfl, rfl⟩ : b.elapsedMillis now = millis ∧ [] = later := by
      simpa [sinceOpened, AnsweredCall.opens, hopens] using hsince
    generalize b.told now c = change at hmoves hopens
    cases hmoves with
    | stays => simp at hopens
    | goes after allowed hstays =>
      obtain rfl : after = .opened := by simpa using hopens
      exact ⟨hstays.state, hstays.retryAt.trans (b.retryAt_change_opened now)⟩
  · -- It opened before, and has waited since.
    obtain ⟨before, hbefore, rfl⟩ : ∃ before, sinceOpened log = some (millis, before) ∧
        later = ⟨b.elapsedMillis now, c, b.told now c⟩ :: before := by
      simp only [sinceOpened, AnsweredCall.opens, hopens, Bool.false_eq_true, if_false,
        Option.map_eq_some_iff, Prod.exists, Prod.mk.injEq] at hsince
      obtain ⟨_, before, hbefore, rfl, rfl⟩ := hsince
      exact ⟨before, hbefore, rfl⟩
    obtain ⟨hopen, hretry⟩ := h millis before hbefore
      fun a ha => hearly a (List.mem_cons_of_mem _ ha)
    have hdue : c = .acquire → ¬b.isDue now := by
      intro hc
      have hlt := hearly _ List.mem_cons_self hc
      simpa [isDue, hretry] using hlt
    rw [told_of_opened hopen hdue] at hmoves
    cases hmoves with
    | stays hstays => exact ⟨hstays.state.trans hopen, hstays.retryAt.trans hretry⟩

end Breaker

namespace BreakerLife

variable {o : BreakerOrigin} {l : BreakerLife} {b : Breaker} {now : Nat}

/-- What every call preserves of a breaker of the origin given. -/
structure IsSound (o : BreakerOrigin) (l : BreakerLife) (b : Breaker) (now : Nat) : Prop where
  registered : l.registry.breakers[0]? = some ⟨b, o.listeners.length⟩
  listeners : l.registry.listeners = o.listeners
  policy : b.policy = o.policy
  epoch : b.epoch = o.epoch
  path : BreakerState.closed.Path l.changes b.state
  generation : b.generation = l.changes.length
  told : ∀ k < o.listeners.length, l.registry.IsReliableBefore k →
    l.registry.changesTold k = l.changes
  past : ∀ a ∈ l.log, a.millis ≤ b.elapsedMillis now
  waits : b.Waits l.log

theorem isSound_start (o : BreakerOrigin) (now : Nat) :
    IsSound o (start o) (.create o.uri o.policy o.epoch) now where
  registered := rfl
  listeners := rfl
  policy := rfl
  epoch := rfl
  path := rfl
  generation := rfl
  told _ _ _ := rfl
  past _ ha := nomatch ha
  waits _ _ h := nomatch h

theorem IsSound.mono (h : l.IsSound o b now) {later : Nat} (hle : now ≤ later) :
    l.IsSound o b later :=
  { h with past := fun a ha => Int.le_trans (h.past a ha) (b.elapsedMillis_mono hle) }

theorem IsSound.step (h : l.IsSound o b now) {c : Nat × BreakerCall} (hc : now ≤ c.1) :
    ∃ b', (l.step c).IsSound o b' c.1 := by
  obtain ⟨b', hmoves, hb', hlisteners, hheard⟩ :=
    BreakerRegistry.exists_moves_call h.registered c.1 c.2
  have hstep : l.step c =
      ⟨l.registry.call 0 c.1 c.2, ⟨b.elapsedMillis c.1, c.2, b.told c.1 c.2⟩ :: l.log⟩ := by
    rw [BreakerLife.step, BreakerRegistry.breaker?_of_getElem? h.registered]
  have hchanges : (l.step c).changes = l.changes ++ (b.told c.1 c.2).toList := by
    rw [hstep]
    exact changes_mk ..
  have hpast : ∀ a ∈ (l.step c).log, a.millis ≤ b'.elapsedMillis c.1 := by
    rw [hstep, hmoves.elapsedMillis]
    intro a ha
    rcases List.mem_cons.1 ha with rfl | ha
    · exact Int.le_refl _
    · exact Int.le_trans (h.past a ha) (b.elapsedMillis_mono hc)
  have htold : ∀ k < o.listeners.length, (l.step c).registry.IsReliableBefore k →
      (l.step c).registry.changesTold k = (l.step c).changes := by
    intro k hk hreliable
    have hbefore : l.registry.IsReliableBefore k := by
      rwa [BreakerRegistry.IsReliableBefore, hstep, hlisteners] at hreliable
    rw [hchanges, ← h.told k hk hbefore, hstep]
    exact hheard k hk hbefore
  have hwaits : b'.Waits (l.step c).log := by
    rw [hstep]
    exact h.waits.moves hmoves
  refine ⟨b', by rwa [hstep], by rw [hstep, hlisteners, h.listeners],
    hmoves.policy.trans h.policy, hmoves.epoch.trans h.epoch, ?_, ?_, htold, hpast, hwaits⟩
  · generalize b.told c.1 c.2 = change at hmoves hchanges
    rw [hchanges]
    cases hmoves with
    | stays hstays => simpa [hstays.state] using h.path
    | goes after allowed hstays =>
      exact BreakerState.path_append_singleton.2 ⟨h.path, allowed, hstays.state.symm⟩
  · generalize b.told c.1 c.2 = change at hmoves hchanges
    rw [hchanges]
    cases hmoves with
    | stays hstays => simpa [hstays.generation] using h.generation
    | goes after allowed hstays => simpa [hstays.generation] using h.generation

/-- Calls of which none lies before an earlier one keep a breaker sound. -/
theorem IsSound.run (h : l.IsSound o b now) {calls : List (Nat × BreakerCall)} {last : Nat}
    (hsorted : (now :: calls.map (·.1) ++ [last]).Pairwise (· ≤ ·)) :
    ∃ b', (l.run calls).IsSound o b' last := by
  induction calls generalizing l b now with
  | nil => exact ⟨b, h.mono (by simpa using hsorted)⟩
  | cons c calls ih =>
    obtain ⟨hfirst, hrest⟩ := List.pairwise_cons.1 hsorted
    obtain ⟨b', hb'⟩ := h.step (hfirst c.1 (by simp))
    exact ih hb' hrest

/-! ## The machine -/

/-- What holds of a breaker of the origin given, after calls up to an instant. -/
structure Obeys (o : BreakerOrigin) (l : BreakerLife) (b : Breaker) (now : Nat) : Prop where
  breaker : l.registry.breaker? 0 = some b
  policy : b.policy = o.policy
  epoch : b.epoch = o.epoch
  /-- The changes of state lead from closed to the present state. -/
  path : BreakerState.closed.Path l.changes b.state
  generation : b.generation = l.changes.length
  /-- A listener hears all changes, if those that are told before it do not fail. -/
  told : ∀ k < o.listeners.length, l.registry.IsReliableBefore k →
    l.registry.changesTold k = l.changes
  /-- No permit is granted before the wait is over. -/
  refuses : ∀ millis later, sinceOpened l.log = some (millis, later) →
    b.elapsedMillis now < b.wakesAt millis → l.registry.acquire 0 now = (.refused, l.registry)
  /-- The first request after the wait is granted as a trial, if no listener fails. -/
  grants : ∀ millis later, sinceOpened l.log = some (millis, later) →
    (∀ a ∈ later, a.IsEarly (b.wakesAt millis)) → b.wakesAt millis ≤ b.elapsedMillis now →
      ∃ r, (l.registry.acquire 0 now = (.granted ⟨true, b.generation + 1⟩, r) ∨
          ¬l.registry.IsReliable ∧ l.registry.acquire 0 now = (.interrupted, r)) ∧
        (r.breaker? 0).map (·.state) = some .halfOpen
  /-- An outcome changes nothing while the breaker is open. -/
  ignores : b.state = .opened → ∀ micros cause,
    l.registry.complete 0 micros cause now = (true, l.registry)

theorem IsSound.obeys (h : l.IsSound o b now) : l.Obeys o b now where
  breaker := BreakerRegistry.breaker?_of_getElem? h.registered
  policy := h.policy
  epoch := h.epoch
  path := h.path
  generation := h.generation
  told := h.told
  refuses millis later hsince hlt := by
    have hearly : ∀ a ∈ later, a.IsEarly (b.wakesAt millis) := fun a ha _ =>
      Int.lt_of_le_of_lt (h.past a (mem_of_sinceOpened hsince ha)) hlt
    obtain ⟨hopen, hretry⟩ := h.waits millis later hsince hearly
    have hdue : ¬b.isDue now := by simpa [Breaker.isDue, hretry] using hlt
    exact BreakerRegistry.acquire_of_not_due (BreakerRegistry.breaker?_of_getElem? h.registered)
      hopen hdue
  grants millis later hsince hearly hle := by
    obtain ⟨hopen, hretry⟩ := h.waits millis later hsince hearly
    have hdue : b.isDue now := by simpa [Breaker.isDue, hretry] using hle
    exact BreakerRegistry.acquire_of_due (BreakerRegistry.breaker?_of_getElem? h.registered)
      hopen hdue
  ignores hopen micros cause :=
    BreakerRegistry.complete_of_opened (BreakerRegistry.breaker?_of_getElem? h.registered) hopen
      micros cause

/-- Whatever is called, a breaker obeys, if no call lies before an earlier one. -/
theorem obeys_run (o : BreakerOrigin) (calls : List (Nat × BreakerCall)) (now : Nat)
    (h : (calls.map (·.1) ++ [now]).Pairwise (· ≤ ·)) :
    ∃ b, ((start o).run calls).Obeys o b now := by
  have hsorted : (0 :: calls.map (·.1) ++ [now]).Pairwise (· ≤ ·) :=
    List.pairwise_cons.2 ⟨fun _ _ => Nat.zero_le _, h⟩
  obtain ⟨b, hb⟩ := (isSound_start o 0).run hsorted
  exact ⟨b, hb.obeys⟩

/-- A breaker that opens at the first failed call, and wakes a second later. -/
def fragile : BreakerOrigin where
  uri := "breaker"
  service := "orders"
  policy := { minimumCalls := 1, waitMillis := 1000 }
  epoch := 0
  listeners := [{}]

/-- It opens, refuses a request, and obeys when the next one comes after its wait. -/
theorem obeys_fragile :
    ∃ b, ((start fragile).run [(5, .complete 3 (some "down")), (900000, .acquire)]).Obeys
      fragile b 1000000 :=
  obeys_run fragile _ 1000000 (by decide)

end BreakerLife

end TrafficControl
