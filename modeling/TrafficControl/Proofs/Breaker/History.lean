import TrafficControl.Proofs.Breaker.Life
import TrafficControl.Proofs.Breaker.Window

/-!
# The history of a breaker

A breaker decides by a window, which forgets. `BreakerLife.history` forgets nothing : it is the list
of all outcomes recorded while the breaker was closed, since it was made or last closed. Whatever is
called, as long as no call lies before an earlier one, the counts that a breaker tells are those of
the part of the history that its policy counts, an outcome opens it exactly if the counts with it
exceed the thresholds, and reading the counts changes nothing that is seen later
(`BreakerLife.isFaithful_run`).

`BreakerRegistry.call_eq` splits a call into what the breaker makes of it (`Breaker.called`) and
what its listeners are told. Reads are then the calls at which nothing but the window moves : two
breakers that differ in their windows only, and keep one history, make the same of every call
(`Breaker.IsTwin`).
-/

namespace TrafficControl

/-! ## Calls -/

namespace Breaker

/-- The breaker after a call. A breaker that wakes takes only if no listener failed. -/
def called (b : Breaker) (now : Nat) (whole : Bool) : BreakerCall → Breaker
  | .acquire => if whole then ((b.wake now).2.take now).2 else (b.wake now).2
  | .releasePermit p => b.releasePermit p
  | .complete micros cause => (b.complete micros cause now).2
  | .window => (b.counts now).2

/-- The answer to a request for a permit. -/
def answer (b : Breaker) (now : Nat) (whole : Bool) : Attempt :=
  if whole then ((b.wake now).2.take now).1.elim .refused .granted else .interrupted

end Breaker

namespace BreakerRegistry

variable {r : BreakerRegistry} {n now : Nat} {b : Breaker}

@[simp] theorem update_update (r : BreakerRegistry) (n : Nat) (b b' : Breaker) :
    (r.update n b).update n b' = r.update n b' := by
  simp only [update, List.modify_modify_eq]
  rfl

theorem tell_update (r : BreakerRegistry) (n : Nat) (b : Breaker) (change : StateChange)
    (ls : List Nat) :
    (r.update n b).tell change ls = ((r.tell change ls).1, (r.tell change ls).2.update n b) := by
  induction ls generalizing r with
  | nil => rfl
  | cons l ls ih =>
    by_cases hfails : r.listeners[l]?.any fun s => s.fails (r.heard l)
    · have hfails' : (r.update n b).listeners[l]?.any fun s =>
          s.fails ((r.update n b).heard l) := hfails
      simp only [tell, hfails, hfails', if_true]
      rfl
    · have hfails' : ¬(r.update n b).listeners[l]?.any fun s =>
          s.fails ((r.update n b).heard l) := hfails
      simp only [tell, hfails, hfails', Bool.false_eq_true, if_false]
      exact ih { r with deliveries := r.deliveries ++ [⟨l, change⟩] }

/-- What listeners are told does not depend on the state of the breaker. -/
theorem announce_update (r : BreakerRegistry) (n : Nat) (b : Breaker)
    (change : Option StateChange) :
    (r.update n b).announce n change =
      ((r.announce n change).1, (r.announce n change).2.update n b) := by
  cases change with
  | none => rfl
  | some change =>
    have hlisteners : (r.update n b).breakers[n]?.map (·.listeners) =
        r.breakers[n]?.map (·.listeners) := by
      cases h : r.breakers[n]? <;> simp [update, h]
    rw [announce, hlisteners]
    exact tell_update ..

theorem acquire_eq (h : r.breaker? n = some b) (now : Nat) :
    r.acquire n now = (b.answer now (r.announce n (b.wake now).1).1,
      (r.announce n (b.wake now).1).2.update n
        (b.called now (r.announce n (b.wake now).1).1 .acquire)) := by
  rcases hannounce : r.announce n (b.wake now).1 with ⟨_ | _, told⟩
  · simp [acquire, h, announce_update, hannounce, Breaker.answer, Breaker.called]
  · rcases htake : (b.wake now).2.take now with ⟨_ | p, b'⟩ <;>
      simp [acquire, h, announce_update, hannounce, htake, Breaker.answer, Breaker.called]

/-- At a call the change of the breaker is told, and the breaker becomes what it makes of the
call. -/
theorem call_eq (h : r.breaker? n = some b) (now : Nat) (c : BreakerCall) :
    r.call n now c = (r.announce n (b.told now c)).2.update n
      (b.called now (r.announce n (b.told now c)).1 c) := by
  cases c with
  | acquire =>
    rw [call, acquire_eq h]
    rfl
  | releasePermit p => exact releasePermit_eq h p
  | complete micros cause =>
    rw [call, complete_eq h, announce_update]
    rfl
  | window =>
    simp only [call, window, h]
    rfl

end BreakerRegistry

/-! ## Remembering -/

namespace Breaker

variable {b b' : Breaker} {now : Nat} {history : List TimedOutcome}

/-- The history after a call. Closing starts a new one, and only outcomes that come while the
breaker is closed are recorded. -/
def remember (b : Breaker) (now : Nat) (history : List TimedOutcome) (c : BreakerCall) :
    List TimedOutcome :=
  if (b.told now c).any (·.after = .closed) then []
  else match c with
    | .complete micros cause =>
      if b.state = .closed then
        ((outcome? b.policy micros cause).map (⟨b.elapsedSeconds now, ·⟩)).toList ++ history
      else history
    | _ => history

theorem remember_of_outcome {micros : Nat} {cause : Option String} {x : Outcome}
    (h : outcome? b.policy micros cause = some x) :
    b.remember now history (.complete micros cause) =
      if (b.record x now).1.any (·.after = .closed) then []
      else if b.state = .closed then ⟨b.elapsedSeconds now, x⟩ :: history else history := by
  simp only [remember, told, complete_of_outcome h, h, Option.map_some, Option.toList_some,
    List.singleton_append]

theorem moves_called (b : Breaker) (now : Nat) (whole : Bool) (c : BreakerCall) :
    b.Moves now (b.told now c) (b.called now whole c) := by
  cases c with
  | acquire =>
    cases whole with
    | true => exact (b.moves_wake now).trans_stays ((b.wake now).2.stays_take now)
    | false => exact b.moves_wake now
  | releasePermit p => exact .stays (b.stays_releasePermit p)
  | complete micros cause => exact b.moves_complete micros cause now
  | window => exact .stays (b.stays_counts now)

@[simp] theorem window_change_opened (b : Breaker) (now : Nat) :
    (b.change .opened now).2.window = b.window := rfl

@[simp] theorem window_change_closed (b : Breaker) (now : Nat) :
    (b.change .closed now).2.window = b.window.reset := rfl

theorem window_wake (b : Breaker) (now : Nat) : (b.wake now).2.window = b.window := by
  by_cases h : b.state = .opened ∧ b.isDue now
  · rw [wake_of_due h.1 h.2]
    rfl
  · rw [wake_of_not_due h]

theorem window_take (b : Breaker) (now : Nat) : (b.take now).2.window = b.window := by
  rcases htake : b.take now with ⟨p, b'⟩
  cases takes htake <;> rfl

theorem window_releasePermit (b : Breaker) (p : Permit) :
    (b.releasePermit p).window = b.window := by
  unfold releasePermit release
  split
  · split <;> rfl
  · rfl

theorem remember_acquire : b.remember now history .acquire = history := by
  by_cases h : b.state = .opened ∧ b.isDue now
  · simp [remember, told, wake_of_due h.1 h.2]
  · simp [remember, told, wake_of_not_due h]

/-- Recording an outcome keeps the history with that outcome, or the new one. -/
theorem keeps_record {p : BreakPolicy} (x : Outcome)
    (h : b.window.Keeps p history (b.elapsedSeconds now)) :
    (b.record x now).2.window.Keeps p
      (if (b.record x now).1.any (·.after = .closed) then []
        else if b.state = .closed then ⟨b.elapsedSeconds now, x⟩ :: history else history)
      (b.elapsedSeconds now) := by
  have hrecorded : (b.tally x now).2.Keeps p (⟨b.elapsedSeconds now, x⟩ :: history)
      (b.elapsedSeconds now) := (h.record x).2
  rcases hrecord : b.record x now with ⟨change, b'⟩
  cases records hrecord with
  | ignored hstate => simpa [hstate] using h
  | counted hstate => simpa [hstate] using hrecorded
  | tripped hstate => simpa [hstate] using hrecorded
  | failed hstate => simpa [hstate] using h
  | passed hstate => simpa [hstate] using h
  | healed hstate => simpa using h.reset

/-- Every call keeps the history that is remembered. -/
theorem keeps_called {p : BreakPolicy} (h : b.window.Keeps p history (b.elapsedSeconds now))
    (whole : Bool) (c : BreakerCall) :
    (b.called now whole c).window.Keeps p (b.remember now history c) (b.elapsedSeconds now) := by
  cases c with
  | acquire =>
    have hwindow : (b.called now whole .acquire).window = b.window := by
      cases whole with
      | true => exact (window_take _ now).trans (b.window_wake now)
      | false => exact b.window_wake now
    rw [hwindow, remember_acquire]
    exact h
  | releasePermit p =>
    rw [called, window_releasePermit]
    exact h
  | complete micros cause =>
    cases hx : outcome? b.policy micros cause with
    | none =>
      rw [called, complete_of_none hx]
      simpa [remember, told, complete_of_none hx, hx] using h
    | some x =>
      rw [called, complete_of_outcome hx, remember_of_outcome hx]
      exact keeps_record x h
  | window => exact h.counts.2

/-! ## Other windows -/

/-- The breaker with another window. -/
def withWindow (b : Breaker) (w : Window) : Breaker := { b with window := w }

variable {w : Window}

theorem wake_withWindow (b : Breaker) (w : Window) (now : Nat) :
    (b.withWindow w).wake now = ((b.wake now).1, (b.wake now).2.withWindow w) := by
  by_cases h : b.state = .opened ∧ b.isDue now
  · rw [wake_of_due h.1 h.2]
    exact wake_of_due (b := b.withWindow w) h.1 h.2
  · rw [wake_of_not_due h]
    exact wake_of_not_due (b := b.withWindow w) h

theorem take_withWindow (b : Breaker) (w : Window) (now : Nat) :
    (b.withWindow w).take now = ((b.take now).1, (b.take now).2.withWindow w) := by
  unfold take withWindow trialLimit
  dsimp only
  split
  · rfl
  · split <;> rfl
  · rfl

theorem releasePermit_withWindow (b : Breaker) (w : Window) (p : Permit) :
    (b.withWindow w).releasePermit p = (b.releasePermit p).withWindow w := by
  unfold releasePermit release withWindow
  dsimp only
  split
  · split <;> rfl
  · rfl

theorem answer_withWindow (b : Breaker) (w : Window) (now : Nat) (whole : Bool) :
    (b.withWindow w).answer now whole = b.answer now whole := by
  simp only [answer, wake_withWindow, take_withWindow]

/-- The effects listed are all that an outcome has. -/
theorem record_of_records {x : Outcome} {change : Option StateChange}
    (h : b.Records x now change b') : b.record x now = (change, b') := by
  cases h with
  | ignored hstate => simp [record, hstate]
  | counted hstate few =>
    have few : ¬exceeds b.policy (b.window.record x (b.elapsedSeconds now)).1 := few
    simp [record, hstate, few, tally]
  | tripped hstate many =>
    have many : exceeds b.policy (b.window.record x (b.elapsedSeconds now)).1 := many
    simp [record, hstate, many, tally, change]
  | failed hstate bad =>
    have bad : x.failed ∨ x.slow := by simpa [Outcome.isGood, or_iff_not_imp_left] using bad
    simp [record, hstate, bad, change]
  | passed hstate good few =>
    obtain ⟨hfailed, hslow⟩ : x.failed = false ∧ x.slow = false := by
      simpa [Outcome.isGood] using good
    simp only [record, hstate, hfailed, hslow, Bool.or_self, Bool.false_eq_true, if_false]
    exact if_neg (Nat.not_le.2 few)
  | healed hstate good enough =>
    obtain ⟨hfailed, hslow⟩ : x.failed = false ∧ x.slow = false := by
      simpa [Outcome.isGood] using good
    simp only [record, hstate, hfailed, hslow, Bool.or_self, Bool.false_eq_true, if_false]
    exact if_pos enough

/-- Windows with the same counts decide the same. -/
theorem exists_record_withWindow {x : Outcome}
    (h : ((b.withWindow w).tally x now).1 = (b.tally x now).1) :
    ∃ w', (b.withWindow w).record x now =
      ((b.record x now).1, (b.record x now).2.withWindow w') := by
  rcases hrecord : b.record x now with ⟨change, b'⟩
  cases records hrecord with
  | ignored hstate => exact ⟨w, record_of_records (.ignored hstate)⟩
  | counted hstate few => exact ⟨_, record_of_records (.counted hstate (by rwa [h]))⟩
  | tripped hstate many => exact ⟨_, record_of_records (.tripped hstate (by rwa [h]))⟩
  | failed hstate bad => exact ⟨w, record_of_records (.failed hstate bad)⟩
  | passed hstate good few => exact ⟨w, record_of_records (.passed hstate good few)⟩
  | healed hstate good enough => exact ⟨_, record_of_records (.healed hstate good enough)⟩

/-- Two breakers that keep one history in different windows, and are alike otherwise, make the same
change at a call, and stay alike. -/
theorem exists_called_withWindow {p : BreakPolicy}
    (h : b.window.Keeps p history (b.elapsedSeconds now))
    (h' : w.Keeps p history (b.elapsedSeconds now)) (whole : Bool) (c : BreakerCall) :
    (b.withWindow w).told now c = b.told now c ∧
      ∃ w', (b.withWindow w).called now whole c = (b.called now whole c).withWindow w' := by
  cases c with
  | acquire =>
    simp only [told, called, wake_withWindow, take_withWindow, true_and]
    exact ⟨w, (apply_ite (withWindow · w) ..).symm⟩
  | releasePermit p => exact ⟨rfl, w, b.releasePermit_withWindow w p⟩
  | complete micros cause =>
    cases hx : outcome? b.policy micros cause with
    | none =>
      have hx' : outcome? (b.withWindow w).policy micros cause = none := hx
      rw [told, told, called, called, complete_of_none hx, complete_of_none hx']
      exact ⟨rfl, w, rfl⟩
    | some x =>
      have hx' : outcome? (b.withWindow w).policy micros cause = some x := hx
      have htally : ((b.withWindow w).tally x now).1 = (b.tally x now).1 :=
        (h'.record x).1.trans (h.record x).1.symm
      obtain ⟨w', hrecord⟩ := exists_record_withWindow htally
      rw [told, told, called, called, complete_of_outcome hx, complete_of_outcome hx', hrecord]
      exact ⟨rfl, w', rfl⟩
  | window => exact ⟨rfl, _, rfl⟩

end Breaker

/-! ## Lives -/

/-- The second of an instant, counted from the epoch of the breaker. -/
def BreakerOrigin.second (o : BreakerOrigin) (now : Nat) : Nat := (now - o.epoch) / 1000000

/-- The counts that a breaker tells. -/
def BreakerRegistry.counts? (r : BreakerRegistry) (n now : Nat) : Option Counts :=
  (r.breaker? n).map fun b => (b.counts now).1

namespace BreakerLife

/-- What the breaker remembers after calls. -/
def remembered (l : BreakerLife) (history : List TimedOutcome) :
    List (Nat × BreakerCall) → List TimedOutcome
  | [] => history
  | c :: calls =>
    let history := match l.registry.breaker? 0 with
      | some b => b.remember c.1 history c.2
      | none => history
    (l.step c).remembered history calls

/-- The outcomes recorded in calls while a breaker of the origin given was closed, since it was made
or last closed. The latest one is first. -/
def history (o : BreakerOrigin) (calls : List (Nat × BreakerCall)) : List TimedOutcome :=
  (start o).remembered [] calls

/-- The calls other than reads of the counts. -/
def unread (calls : List (Nat × BreakerCall)) : List (Nat × BreakerCall) :=
  calls.filter fun c => c.2 ≠ .window

variable {o : BreakerOrigin} {l l' : BreakerLife} {b : Breaker} {w : Window}
  {past : List TimedOutcome} {now last : Nat} {calls : List (Nat × BreakerCall)}

theorem changes_step (h : l.registry.breaker? 0 = some b) (c : Nat × BreakerCall) :
    (l.step c).changes = l.changes ++ (b.told c.1 c.2).toList := by
  rw [step, h]
  exact changes_mk ..

/-- What every call preserves of a breaker and the history that it keeps, next to a life in which
the breaker keeps the same history in another window. -/
structure Mirrors (o : BreakerOrigin) (past : List TimedOutcome) (now : Nat) (l l' : BreakerLife)
    (b : Breaker) (w : Window) : Prop where
  breaker : l.registry.breaker? 0 = some b
  policy : b.policy = o.policy
  epoch : b.epoch = o.epoch
  keeps : b.window.Keeps o.policy past (b.elapsedSeconds now)
  registry : l'.registry = l.registry.update 0 (b.withWindow w)
  keeps' : w.Keeps o.policy past (b.elapsedSeconds now)
  changes : l'.changes = l.changes

theorem mirrors_start (o : BreakerOrigin) (now : Nat) :
    Mirrors o [] now (start o) (start o) (.create o.uri o.policy o.epoch) (.ofPolicy o.policy) where
  breaker := rfl
  policy := rfl
  epoch := rfl
  keeps := Window.keeps_ofPolicy ..
  registry := rfl
  keeps' := Window.keeps_ofPolicy ..
  changes := rfl

theorem Mirrors.elapsedSeconds (h : Mirrors o past now l l' b w) (now : Nat) :
    b.elapsedSeconds now = o.second now := by
  rw [Breaker.elapsedSeconds, h.epoch, BreakerOrigin.second]

theorem Mirrors.breaker' (h : Mirrors o past now l l' b w) :
    l'.registry.breaker? 0 = some (b.withWindow w) := by
  rw [h.registry, BreakerRegistry.breaker?_update_self h.breaker]

theorem Mirrors.mono (h : Mirrors o past now l l' b w) (hle : now ≤ last) :
    Mirrors o past last l l' b w :=
  have hsecond : b.elapsedSeconds now ≤ b.elapsedSeconds last := Nat.div_le_div_right (by omega)
  { h with keeps := h.keeps.mono hsecond, keeps' := h.keeps'.mono hsecond }

/-- A call is answered in both lives alike. -/
theorem Mirrors.step (h : Mirrors o past now l l' b w) (c : BreakerCall) :
    ∃ b' w', Mirrors o (b.remember now past c) now (l.step (now, c)) (l'.step (now, c)) b' w' := by
  rcases hannounce : l.registry.announce 0 (b.told now c) with ⟨whole, told⟩
  have htold : told.breaker? 0 = some b := by
    have htells := l.registry.onlyTells_announce 0 (b.told now c)
    rw [hannounce] at htells
    rw [htells.breaker?, h.breaker]
  obtain ⟨hsame, w', hcalled⟩ := Breaker.exists_called_withWindow h.keeps h.keeps' whole c
  have hmoves := b.moves_called now whole c
  have hregistry : (l.step (now, c)).registry = told.update 0 (b.called now whole c) := by
    rw [BreakerLife.step, BreakerRegistry.call_eq h.breaker, hannounce]
  have hregistry' : (l'.step (now, c)).registry =
      told.update 0 ((b.called now whole c).withWindow w') := by
    rw [BreakerLife.step, BreakerRegistry.call_eq h.breaker', hsame, h.registry,
      BreakerRegistry.announce_update, hannounce, hcalled, BreakerRegistry.update_update]
  have hsecond : (b.called now whole c).elapsedSeconds now = b.elapsedSeconds now := by
    rw [Breaker.elapsedSeconds, hmoves.epoch, Breaker.elapsedSeconds]
  refine ⟨b.called now whole c, w', ?_, hmoves.policy.trans h.policy,
    hmoves.epoch.trans h.epoch, ?_, ?_, ?_, ?_⟩
  · rw [hregistry, BreakerRegistry.breaker?_update_self htold]
  · rw [hsecond]
    exact Breaker.keeps_called h.keeps whole c
  · rw [hregistry, hregistry', BreakerRegistry.update_update]
  · have hremembers : (b.withWindow w).remember now past c = b.remember now past c := by
      unfold Breaker.remember
      rw [hsame]
      rfl
    have hkept := Breaker.keeps_called (b := b.withWindow w) h.keeps' whole c
    rw [hcalled, hremembers] at hkept
    rw [hsecond]
    exact hkept
  · rw [changes_step h.breaker, changes_step h.breaker', hsame, h.changes]

/-- A read in one life leaves both alike. -/
theorem Mirrors.read (h : Mirrors o past now l l' b w) :
    ∃ b', Mirrors o past now (l.step (now, .window)) l' b' w := by
  have hregistry : (l.step (now, .window)).registry = l.registry.update 0 (b.counts now).2 :=
    BreakerRegistry.call_eq h.breaker now .window
  refine ⟨(b.counts now).2, ?_, h.policy, h.epoch, h.keeps.counts.2, ?_, h.keeps', ?_⟩
  · rw [hregistry, BreakerRegistry.breaker?_update_self h.breaker]
  · rw [hregistry, BreakerRegistry.update_update, h.registry]
    rfl
  · rw [changes_step h.breaker, h.changes]
    exact (List.append_nil _).symm

/-- Calls are answered with reads as without. -/
theorem Mirrors.run (h : Mirrors o past now l l' b w)
    (hsorted : (now :: calls.map (·.1) ++ [last]).Pairwise (· ≤ ·)) :
    ∃ b' w', Mirrors o (l.remembered past calls) last (l.run calls)
      (l'.run (unread calls)) b' w' := by
  induction calls generalizing l l' b w past now with
  | nil => exact ⟨b, w, h.mono (by simpa using hsorted)⟩
  | cons c calls ih =>
    obtain ⟨instant, c⟩ := c
    obtain ⟨hfirst, hrest⟩ := List.pairwise_cons.1 hsorted
    have hinstant := h.mono (hfirst instant (by simp))
    rw [remembered, h.breaker]
    by_cases hread : c = .window
    · subst hread
      obtain ⟨b', hb'⟩ := hinstant.read
      have hunread : unread ((instant, .window) :: calls) = unread calls := by simp [unread]
      rw [hunread]
      exact ih hb' hrest
    · obtain ⟨b', w', hb'⟩ := hinstant.step c
      have hunread : unread ((instant, c) :: calls) = (instant, c) :: unread calls := by
        simp [unread, hread]
      rw [hunread]
      exact ih hb' hrest

/-! ## Faithfulness -/

/-- Whether nothing tells two lives apart at an instant. -/
structure LooksLike (l l' : BreakerLife) (now : Nat) : Prop where
  changes : l'.changes = l.changes
  deliveries : l'.registry.deliveries = l.registry.deliveries
  state : (l'.registry.breaker? 0).map (·.state) = (l.registry.breaker? 0).map (·.state)
  counts : l'.registry.counts? 0 now = l.registry.counts? 0 now
  acquire : (l'.registry.acquire 0 now).1 = (l.registry.acquire 0 now).1
  complete : ∀ micros cause,
    (l'.registry.complete 0 micros cause now).1 = (l.registry.complete 0 micros cause now).1

/-- How a breaker of the origin given, after calls up to an instant, shows its history. -/
structure IsFaithful (o : BreakerOrigin) (calls : List (Nat × BreakerCall)) (now : Nat) : Prop where
  /-- The counts are those of the part of the history that the policy counts. -/
  counts : ((start o).run calls).registry.counts? 0 now =
    some (.ofHistory (o.policy.counted (history o calls) (o.second now)))
  /-- An outcome opens a closed breaker exactly if the counts with it exceed the thresholds. -/
  opens : ∀ b, ((start o).run calls).registry.breaker? 0 = some b → b.state = .closed →
    ∀ micros cause x, Breaker.outcome? o.policy micros cause = some x →
      ((((start o).run calls).registry.complete 0 micros cause now).2.breaker? 0).map (·.state) =
        some (if Breaker.exceeds o.policy (.ofHistory (o.policy.counted
            (⟨o.second now, x⟩ :: history o calls) (o.second now))) then .opened else .closed)
  /-- Reading the counts changes nothing that is seen later. -/
  reads : ((start o).run calls).LooksLike ((start o).run (unread calls)) now

theorem Mirrors.counts? (h : Mirrors o past now l l' b w) :
    l.registry.counts? 0 now = some (.ofHistory (o.policy.counted past (o.second now))) ∧
      l'.registry.counts? 0 now = some (.ofHistory (o.policy.counted past (o.second now))) := by
  rw [BreakerRegistry.counts?, BreakerRegistry.counts?, h.breaker, h.breaker',
    ← h.elapsedSeconds]
  exact ⟨congrArg some h.keeps.counts.1, congrArg some h.keeps'.counts.1⟩

theorem Mirrors.looksLike (h : Mirrors o past now l l' b w) : l.LooksLike l' now where
  changes := h.changes
  deliveries := by rw [h.registry]; rfl
  state := by rw [h.breaker', h.breaker]; rfl
  counts := h.counts?.2.trans h.counts?.1.symm
  acquire := by
    rw [BreakerRegistry.acquire_eq h.breaker, BreakerRegistry.acquire_eq h.breaker', h.registry,
      BreakerRegistry.announce_update, Breaker.wake_withWindow, Breaker.answer_withWindow]
  complete micros cause := by
    have hchange : ((b.withWindow w).complete micros cause now).1 =
        (b.complete micros cause now).1 :=
      (Breaker.exists_called_withWindow h.keeps h.keeps' true (.complete micros cause)).1
    rw [BreakerRegistry.complete_eq h.breaker, BreakerRegistry.complete_eq h.breaker', hchange,
      h.registry, BreakerRegistry.announce_update, BreakerRegistry.announce_update,
      BreakerRegistry.announce_update]

theorem Mirrors.opens (h : Mirrors o past now l l' b w) (hclosed : b.state = .closed) {micros : Nat}
    {cause : Option String} {x : Outcome}
    (hx : Breaker.outcome? o.policy micros cause = some x) :
    ((l.registry.complete 0 micros cause now).2.breaker? 0).map (·.state) =
      some (if Breaker.exceeds o.policy (.ofHistory (o.policy.counted
          (⟨o.second now, x⟩ :: past) (o.second now))) then .opened else .closed) := by
  have htally : (b.tally x now).1 =
      .ofHistory (o.policy.counted (⟨o.second now, x⟩ :: past) (o.second now)) := by
    rw [← h.elapsedSeconds]
    exact (h.keeps.record x).1
  rw [← h.policy] at hx
  have hcomplete : (l.registry.complete 0 micros cause now).2.breaker? 0 =
      some (b.record x now).2 := by
    rw [BreakerRegistry.complete_eq h.breaker, (BreakerRegistry.onlyTells_announce ..).breaker?,
      BreakerRegistry.breaker?_update_self h.breaker, Breaker.complete_of_outcome hx]
  rw [hcomplete, ← htally, ← h.policy, Option.map_some]
  rcases hrecord : b.record x now with ⟨change, b'⟩
  cases Breaker.records hrecord with
  | counted _ few => simp [few, hclosed]
  | tripped _ many => simp [many]
  | ignored hstate | failed hstate | passed hstate | healed hstate => simp [hclosed] at hstate

/-- Whatever is called, a breaker shows its history, if no call lies before an earlier one. -/
theorem isFaithful_run (o : BreakerOrigin) (calls : List (Nat × BreakerCall)) (now : Nat)
    (h : (calls.map (·.1) ++ [now]).Pairwise (· ≤ ·)) : IsFaithful o calls now := by
  have hsorted : (0 :: calls.map (·.1) ++ [now]).Pairwise (· ≤ ·) :=
    List.pairwise_cons.2 ⟨fun _ _ => Nat.zero_le _, h⟩
  obtain ⟨b, w, hb⟩ := (mirrors_start o 0).run hsorted
  refine ⟨hb.counts?.1, fun d hd hclosed micros cause x hx => ?_, hb.looksLike⟩
  obtain rfl : b = d := Option.some.inj (hb.breaker.symm.trans hd)
  exact hb.opens hclosed hx

/-- A breaker that looks back on two seconds, and opens when at least half of two calls fail. -/
def forgetful : BreakerOrigin where
  uri := "breaker"
  service := "orders"
  policy := { windowKind := .time, windowSize := 2, minimumCalls := 2 }
  epoch := 0
  listeners := [{}]

/-- The call of the first second is too old in the third one. -/
theorem isFaithful_forgetful :
    IsFaithful forgetful
      [(5, .complete 3 none), (900000, .window), (2000000, .complete 3 (some "down"))] 2500000 :=
  isFaithful_run forgetful _ 2500000 (by decide)

end BreakerLife

end TrafficControl
