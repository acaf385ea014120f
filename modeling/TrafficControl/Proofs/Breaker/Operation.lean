import TrafficControl.Breaker.Registry

/-!
# Operations of a breaker

What each operation can do to a breaker is said once, here. `Breaker.wake_of_due` and
`Breaker.wake_of_not_due` tell when an open breaker becomes half-open, `Breaker.Takes` lists the
answers to a request for a permit and `Breaker.Records` the effects of an outcome. `Breaker.Moves`
is what all of them have in common : the state stays, with its generation, or it goes along one of
the four changes that are allowed, into the next generation.
-/

namespace TrafficControl

/-- The changes of state that a breaker can make. -/
inductive BreakerState.Allows : BreakerState → BreakerState → Prop where
  | trip : Allows closed opened
  | wake : Allows opened halfOpen
  | fail : Allows halfOpen opened
  | heal : Allows halfOpen closed

/-- Whether a call neither failed nor was slow. -/
def Outcome.isGood (o : Outcome) : Bool := !o.failed && !o.slow

namespace Breaker

variable {b : Breaker} {now : Nat}

theorem trialLimit_pos (b : Breaker) : 0 < b.trialLimit := by
  unfold trialLimit
  omega

/-! ## Changes of state -/

/-- The millisecond from which on the breaker wakes if it opens at the one given. -/
def wakesAt (b : Breaker) (millis : Int) : Int :=
  min (millis + b.policy.waitMillis.toNat) Word.greatest

theorem elapsedMillis_nonneg (b : Breaker) (now : Nat) : 0 ≤ b.elapsedMillis now := by
  unfold elapsedMillis Word.clamp Word.greatest
  omega

theorem elapsedMillis_mono (b : Breaker) {earlier later : Nat} (h : earlier ≤ later) :
    b.elapsedMillis earlier ≤ b.elapsedMillis later := by
  have hdiv : (earlier - b.epoch) / 1000 ≤ (later - b.epoch) / 1000 :=
    Nat.div_le_div_right (by omega)
  unfold elapsedMillis Word.clamp
  omega

@[simp] theorem state_change (b : Breaker) (after : BreakerState) (now : Nat) :
    (b.change after now).2.state = after := rfl

@[simp] theorem generation_change (b : Breaker) (after : BreakerState) (now : Nat) :
    (b.change after now).2.generation = b.generation + 1 := rfl

@[simp] theorem policy_change (b : Breaker) (after : BreakerState) (now : Nat) :
    (b.change after now).2.policy = b.policy := by
  cases after <;> rfl

@[simp] theorem epoch_change (b : Breaker) (after : BreakerState) (now : Nat) :
    (b.change after now).2.epoch = b.epoch := by
  cases after <;> rfl

@[simp] theorem trials_change_halfOpen (b : Breaker) (now : Nat) :
    (b.change .halfOpen now).2.trials = 0 := rfl

theorem retryAt_change_opened (b : Breaker) (now : Nat) :
    (b.change .opened now).2.retryAt = b.wakesAt (b.elapsedMillis now) := by
  have hnow := b.elapsedMillis_nonneg now
  change Word.saturatingAdd _ (Word.clamp _) = _
  unfold wakesAt Word.saturatingAdd Word.clamp Word.least Word.greatest
  omega

/-! ## Permits -/

theorem wake_of_due (hopen : b.state = .opened) (hdue : b.isDue now) :
    b.wake now = (some ⟨b.uri, .opened, .halfOpen⟩, (b.change .halfOpen now).2) := by
  simp [wake, hopen, hdue, change]

theorem wake_of_not_due (h : ¬(b.state = .opened ∧ b.isDue now)) : b.wake now = (none, b) := by
  simp [wake, h]

/-- What a breaker answers to a request for a permit. -/
inductive Takes (b : Breaker) (now : Nat) : Option Permit → Breaker → Prop where
  | free (h : b.state = .closed) :
      Takes b now (some ⟨false, b.generation⟩) { b with lastAcquired := some now }
  | trial (h : b.state = .halfOpen) (few : b.trials < b.trialLimit) :
      Takes b now (some ⟨true, b.generation⟩)
        { b with trials := b.trials + 1, lastAcquired := some now }
  | none (h : b.state = .opened ∨ b.state = .halfOpen) : Takes b now none b

theorem takes {p : Option Permit} {b' : Breaker} (h : b.take now = (p, b')) :
    Takes b now p b' := by
  suffices Takes b now (b.take now).1 (b.take now).2 by rwa [h] at this
  unfold take
  split
  · next h => exact .free h
  · next h =>
    split
    · next few => exact .trial h few
    · exact .none (.inr h)
  · next h => exact .none (.inl h)

theorem take_of_opened (h : b.state = .opened) : b.take now = (none, b) := by
  simp [take, h]

theorem take_of_few (h : b.state = .halfOpen) (few : b.trials < b.trialLimit) :
    b.take now = (some ⟨true, b.generation⟩,
      { b with trials := b.trials + 1, lastAcquired := some now }) := by
  simp [take, h, few]

/-- Giving a permit back frees a trial or does nothing. -/
theorem releasePermit_of_held {p : Permit} (hopen : b.state = .halfOpen) (htrial : p.trial)
    (hgen : p.generation = b.generation) :
    b.releasePermit p = { b with trials := b.trials - 1 } := by
  simp [releasePermit, release, hopen, htrial, hgen]

theorem releasePermit_of_not_held {p : Permit}
    (h : ¬(b.state = .halfOpen ∧ p.trial ∧ p.generation = b.generation)) :
    b.releasePermit p = b := by
  unfold releasePermit release
  split
  · next hp => exact if_neg fun hopen => h ⟨hopen, hp⟩
  · rfl

/-! ## Outcomes -/

/-- The window of the breaker with one outcome more, and its counts. -/
def tally (b : Breaker) (o : Outcome) (now : Nat) : Counts × Window :=
  b.window.record o (b.elapsedSeconds now)

/-- What an outcome does to a breaker. -/
inductive Records (b : Breaker) (o : Outcome) (now : Nat) :
    Option StateChange → Breaker → Prop where
  | ignored (h : b.state = .opened) : Records b o now none b
  | counted (h : b.state = .closed) (few : ¬exceeds b.policy (b.tally o now).1) :
      Records b o now none { b with window := (b.tally o now).2 }
  | tripped (h : b.state = .closed) (many : exceeds b.policy (b.tally o now).1) :
      Records b o now (some ⟨b.uri, b.state, .opened⟩)
        ({ b with window := (b.tally o now).2 }.change .opened now).2
  | failed (h : b.state = .halfOpen) (bad : ¬o.isGood) :
      Records b o now (some ⟨b.uri, b.state, .opened⟩) (b.change .opened now).2
  | passed (h : b.state = .halfOpen) (good : o.isGood) (few : b.successes + 1 < b.trialLimit) :
      Records b o now none { b with successes := b.successes + 1 }
  | healed (h : b.state = .halfOpen) (good : o.isGood) (enough : b.trialLimit ≤ b.successes + 1) :
      Records b o now (some ⟨b.uri, b.state, .closed⟩)
        ({ b with successes := b.successes + 1 }.change .closed now).2

theorem records {o : Outcome} {c : Option StateChange} {b' : Breaker}
    (h : b.record o now = (c, b')) : Records b o now c b' := by
  suffices Records b o now (b.record o now).1 (b.record o now).2 by rwa [h] at this
  have hgood : o.isGood ↔ ¬(o.failed || o.slow) := by
    unfold Outcome.isGood
    cases o.failed <;> cases o.slow <;> decide
  unfold record
  dsimp only
  split
  · next h =>
    split
    · next many => exact .tripped h many
    · next few => exact .counted h few
  · next h =>
    split
    · next bad => exact .failed h fun good => hgood.1 good bad
    · next good =>
      split
      · next enough => exact .healed h (hgood.2 good) enough
      · next few => exact .passed h (hgood.2 good) (Nat.not_le.1 few)
  · next h => exact .ignored h

theorem complete_of_outcome {micros : Nat} {cause : Option String} {o : Outcome}
    (h : outcome? b.policy micros cause = some o) :
    b.complete micros cause now = b.record o now := by
  simp [complete, h]

/-- A call that ended without outcome is not recorded. -/
theorem complete_of_none {micros : Nat} {cause : Option String}
    (h : outcome? b.policy micros cause = none) : b.complete micros cause now = (none, b) := by
  simp [complete, h]

theorem complete_of_opened (h : b.state = .opened) (micros : Nat) (cause : Option String) :
    b.complete micros cause now = (none, b) := by
  unfold complete
  split
  · simp [record, h]
  · rfl

/-! ## Moves -/

/-- Whether a breaker is still in the same round. -/
structure Stays (b b' : Breaker) : Prop where
  uri : b'.uri = b.uri
  policy : b'.policy = b.policy
  epoch : b'.epoch = b.epoch
  state : b'.state = b.state
  generation : b'.generation = b.generation
  retryAt : b'.retryAt = b.retryAt

theorem Stays.refl (b : Breaker) : b.Stays b := ⟨rfl, rfl, rfl, rfl, rfl, rfl⟩

theorem Stays.trans {b₁ b₂ b₃ : Breaker} (h : b₁.Stays b₂) (h' : b₂.Stays b₃) : b₁.Stays b₃ where
  uri := h'.uri.trans h.uri
  policy := h'.policy.trans h.policy
  epoch := h'.epoch.trans h.epoch
  state := h'.state.trans h.state
  generation := h'.generation.trans h.generation
  retryAt := h'.retryAt.trans h.retryAt

theorem Stays.trialLimit {b' : Breaker} (h : b.Stays b') : b'.trialLimit = b.trialLimit := by
  rw [Breaker.trialLimit, h.policy, Breaker.trialLimit]

/-- How a breaker goes on, with the change that it tells : it stays in its round, or enters the next
one by an allowed change. -/
inductive Moves (b : Breaker) (now : Nat) : Option StateChange → Breaker → Prop where
  | stays {b' : Breaker} (h : b.Stays b') : Moves b now none b'
  | goes {b' : Breaker} (after : BreakerState) (allowed : b.state.Allows after)
      (h : (b.change after now).2.Stays b') : Moves b now (some ⟨b.uri, b.state, after⟩) b'

theorem Moves.trans_stays {c : Option StateChange} {b₂ b₃ : Breaker} (h : b.Moves now c b₂)
    (h' : b₂.Stays b₃) : b.Moves now c b₃ := by
  cases h with
  | stays h => exact .stays (h.trans h')
  | goes after allowed h => exact .goes after allowed (h.trans h')

theorem Moves.policy {c : Option StateChange} {b' : Breaker} (h : b.Moves now c b') :
    b'.policy = b.policy := by
  cases h with
  | stays h => exact h.policy
  | goes after _ h => exact h.policy.trans (b.policy_change after now)

theorem Moves.epoch {c : Option StateChange} {b' : Breaker} (h : b.Moves now c b') :
    b'.epoch = b.epoch := by
  cases h with
  | stays h => exact h.epoch
  | goes after _ h => exact h.epoch.trans (b.epoch_change after now)

theorem Moves.wakesAt {c : Option StateChange} {b' : Breaker} (h : b.Moves now c b')
    (millis : Int) : b'.wakesAt millis = b.wakesAt millis := by
  rw [Breaker.wakesAt, h.policy, Breaker.wakesAt]

theorem Moves.elapsedMillis {c : Option StateChange} {b' : Breaker} (h : b.Moves now c b')
    (later : Nat) : b'.elapsedMillis later = b.elapsedMillis later := by
  rw [Breaker.elapsedMillis, h.epoch, Breaker.elapsedMillis]

/-- A breaker does not become half-open again at once. -/
theorem Moves.generation_of_halfOpen {c : Option StateChange} {b' : Breaker}
    (h : b.Moves now c b') (hopen : b.state = .halfOpen) (hopen' : b'.state = .halfOpen) :
    b'.generation = b.generation := by
  cases h with
  | stays h => exact h.generation
  | goes after allowed h =>
    obtain rfl : after = .halfOpen := h.state.symm.trans hopen'
    rw [hopen] at allowed
    exact nomatch allowed

theorem stays_take (b : Breaker) (now : Nat) : b.Stays (b.take now).2 := by
  rcases htake : b.take now with ⟨p, b'⟩
  cases takes htake with
  | free => exact ⟨rfl, rfl, rfl, rfl, rfl, rfl⟩
  | trial => exact ⟨rfl, rfl, rfl, rfl, rfl, rfl⟩
  | none => exact .refl b

theorem stays_releasePermit (b : Breaker) (p : Permit) : b.Stays (b.releasePermit p) := by
  by_cases h : b.state = .halfOpen ∧ p.trial ∧ p.generation = b.generation
  · rw [releasePermit_of_held h.1 h.2.1 h.2.2]
    exact ⟨rfl, rfl, rfl, rfl, rfl, rfl⟩
  · rw [releasePermit_of_not_held h]
    exact .refl b

theorem stays_counts (b : Breaker) (now : Nat) : b.Stays (b.counts now).2 :=
  ⟨rfl, rfl, rfl, rfl, rfl, rfl⟩

theorem moves_wake (b : Breaker) (now : Nat) : b.Moves now (b.wake now).1 (b.wake now).2 := by
  by_cases h : b.state = .opened ∧ b.isDue now
  · have hgoes : b.Moves now (some ⟨b.uri, b.state, .halfOpen⟩) (b.change .halfOpen now).2 :=
      .goes .halfOpen (by rw [h.1]; exact .wake) (.refl _)
    rw [wake_of_due h.1 h.2]
    rwa [h.1] at hgoes
  · rw [wake_of_not_due h]
    exact .stays (.refl b)

theorem moves_record (b : Breaker) (o : Outcome) (now : Nat) :
    b.Moves now (b.record o now).1 (b.record o now).2 := by
  rcases hrecord : b.record o now with ⟨c, b'⟩
  cases records hrecord with
  | ignored => exact .stays (.refl b)
  | counted => exact .stays ⟨rfl, rfl, rfl, rfl, rfl, rfl⟩
  | tripped h => exact .goes .opened (by rw [h]; exact .trip) ⟨rfl, rfl, rfl, rfl, rfl, rfl⟩
  | failed h => exact .goes .opened (by rw [h]; exact .fail) (.refl _)
  | passed => exact .stays ⟨rfl, rfl, rfl, rfl, rfl, rfl⟩
  | healed h => exact .goes .closed (by rw [h]; exact .heal) ⟨rfl, rfl, rfl, rfl, rfl, rfl⟩

theorem moves_complete (b : Breaker) (micros : Nat) (cause : Option String) (now : Nat) :
    b.Moves now (b.complete micros cause now).1 (b.complete micros cause now).2 := by
  cases h : outcome? b.policy micros cause with
  | some o =>
    rw [complete_of_outcome h]
    exact b.moves_record o now
  | none =>
    rw [complete_of_none h]
    exact .stays (.refl b)

end Breaker

end TrafficControl
