import TrafficControl.Proofs.Engine.Invariant

/-!
# Trial permits

A half-open breaker counts the trial permits that it granted in this round and that were not given
back. Through all that can happen in a session this is the number of those that calls under way
hold, and it never exceeds the limit (`Session.trials_eq_trialsHeld`). So a call that was refused,
by a breaker or a limiter, holds nothing, and no permit is given back twice.
-/

namespace TrafficControl

namespace Breaker

/-- Whether a permit is a trial of the round in progress. -/
def isTrial (b : Breaker) (p : Permit) : Bool := p.trial && p.generation = b.generation

/-- Whether a breaker, if it is half-open, counts the trials that are out. -/
structure CountsTrials (b : Breaker) (out : List Permit) : Prop where
  past : ∀ p ∈ out, p.generation ≤ b.generation
  trials : b.state = .halfOpen → b.trials = out.countP b.isTrial ∧ b.trials ≤ b.trialLimit

variable {b : Breaker} {out : List Permit}

/-- A new round has no trials out. -/
theorem CountsTrials.change (h : b.CountsTrials out) (after : BreakerState) (now : Nat) :
    (b.change after now).2.CountsTrials out where
  past p hp := Nat.le_succ_of_le (h.past p hp)
  trials hopen := by
    obtain rfl : after = .halfOpen := hopen
    have hnone : out.countP (b.change .halfOpen now).2.isTrial = 0 := by
      refine List.countP_eq_zero.2 fun p hp => ?_
      have hne : p.generation ≠ b.generation + 1 := Nat.ne_of_lt (Nat.lt_succ_of_le (h.past p hp))
      simp [isTrial, hne]
    rw [hnone, trials_change_halfOpen]
    exact ⟨rfl, Nat.zero_le _⟩

theorem CountsTrials.wake (h : b.CountsTrials out) (now : Nat) :
    (b.wake now).2.CountsTrials out := by
  by_cases hdue : b.state = .opened ∧ b.isDue now
  · rw [wake_of_due hdue.1 hdue.2]
    exact h.change .halfOpen now
  · rw [wake_of_not_due hdue]
    exact h

theorem CountsTrials.take (h : b.CountsTrials out) {now : Nat} {p : Option Permit} {b' : Breaker}
    (htake : b.take now = (p, b')) : b'.CountsTrials (out ++ p.toList) := by
  have hpast : ∀ trial, ∀ q ∈ out ++ [⟨trial, b.generation⟩], q.generation ≤ b.generation := by
    intro trial q hq
    rcases List.mem_append.1 hq with hold | hnew
    · exact h.past q hold
    · obtain rfl := List.mem_singleton.1 hnew
      exact Nat.le_refl _
  cases takes htake with
  | free hclosed => exact ⟨hpast false, fun hopen => nomatch hclosed.symm.trans hopen⟩
  | trial hopen few =>
    refine ⟨hpast true, fun _ => ⟨?_, few⟩⟩
    have hone : b.isTrial ⟨true, b.generation⟩ := by simp [isTrial]
    rw [Option.toList_some, List.countP_append]
    change b.trials + 1 = out.countP b.isTrial + [_].countP b.isTrial
    rw [(h.trials hopen).1, List.countP_singleton, if_pos hone]
  | none =>
    rw [Option.toList_none, List.append_nil]
    exact h

theorem CountsTrials.giveBack {older newer : List Permit} {p : Permit}
    (h : b.CountsTrials (older ++ p :: newer)) :
    (b.releasePermit p).CountsTrials (older ++ newer) := by
  have hsub := (List.sublist_cons_self p newer).append_left older
  have hpast : ∀ q ∈ older ++ newer, q.generation ≤ b.generation :=
    fun q hq => h.past q (hsub.subset hq)
  have hcount : (older ++ p :: newer).countP b.isTrial =
      (older ++ newer).countP b.isTrial + if b.isTrial p then 1 else 0 := by
    rw [List.countP_append, List.countP_append, List.countP_cons, Nat.add_assoc]
  by_cases hheld : b.state = .halfOpen ∧ p.trial ∧ p.generation = b.generation
  · obtain ⟨hopen, htrial, hgen⟩ := hheld
    have hone : b.isTrial p := by simp [isTrial, htrial, hgen]
    obtain ⟨htrials, hlimit⟩ := h.trials hopen
    rw [hcount, if_pos hone] at htrials
    rw [releasePermit_of_held hopen htrial hgen]
    refine ⟨hpast, fun _ => ⟨?_, ?_⟩⟩
    · exact Nat.sub_eq_of_eq_add htrials
    · exact Nat.le_trans (Nat.sub_le _ _) hlimit
  · rw [releasePermit_of_not_held hheld]
    refine ⟨hpast, fun hopen => ?_⟩
    have hnone : ¬b.isTrial p := by simpa [isTrial, hopen] using hheld
    have htrials := h.trials hopen
    rwa [hcount, if_neg hnone] at htrials

theorem CountsTrials.complete (h : b.CountsTrials out) (micros : Nat) (cause : Option String)
    (now : Nat) : (b.complete micros cause now).2.CountsTrials out := by
  cases houtcome : outcome? b.policy micros cause with
  | none =>
    rw [complete_of_none houtcome]
    exact h
  | some o =>
    rw [complete_of_outcome houtcome]
    rcases hrecord : b.record o now with ⟨c, b'⟩
    cases records hrecord with
    | ignored => exact h
    | counted => exact ⟨h.past, h.trials⟩
    | tripped =>
      have hcounted : { b with window := (b.tally o now).2 }.CountsTrials out := ⟨h.past, h.trials⟩
      exact hcounted.change .opened now
    | failed => exact h.change .opened now
    | passed => exact ⟨h.past, h.trials⟩
    | healed =>
      have hpassed : { b with successes := b.successes + 1 }.CountsTrials out := ⟨h.past, h.trials⟩
      exact hpassed.change .closed now

theorem invariant_countsTrials : Invariant fun b out _ => b.CountsTrials out where
  make _ _ _ := ⟨by simp, fun hopen => nomatch hopen⟩
  wake now h := h.wake now
  take h htake := h.take htake
  giveBack h := h.giveBack
  report r h _ := h.complete r.micros r.cause r.now

end Breaker

namespace Session

/-- The trial permits of a breaker in a generation that calls under way hold. -/
def trialsHeld (s : Session) (n generation : Nat) : Nat :=
  (s.live.flatMap (·.admission.held)).countP fun (m, p) =>
    m = n ∧ p.trial ∧ p.generation = generation

theorem trialsHeld_eq (s : Session) (n : Nat) (b : Breaker) :
    s.trialsHeld n b.generation = (permitsOf n s.held).countP b.isTrial := by
  rw [trialsHeld, permitsOf, List.countP_filterMap, held]
  congr 1
  funext held
  obtain ⟨m, p⟩ := held
  by_cases hm : m = n <;> simp [hm, Breaker.isTrial]

/-- A half-open breaker counts the trial permits of its round that calls under way hold, and there
are no more of them than its limit. -/
theorem trials_eq_trialsHeld (settings : Settings) (context : Context) (snapshot : Snapshot)
    (balancing : Balancing) (now : Nat) (events : List Event) {n : Nat} {b : Breaker}
    (hb : ((start settings context snapshot balancing now).run events).breaker? n = some b)
    (hopen : b.state = .halfOpen) :
    b.trials = ((start settings context snapshot balancing now).run events).trialsHeld n
        b.generation ∧
      b.trials ≤ b.trialLimit := by
  have hcounts := (satisfies_run Breaker.invariant_countsTrials settings context snapshot balancing
    now events).each n b (by rwa [ledger, BreakerRegistry.ledger, BreakerRegistry.getElem?_all])
  rw [trialsHeld_eq]
  exact hcounts.trials hopen

end Session

/-! ## One breaker -/

namespace OneBreaker

/-- It opens at the first failed call, wakes at once and closes at the first successful trial. -/
def policy : BreakPolicy := { name := "break", minimumCalls := 1, waitMillis := 0, trialCalls := 1 }

def service : Service where
  name := "orders"
  bundle := some { breaks := [policy] }

def session : Session := .start {} {} (.ofDocument { services := [service] }) .roundRobin 0

/-- A call that the breaker guards. -/
def call : Invocation := session.engine.invocation { service := "orders" } []

/-- Of two calls one fails and the other is still under way when a third one comes, as a trial. -/
def trying : List Event :=
  [.ask call .blocking, .ask call .blocking, .complete 1 (.failure 5 "down"),
    .ask call .blocking]

end OneBreaker

open OneBreaker in
/-- The third call holds the one trial permit. The permit of the first is not counted. -/
theorem trials_eq_trialsHeld_trying :
    ∃ b, (session.run trying).breaker? 0 = some b ∧ b.state = .halfOpen ∧
      b.trials = (session.run trying).trialsHeld 0 b.generation ∧ b.trials ≤ b.trialLimit := by
  have hstate : ((session.run trying).breaker? 0).map (·.state) = some .halfOpen := by decide
  obtain ⟨b, hb, hopen⟩ := Option.map_eq_some_iff.1 hstate
  exact ⟨b, hb, hopen, Session.trials_eq_trialsHeld {} {} _ .roundRobin 0 trying hb hopen⟩

end TrafficControl
