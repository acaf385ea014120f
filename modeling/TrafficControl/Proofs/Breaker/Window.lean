import Mathlib.Data.List.Basic
import TrafficControl.Breaker.Window

/-!
# Windows and histories

A window forgets outcomes as it goes. What it is meant to show is a part of the whole history : the
latest outcomes, or those of the latest seconds (`BreakPolicy.counted`). `Window.Keeps` says that
a window still holds what it needs to count that part now and at any later second. Recording an
outcome, dropping what is too old and emptying the window preserve it, and the counts of a window
that keeps a history are those of the part that is meant (`Window.Keeps.counts`,
`Window.Keeps.record`).
-/

namespace TrafficControl

/-- An outcome and the second in which it was recorded. -/
structure TimedOutcome where
  second : Nat
  outcome : Outcome
deriving DecidableEq

/-- How far a policy looks back, in calls or in seconds. -/
def BreakPolicy.span (p : BreakPolicy) : Nat := max p.windowSize.toNat 1

/-- The part of a history that a policy counts at a second. A history has the latest outcome
first. -/
def BreakPolicy.counted (p : BreakPolicy) (history : List TimedOutcome) (now : Nat) :
    List TimedOutcome :=
  match p.windowKind with
  | .count => history.take p.span
  | .time => history.filter fun t => now < t.second + p.span

theorem BreakPolicy.span_pos (p : BreakPolicy) : 0 < p.span := by
  unfold span
  omega

namespace Counts

/-- The numbers of calls, failures and slow calls among outcomes. -/
def ofHistory (history : List TimedOutcome) : Counts where
  calls := history.length
  failures := history.countP (·.outcome.failed)
  slow := history.countP (·.outcome.slow)

theorem add_comm (a b : Counts) : a.add b = b.add a := by
  simp only [add, Nat.add_comm]

theorem add_assoc (a b c : Counts) : (a.add b).add c = a.add (b.add c) := by
  simp only [add, Nat.add_assoc]

theorem ofHistory_cons (t : TimedOutcome) (history : List TimedOutcome) :
    ofHistory (t :: history) = (ofOutcome t.outcome).add (ofHistory history) := by
  simp only [ofHistory, add, ofOutcome, List.length_cons, List.countP_cons, Nat.add_comm]
  cases t.outcome.failed <;> cases t.outcome.slow <;> rfl

@[simp] theorem sum_cons (c : Counts) (l : List Counts) : sum (c :: l) = c.add (sum l) := rfl

theorem sum_outcomes (history : List TimedOutcome) :
    sum (history.map fun t => ofOutcome t.outcome) = ofHistory history := by
  induction history with
  | nil => rfl
  | cons t history ih => rw [List.map_cons, sum_cons, ih, ofHistory_cons]

end Counts

namespace Window

/-- Whether a window holds what it takes to count the part of a history that a policy counts, at the
second given and at later ones. -/
inductive Keeps (p : BreakPolicy) (history : List TimedOutcome) (now : Nat) : Window → Prop
  | count (kind : p.windowKind = .count) :
      Keeps p history now (.count p.span ((history.map (·.outcome)).take p.span))
  | time {seconds : List SecondCounts} (kind : p.windowKind = .time)
      (sums : ∀ later, now ≤ later →
        (prune (.time p.span seconds) later).held = .ofHistory (p.counted history later)) :
      Keeps p history now (.time p.span seconds)

variable {p : BreakPolicy} {history : List TimedOutcome} {now later : Nat} {w : Window}

theorem keeps_ofPolicy (p : BreakPolicy) (now : Nat) : (ofPolicy p).Keeps p [] now := by
  cases hkind : p.windowKind with
  | count =>
    have h : ofPolicy p = .count p.span [] := by simp [ofPolicy, hkind, BreakPolicy.span]
    simpa [h] using @Keeps.count p [] now hkind
  | time =>
    have h : ofPolicy p = .time p.span [] := by simp [ofPolicy, hkind, BreakPolicy.span]
    rw [h]
    exact .time hkind fun later _ => by rw [BreakPolicy.counted, hkind]; rfl

theorem Keeps.reset (h : w.Keeps p history now) : w.reset.Keeps p [] now := by
  cases h with
  | count kind => simpa [Window.reset] using @Keeps.count p [] now kind
  | time kind => exact .time kind fun later _ => by rw [BreakPolicy.counted, kind]; rfl

theorem Keeps.mono (h : w.Keeps p history now) (hle : now ≤ later) : w.Keeps p history later := by
  cases h with
  | count kind => exact .count kind
  | time kind sums => exact .time kind fun last hlast => sums last (Nat.le_trans hle hlast)

/-- What is too old now is too old later. -/
theorem prune_prune (w : Window) (hle : now ≤ later) :
    (w.prune now).prune later = w.prune later := by
  cases w with
  | count size outcomes => rfl
  | time size seconds =>
    have hold : ∀ s : SecondCounts, later - (size - 1) ≤ s.second → now - (size - 1) ≤ s.second :=
      fun s hs => by omega
    simp only [prune, List.filter_filter, time.injEq, true_and]
    refine List.filter_congr fun s _ => ?_
    simp only [Bool.and_eq_left_iff_imp, decide_eq_true_eq]
    exact hold s

theorem Keeps.prune (h : w.Keeps p history now) : (w.prune now).Keeps p history now := by
  cases h with
  | count kind => exact .count kind
  | @time seconds kind sums =>
    refine .time kind fun later hle => ?_
    rw [← sums later hle]
    exact congrArg held (prune_prune (.time p.span seconds) hle)

theorem Keeps.held_prune (h : w.Keeps p history now) :
    (w.prune now).held = .ofHistory (p.counted history now) := by
  cases h with
  | count kind =>
    simp only [Window.prune, held, BreakPolicy.counted, kind]
    rw [← Counts.sum_outcomes, ← List.map_take, List.map_map]
    rfl
  | time kind sums => exact sums now (Nat.le_refl now)

/-- The counts of a window are those of the part of the history that is meant, and reading them
loses nothing of it. -/
theorem Keeps.counts (h : w.Keeps p history now) :
    (w.counts now).1 = .ofHistory (p.counted history now) ∧
      (w.counts now).2.Keeps p history now :=
  ⟨h.held_prune, h.prune⟩

/-! ## Recording -/

/-- The counts of the seconds that are not before the one given. -/
def sumSince (oldest : Nat) (seconds : List SecondCounts) : Counts :=
  Counts.sum ((seconds.filter fun s => oldest ≤ s.second).map (·.counts))

theorem sumSince_cons (oldest : Nat) (s : SecondCounts) (seconds : List SecondCounts) :
    sumSince oldest (s :: seconds) =
      if oldest ≤ s.second then s.counts.add (sumSince oldest seconds)
      else sumSince oldest seconds := by
  simp only [sumSince, List.filter_cons, decide_eq_true_eq]
  split <;> rfl

/-- An outcome counts for every second from which on the present one is not too old, whether its
second is held already or not. -/
theorem exists_add_time (size : Nat) (seconds : List SecondCounts) (o : Outcome) (now : Nat) :
    ∃ seconds', add (.time size seconds) o now = .time size seconds' ∧
      ∀ oldest, sumSince oldest seconds' =
        if oldest ≤ now then (Counts.ofOutcome o).add (sumSince oldest seconds)
        else sumSince oldest seconds := by
  cases seconds with
  | nil => exact ⟨_, rfl, fun oldest => sumSince_cons ..⟩
  | cons s seconds =>
    by_cases hs : s.second = now
    · refine ⟨_, if_pos hs, fun oldest => ?_⟩
      rw [sumSince_cons, sumSince_cons, hs]
      split
      · rw [Counts.add_comm s.counts, Counts.add_assoc]
      · rfl
    · exact ⟨_, if_neg hs, fun oldest => sumSince_cons ..⟩

theorem Keeps.add (h : w.Keeps p history now) (o : Outcome) :
    (w.add o now).Keeps p (⟨now, o⟩ :: history) now := by
  have hpos := p.span_pos
  cases h with
  | count kind =>
    have htake : (o :: (history.map (·.outcome)).take p.span).take p.span =
        (o :: history.map (·.outcome)).take p.span := by
      obtain ⟨size, hsize⟩ := Nat.exists_eq_add_of_lt hpos
      simp [hsize, List.take_take]
    rw [Window.add, htake]
    exact .count kind
  | @time seconds kind sums =>
    obtain ⟨seconds', hadd, hsum⟩ := exists_add_time p.span seconds o now
    rw [hadd]
    refine .time kind fun later hle => ?_
    -- The edge of the window is the same for the sum and for the history.
    have hedge : later - (p.span - 1) ≤ now ↔ later < now + p.span := by omega
    have hheld : sumSince (later - (p.span - 1)) seconds = .ofHistory (p.counted history later) :=
      sums later hle
    have hcounted : p.counted (⟨now, o⟩ :: history) later =
        if later < now + p.span then ⟨now, o⟩ :: p.counted history later
        else p.counted history later := by
      simp only [BreakPolicy.counted, kind, List.filter_cons, decide_eq_true_eq]
    calc sumSince (later - (p.span - 1)) seconds'
      _ = if later < now + p.span then
            (Counts.ofOutcome o).add (.ofHistory (p.counted history later))
          else .ofHistory (p.counted history later) := by
        simp only [hsum, hheld, hedge]
      _ = .ofHistory (p.counted (⟨now, o⟩ :: history) later) := by
        rw [hcounted]
        split
        · rw [Counts.ofHistory_cons]
        · rfl

/-- An outcome is recorded in the history, and the counts with it are those of the part of the
history that is meant. -/
theorem Keeps.record (h : w.Keeps p history now) (o : Outcome) :
    (w.record o now).1 = .ofHistory (p.counted (⟨now, o⟩ :: history) now) ∧
      (w.record o now).2.Keeps p (⟨now, o⟩ :: history) now :=
  (h.add o).counts

end Window

end TrafficControl
