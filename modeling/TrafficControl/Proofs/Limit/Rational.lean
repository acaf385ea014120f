import Mathlib.Algebra.Order.Round
import Mathlib.Data.Rat.Floor
import Mathlib.Tactic.Linarith
import TrafficControl.Limit.Bucket

/-!
# Buckets of exact numbers

Over the rational numbers nothing is rounded but the cost of a reservation, which is truncated to
whole microseconds. A bucket in use has no debt, and its line of time ends between zero and the
greatest word (`Bucket.IsRunning`). As long as the clock stays there too, no arithmetic on instants
wraps, and an acquisition is described without words (`Bucket.acquire_eq`) : permits are paid for
at their cost after the end of the line of time, or else at the last instant.
-/

namespace TrafficControl

open Word (greatest)

/-- The exact value of a double, zero where it is not finite. -/
def exactFloat (x : Float) : ℚ :=
  match x.toModel.unpack with
  | .finite .positive mantissa exponent _ => mantissa * 2 ^ exponent
  | .finite .negative mantissa exponent _ => -(mantissa * 2 ^ exponent)
  | .zero _ | .infinity _ | .notANumber => 0

instance : Scalar ℚ where
  ofInt n := n
  ofFloat := exactFloat
  le a b := a ≤ b
  truncate x := Word.clamp (if 0 ≤ x then ⌊x⌋ else ⌈x⌉)

namespace Scalar

theorem min_eq (a b : ℚ) : Scalar.min a b = Min.min a b := by
  simp [Scalar.min, le, min_def]

theorem max_eq (a b : ℚ) : Scalar.max a b = Max.max a b := by
  simp [Scalar.max, le, max_comm a b, max_def]

theorem truncate_of_nonneg {x : ℚ} (h : 0 ≤ x) : truncate x = Word.clamp ⌊x⌋ :=
  congrArg Word.clamp (if_pos h)

end Scalar

namespace Bucket

/-! ## Buckets in use -/

/-- What holds of a bucket in use. -/
structure IsRunning (b : Bucket ℚ) : Prop where
  interval_pos : 0 < b.interval
  stored_nonneg : 0 ≤ b.stored
  capacity_nonneg : 0 ≤ b.capacity
  nextFree_nonneg : 0 ≤ b.nextFree
  nextFree_le : b.nextFree ≤ greatest

variable {p : RatePolicy} {b : Bucket ℚ} {now timeout : Int} {permits : ℕ}

/-- The bucket of a policy is full, and the line of time starts with it. -/
theorem ofPolicy_eq_ok (h : ofPolicy p now = .ok b) :
    0 < b.interval ∧ 1 ≤ b.capacity ∧ b.stored = b.capacity ∧ b.nextFree = now := by
  unfold ofPolicy at h
  split at h
  · simp at h
  · next w _ =>
    split at h
    · simp at h
    · next hpos =>
      obtain ⟨hthreshold, hmillis⟩ := not_or.1 hpos
      have hthreshold : 0 < (w.threshold.toNat : ℚ) := by
        exact_mod_cast Nat.pos_of_ne_zero fun h0 => hthreshold (UInt32.toNat_inj.1 h0)
      have hmillis : 0 < (w.millis.toNat : ℚ) := by
        exact_mod_cast Nat.pos_of_ne_zero fun h0 => hmillis (UInt64.toNat_inj.1 h0)
      obtain rfl := Except.ok.inj h
      refine ⟨?_, ?_, rfl, rfl⟩
      · change 0 < (w.millis.toNat : ℚ) * 1000 / (w.threshold.toNat : ℚ)
        positivity
      · change 1 ≤ Scalar.max _ _
        rw [Scalar.max_eq]
        exact le_max_right _ _

theorem isRunning_of_ofPolicy (h : ofPolicy p now = .ok b) (hnow : 0 ≤ now) (hle : now ≤ greatest) :
    b.IsRunning := by
  obtain ⟨hinterval, hcapacity, hstored, hnext⟩ := ofPolicy_eq_ok h
  exact ⟨hinterval, by linarith, by linarith, hnext ▸ hnow, hnext ▸ hle⟩

theorem wrappingSub_of_le {a b : Int} (ha : 0 ≤ a) (hab : a ≤ b) (hb : b ≤ greatest) :
    Word.wrappingSub b a = b - a :=
  Word.wrap_of_inRange ⟨by unfold Word.least; omega, by omega⟩

/-! ## Credit -/

theorem resync_of_le (h : now ≤ b.nextFree) : b.resync now = b := if_neg (not_lt.2 h)

/-- The time since the line of time was paid for becomes credit, up to the capacity. -/
theorem resync_of_lt (hb : b.IsRunning) (hnow : now ≤ greatest) (h : b.nextFree < now) :
    b.resync now = { b with
      stored := min b.capacity (b.stored + (now - b.nextFree) / b.interval), nextFree := now } := by
  have hsub := wrappingSub_of_le hb.nextFree_nonneg h.le hnow
  have hspan : (Scalar.ofInt (now - b.nextFree) : ℚ) = now - b.nextFree := Int.cast_sub ..
  rw [resync, if_pos h, hsub]
  simp only [hspan, Scalar.min_eq]

theorem nextFree_resync {α : Type} [Scalar α] (b : Bucket α) (now : Int) :
    (b.resync now).nextFree = max b.nextFree now := by
  unfold resync
  split
  · next h => exact (max_eq_right h.le).symm
  · next h => exact (max_eq_left (not_lt.1 h)).symm

theorem interval_resync (b : Bucket ℚ) (now : Int) : (b.resync now).interval = b.interval := by
  unfold resync
  split <;> rfl

/-- A bucket earns no more than the time that has passed. -/
theorem stored_resync_le (hb : b.IsRunning) (hnow : now ≤ greatest) :
    (b.resync now).stored * b.interval ≤
      b.stored * b.interval + ((b.resync now).nextFree - b.nextFree : Int) := by
  rcases le_or_gt now b.nextFree with h | h
  · simp [resync_of_le h]
  · rw [resync_of_lt hb hnow h]
    calc min b.capacity (b.stored + (now - b.nextFree) / b.interval) * b.interval
        ≤ (b.stored + (now - b.nextFree) / b.interval) * b.interval :=
          mul_le_mul_of_nonneg_right (min_le_right _ _) hb.interval_pos.le
      _ = b.stored * b.interval + (now - b.nextFree) := by
          rw [add_mul, div_mul_cancel₀ _ hb.interval_pos.ne']
      _ = b.stored * b.interval + ((now - b.nextFree : Int) : ℚ) := by push_cast; rfl

theorem IsRunning.resync (hb : b.IsRunning) (hnow : now ≤ greatest) :
    (b.resync now).IsRunning := by
  rcases le_or_gt now b.nextFree with h | h
  · rwa [resync_of_le h]
  · have hearned : 0 ≤ ((now : ℚ) - b.nextFree) / b.interval := by
      have hlt : (b.nextFree : ℚ) < now := by exact_mod_cast h
      exact div_nonneg (by linarith) hb.interval_pos.le
    have hnext := hb.nextFree_nonneg
    rw [resync_of_lt hb hnow h]
    exact ⟨hb.interval_pos, le_min hb.capacity_nonneg (add_nonneg hb.stored_nonneg hearned),
      hb.capacity_nonneg, by dsimp only; omega, hnow⟩

/-! ## Acquisition -/

/-- The stored permits that a request spends. -/
def spent (b : Bucket ℚ) (permits : ℕ) : ℚ := min permits b.stored

/-- The whole microseconds that a request pays for the permits that were not stored. -/
def cost (b : Bucket ℚ) (permits : ℕ) : Int := ⌊(permits - b.spent permits) * b.interval⌋

/-- The bucket after permits were reserved. -/
def paid (b : Bucket ℚ) (permits : ℕ) : Bucket ℚ :=
  { b with
    stored := b.stored - b.spent permits, nextFree := min (b.nextFree + b.cost permits) greatest }

theorem unspent_nonneg (b : Bucket ℚ) (permits : ℕ) : 0 ≤ (permits : ℚ) - b.spent permits :=
  sub_nonneg.2 (min_le_left _ _)

theorem cost_nonneg (hb : b.IsRunning) (permits : ℕ) : 0 ≤ b.cost permits :=
  Int.floor_nonneg.2 (mul_nonneg (b.unspent_nonneg permits) hb.interval_pos.le)

theorem nextFree_le_paid (hb : b.IsRunning) (permits : ℕ) :
    b.nextFree ≤ (b.paid permits).nextFree :=
  le_min (le_add_of_nonneg_right (cost_nonneg hb permits)) hb.nextFree_le

theorem IsRunning.paid (hb : b.IsRunning) (permits : ℕ) : (b.paid permits).IsRunning :=
  ⟨hb.interval_pos, sub_nonneg.2 (min_le_right _ _), hb.capacity_nonneg,
    hb.nextFree_nonneg.trans (nextFree_le_paid hb permits), min_le_right _ _⟩

theorem saturatingAdd_cost (hb : b.IsRunning) (permits : ℕ) :
    Word.saturatingAdd b.nextFree (Word.clamp (b.cost permits)) = (b.paid permits).nextFree := by
  have hcost := cost_nonneg hb permits
  have hnext := hb.nextFree_nonneg
  simp only [Word.saturatingAdd, Word.clamp, paid, Word.least, greatest]
  omega

theorem saturatingAdd_wrap_neg (hb : b.IsRunning) (hnow : 0 ≤ now) (hpast : now ≤ b.nextFree) :
    Word.saturatingAdd b.nextFree (Word.wrap (-now)) = b.nextFree - now := by
  have hnext := hb.nextFree_le
  unfold greatest at hnext
  have hneg : Word.InRange (-now) := by
    unfold Word.InRange Word.least greatest
    omega
  have hspan : Word.InRange (b.nextFree + -now) := by
    unfold Word.InRange Word.least greatest
    omega
  rw [Word.wrap_of_inRange hneg, Word.saturatingAdd, Word.clamp_of_inRange hspan]
  rfl

/-- Permits are reserved if the instant at which they are paid for is near enough. -/
theorem reserve_eq (hb : b.IsRunning) (hnow : 0 ≤ now) (hpast : now ≤ b.nextFree) :
    b.reserve (permits : ℚ) now timeout =
      if timeout < (b.paid permits).nextFree - now then (none, b)
      else (some (b.paid permits).nextFree, b.paid permits) := by
  have hspent : Scalar.min (permits : ℚ) b.stored = b.spent permits := Scalar.min_eq ..
  have hcost : Scalar.truncate (((permits : ℚ) - b.spent permits) * b.interval) =
      Word.clamp (b.cost permits) :=
    Scalar.truncate_of_nonneg (mul_nonneg (b.unspent_nonneg permits) hb.interval_pos.le)
  have hready := saturatingAdd_cost hb permits
  have hfar := saturatingAdd_wrap_neg (hb.paid permits) hnow
    (hpast.trans (nextFree_le_paid hb permits))
  rw [← hcost] at hready
  rw [reserve, resync_of_le hpast]
  simp only [hspent]
  change (if timeout < Word.saturatingAdd (Word.saturatingAdd b.nextFree (Scalar.truncate
    (((permits : ℚ) - b.spent permits) * b.interval))) (Word.wrap (-now)) then _ else _) = _
  rw [hready, hfar]
  rfl

/-- Permits are granted if the instant at which they are paid for is near enough, and the caller
waits for it. -/
theorem acquire_eq (hb : b.IsRunning) (hnow : 0 ≤ now) (hle : now ≤ greatest) :
    b.acquire permits now timeout =
      if timeout < ((b.resync now).paid permits).nextFree - now then (none, b.resync now)
      else (some (((b.resync now).paid permits).nextFree - now), (b.resync now).paid permits) := by
  have hrun := hb.resync hle
  have hpast : now ≤ (b.resync now).nextFree := by
    rw [nextFree_resync]
    exact le_max_right _ _
  have hreserve : b.reserve permits now timeout = (b.resync now).reserve permits now timeout := by
    rw [reserve, reserve, resync_of_le hpast]
  have hpermits : (Scalar.ofInt (permits : Int) : ℚ) = permits := Int.cast_natCast permits
  rw [acquire, hpermits, hreserve, reserve_eq hrun hnow hpast]
  by_cases hfar : timeout < ((b.resync now).paid permits).nextFree - now
  · simp only [if_pos hfar, Option.map_none]
  · simp only [if_neg hfar, Option.map_some]
    have hready := hpast.trans (nextFree_le_paid hrun permits)
    have hwait := wrappingSub_of_le hnow hready (hrun.paid permits).nextFree_le
    rw [hwait, max_eq_left (sub_nonneg.2 hready)]

end Bucket

end TrafficControl
