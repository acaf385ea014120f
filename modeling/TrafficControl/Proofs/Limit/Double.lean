import TrafficControl.Limit.Call
import TrafficControl.Proofs.Limit.Rational
import TrafficControl.Proofs.Number.Arithmetic

/-!
# Buckets of doubles

The bucket that runs counts in doubles, and every operation on them is rounded. What it needs of
them is their order : a lesser number is one of two, a sum and a quotient are numbers again, and a
difference with something smaller is no more than what was there. The interval of a bucket in use
is positive and finite, its stored permits are between nothing and its capacity, and its line of
time ends between zero and the greatest word (`Bucket.IsUsable`).

This is kept by every call at a reading that is not negative, whatever the readings before were
(`Bucket.IsUsable.run`). No arithmetic on instants leaves the words for this reason, and the line
of time never gets shorter (`Bucket.isSound_run`).
-/

namespace TrafficControl

open Word (greatest InRange)

/-! ## Scalars -/

section Scalars

variable {a b : Float} {v w : WithTop ℚ}

theorem isDouble_zero : IsDouble 0 0 := Weighs.zero .positive

theorem IsDouble.zero_le (h : IsDouble a v) : 0 ≤ a :=
  (isDouble_zero.le_iff h).2 (Weighs.nonneg h)

theorem IsDouble.not_lt_zero (h : IsDouble a v) : ¬a < 0 := fun hlt =>
  absurd ((h.lt_iff isDouble_zero).1 hlt) (not_lt.2 (Weighs.nonneg h))

/-- What a word weighs as a double that is not negative. -/
theorem exists_isDouble_ofInt {n : ℤ} (hn : 0 ≤ n) (hle : n ≤ 2 ^ 64) :
    ∃ q : ℚ, IsDouble (Scalar.ofInt n) q ∧ q ≤ 2 ^ (64 : ℤ) ∧ (0 < n → 1 ≤ q) := by
  obtain ⟨n, rfl⟩ := Int.eq_ofNat_of_zero_le hn
  obtain ⟨v, hv, hround⟩ := exists_isDouble_ofNat n
  have hle' : (n : ℚ) ≤ 2 ^ (64 : ℤ) := by exact_mod_cast hle
  obtain ⟨q, rfl, hq⟩ := hround.exists_coe (by decide) (by decide) (by decide) hle'
  refine ⟨q, hv, hq, fun hpos => ?_⟩
  exact WithTop.coe_le_coe.1 (hround.le_of_le (by decide) isDouble_one (by exact_mod_cast hpos))

theorem IsDouble.min (ha : IsDouble a v) (hb : IsDouble b w) :
    IsDouble (Scalar.min a b) (min v w) := by
  have h := ha.le_iff hb
  change IsDouble (if decide (a ≤ b) then a else b) _
  by_cases hle : a ≤ b
  · rw [if_pos (decide_eq_true hle), min_eq_left (h.1 hle)]
    exact ha
  · rw [if_neg (by simpa using hle), min_eq_right (le_of_not_ge fun hvw => hle (h.2 hvw))]
    exact hb

/-- The greater of two numbers is at least the second one, also where the first is no number. -/
theorem IsDouble.exists_max (a : Float) (hb : IsDouble b w) :
    ∃ v, IsDouble (Scalar.max a b) v ∧ w ≤ v := by
  change ∃ v, IsDouble (if decide (b ≤ a) then a else b) v ∧ _
  by_cases hle : b ≤ a
  · obtain ⟨v, hv⟩ := hb.exists_of_le hle
    rw [if_pos (decide_eq_true hle)]
    exact ⟨v, hv, (hb.le_iff hv).1 hle⟩
  · rw [if_neg (by simpa using hle)]
    exact ⟨w, hb, le_rfl⟩

/-- A number that is not negative is truncated to a word that is not negative. -/
theorem truncateFloat_bounds (h : ¬a < 0) : 0 ≤ truncateFloat a ∧ truncateFloat a ≤ greatest := by
  have hle : Nat.min a.toUInt64.toNat 0x7FFFFFFFFFFFFFFF ≤ 0x7FFFFFFFFFFFFFFF :=
    Nat.min_le_right _ _
  rw [truncateFloat, if_neg h]
  exact ⟨Int.natCast_nonneg _, Int.ofNat_le.2 hle⟩

end Scalars

namespace Bucket

/-! ## Buckets in use -/

/-- Whether a stopwatch can read an instant. -/
def IsReading (now : Int) : Prop := 0 ≤ now ∧ now ≤ greatest

instance (now : Int) : Decidable (IsReading now) := inferInstanceAs (Decidable (_ ∧ _))

/-- What holds of a bucket in use. -/
structure IsUsable (b : Bucket Float) : Prop where
  interval : ∃ q : ℚ, 0 < q ∧ IsDouble b.interval q
  stored : ∃ v w, IsDouble b.stored v ∧ IsDouble b.capacity w ∧ v ≤ w
  nextFree : IsReading b.nextFree

variable {p : RatePolicy} {b : Bucket Float} {start now timeout : Int}

/-- The time from one permit to the next is positive and finite. -/
theorem exists_interval {w : RateWindow} (hthreshold : w.threshold ≠ 0) (hmillis : w.millis ≠ 0) :
    ∃ q : ℚ, 0 < q ∧ IsDouble (Scalar.ofInt w.millis.toNat * Scalar.ofInt 1000 /
      Scalar.ofInt w.threshold.toNat) q := by
  have hm := w.millis.toNat_lt
  have ht := w.threshold.toNat_lt
  have hm' : w.millis.toNat ≠ 0 := fun h => hmillis (UInt64.toNat_inj.1 h)
  have ht' : w.threshold.toNat ≠ 0 := fun h => hthreshold (UInt32.toNat_inj.1 h)
  obtain ⟨q₁, hq₁, hle₁, hone₁⟩ := exists_isDouble_ofInt (n := w.millis.toNat) (by omega) (by omega)
  obtain ⟨q₂, hq₂, hle₂, hone₂⟩ := exists_isDouble_ofInt (n := 1000) (by omega) (by omega)
  obtain ⟨q₃, hq₃, hle₃, hone₃⟩ :=
    exists_isDouble_ofInt (n := w.threshold.toNat) (by omega) (by omega)
  have hone₁ := hone₁ (by omega)
  have hone₂ := hone₂ (by omega)
  have hone₃ := hone₃ (by omega)
  obtain ⟨u, hu, hround⟩ := IsDouble.mul hq₁ hq₂
  have hle : q₁ * q₂ ≤ 2 ^ (128 : ℤ) := by
    calc q₁ * q₂ ≤ 2 ^ (64 : ℤ) * 2 ^ (64 : ℤ) :=
          mul_le_mul hle₁ hle₂ (by linarith) (by positivity)
      _ = 2 ^ (128 : ℤ) := by norm_num
  obtain ⟨r, rfl, hr⟩ := hround.exists_coe (by decide) (by decide) (by decide) hle
  have hr' : 1 ≤ r := WithTop.coe_le_coe.1
    (hround.le_of_le (by decide) isDouble_one (one_le_mul_of_one_le_of_one_le hone₁ hone₂))
  obtain ⟨u, hu, hround⟩ := IsDouble.div hu hq₃ (by linarith)
  have hquot : r / q₃ ≤ 2 ^ (128 : ℤ) := (div_le_self (by linarith) hone₃).trans hr
  obtain ⟨q, rfl, -⟩ := hround.exists_coe (by decide) (by decide) (by decide) hquot
  have hquot' : 2 ^ (-64 : ℤ) ≤ r / q₃ := by
    rw [zpow_neg, ← one_div]
    exact div_le_div₀ (by linarith) hr' (by linarith) hle₃
  obtain ⟨x, hx⟩ : ∃ x, Weighs .binary64 x ((2 ^ (-64 : ℤ) : ℚ) : WithTop ℚ) :=
    weighs_two_pow (by decide) (by decide)
  have hpos := WithTop.coe_le_coe.1 (hround.le_of_le (by decide) hx hquot')
  exact ⟨q, lt_of_lt_of_le (by positivity) hpos, hu⟩

/-- The bucket of a policy is full, and it holds at least one permit. -/
theorem isUsable_of_ofPolicy (h : ofPolicy p start = .ok b) (hstart : IsReading start) :
    b.IsUsable := by
  unfold ofPolicy at h
  split at h
  · simp at h
  · next w _ =>
    split at h
    · simp at h
    · next hpos =>
      obtain ⟨hthreshold, hmillis⟩ := not_or.1 hpos
      obtain ⟨q, hq, -, -⟩ := exists_isDouble_ofInt (n := 1) (by omega) (by omega)
      obtain ⟨v, hv, -⟩ := hq.exists_max
        (Scalar.max p.burstSeconds 0 * (Scalar.ofInt 1000000 / (Scalar.ofInt w.millis.toNat *
          Scalar.ofInt 1000 / Scalar.ofInt w.threshold.toNat)))
      obtain rfl := Except.ok.inj h
      exact ⟨exists_interval hthreshold hmillis, ⟨v, v, hv, hv, le_rfl⟩, hstart⟩

/-- The time that was not used becomes credit, which the capacity bounds. -/
theorem IsUsable.resync (hb : b.IsUsable) (hnow : IsReading now) : (b.resync now).IsUsable := by
  unfold Bucket.resync
  split
  · next hlt =>
    obtain ⟨⟨i, hi, hinterval⟩, ⟨v, w, hv, hw, -⟩, hnext⟩ := hb
    have hsub := wrappingSub_of_le hnext.1 hlt.le hnow.2
    have hspan : now - b.nextFree ≤ 2 ^ 64 := by
      have := hnow.2
      have := hnext.1
      unfold greatest at *
      omega
    obtain ⟨q, hq, -, -⟩ := exists_isDouble_ofInt (sub_nonneg.2 hlt.le) hspan
    obtain ⟨u, hu, -⟩ := IsDouble.div hq hinterval hi
    obtain ⟨s, hs⟩ := IsDouble.add hv hu
    rw [hsub]
    exact ⟨⟨i, hi, hinterval⟩, ⟨_, w, hw.min hs, hw, min_le_left _ _⟩, hnow⟩
  · exact hb

/-- The line of time ends at a word that is not before its former end. -/
theorem saturatingAdd_bounds {a c : Int} (ha : IsReading a) (hc : 0 ≤ c) :
    a ≤ Word.saturatingAdd a c ∧ Word.saturatingAdd a c ≤ greatest := by
  have := ha.1
  have := ha.2
  unfold Word.saturatingAdd Word.clamp Word.least greatest at *
  omega

/-- The distance of two instants that are not negative is a word. -/
theorem inRange_sub {a c : Int} (ha : IsReading a) (hc : IsReading c) : InRange (a - c) := by
  have := ha.1
  have := ha.2
  have := hc.1
  have := hc.2
  unfold InRange Word.least greatest at *
  omega

theorem inRange_neg (hnow : IsReading now) : InRange (-now) := by
  have h := inRange_sub ⟨le_rfl, by decide⟩ hnow
  rwa [zero_sub] at h

theorem saturatingAdd_wrap_neg_eq {ready : Int} (hready : IsReading ready) (hnow : IsReading now) :
    Word.saturatingAdd ready (Word.wrap (-now)) = ready - now := by
  rw [Word.wrap_of_inRange (inRange_neg hnow), Word.saturatingAdd, ← sub_eq_add_neg,
    Word.clamp_of_inRange (inRange_sub hready hnow)]

/-- A reservation pays for its permits at some instant on the line of time or after it, unless
this is too far away. -/
theorem IsUsable.reserve_eq (hb : b.IsUsable) (hnow : IsReading now) (permits : UInt32)
    (timeout : Int) : ∃ ready stored, (b.resync now).nextFree ≤ ready ∧
      IsUsable { b.resync now with nextFree := ready, stored } ∧
      b.reserve (Scalar.ofInt permits.toNat) now timeout =
        if timeout < ready - now then (none, b.resync now)
        else (some ready, { b.resync now with nextFree := ready, stored }) := by
  obtain ⟨⟨i, hi, hinterval⟩, ⟨v, w, hv, hw, hle⟩, hnext⟩ := hb.resync hnow
  have hpast : now ≤ (b.resync now).nextFree := by
    rw [nextFree_resync]
    exact le_max_right _ _
  have hlt := permits.toNat_lt
  obtain ⟨q, hq, -, -⟩ := exists_isDouble_ofInt (n := permits.toNat) (by omega) (by omega)
  -- The stored permits that are spent weigh no more than the permits, so they are finite.
  have hspent := hq.min hv
  obtain ⟨r, hr⟩ := WithTop.ne_top_iff_exists.1
    (ne_top_of_le_ne_top WithTop.coe_ne_top (min_le_left (q : WithTop ℚ) v))
  rw [← hr] at hspent
  obtain ⟨u, hu, huq⟩ := IsDouble.sub hq hspent (hr.trans_le (min_le_left _ _))
  obtain ⟨s, hs, hsv⟩ := IsDouble.sub hv hspent (hr.trans_le (min_le_right _ _))
  obtain ⟨u, rfl⟩ := WithTop.ne_top_iff_exists.1 (ne_top_of_le_ne_top WithTop.coe_ne_top huq)
  obtain ⟨c, hc, -⟩ := IsDouble.mul hu hinterval
  obtain ⟨hready, hready'⟩ := saturatingAdd_bounds hnext (truncateFloat_bounds hc.not_lt_zero).1
  have hreading : IsReading _ := ⟨hnext.1.trans hready, hready'⟩
  refine ⟨_, _, hready, ⟨⟨i, hi, hinterval⟩, ⟨s, w, hs, hw, hsv.trans hle⟩, hreading⟩, ?_⟩
  rw [← saturatingAdd_wrap_neg_eq hreading hnow]
  rfl

section Request

variable {α : Type} [Scalar α] {b b' : Bucket α} {permits : UInt32} {timeout : ℕ}

/-- A request is refused if its reservation is, with the same bucket. -/
theorem request_of_none (h : b.reserve (Scalar.ofInt permits.toNat) now (Word.clamp timeout) =
    (none, b')) : b.request permits timeout now = (.refused, b') := by
  unfold Bucket.request Bucket.acquire
  rw [h]
  rfl

/-- A request waits for its reservation. -/
theorem request_of_some {ready : Int}
    (h : b.reserve (Scalar.ofInt permits.toNat) now (Word.clamp timeout) = (some ready, b')) :
    b.request permits timeout now = (.granted (max (Word.wrappingSub ready now) 0), b') := by
  unfold Bucket.request Bucket.acquire
  rw [h]
  rfl

end Request

/-- A request is refused, or its permits are paid for within the timeout at an instant on the line
of time or after it. -/
theorem IsUsable.request_cases (hb : b.IsUsable) (hnow : IsReading now) (permits : UInt32)
    (timeout : ℕ) : b.request permits timeout now = (.refused, b.resync now) ∨
      ∃ ready stored,
        (b.reserve (Scalar.ofInt permits.toNat) now (Word.clamp timeout)).1 = some ready ∧
        (b.resync now).nextFree ≤ ready ∧ ready - now ≤ Word.clamp timeout ∧
        IsUsable { b.resync now with nextFree := ready, stored } ∧
        b.request permits timeout now =
          (.granted (max (ready - now) 0), { b.resync now with nextFree := ready, stored }) := by
  obtain ⟨ready, stored, hle, husable, heq⟩ := hb.reserve_eq hnow permits (Word.clamp timeout)
  by_cases hfar : Word.clamp timeout < ready - now
  · rw [if_pos hfar] at heq
    exact .inl (request_of_none heq)
  · rw [if_neg hfar] at heq
    have hwait : Word.wrappingSub ready now = ready - now :=
      Word.wrap_of_inRange (inRange_sub husable.nextFree hnow)
    refine .inr ⟨ready, stored, by rw [heq], hle, not_lt.1 hfar, husable, ?_⟩
    rw [request_of_some heq, hwait]

/-! ## Calls -/

theorem nextFree_le_resync (b : Bucket Float) (now : Int) :
    b.nextFree ≤ (b.resync now).nextFree := by
  rw [nextFree_resync]
  exact le_max_left _ _

/-- A request leaves a bucket that is in use, and a line of time that is not shorter. -/
theorem IsUsable.request (hb : b.IsUsable) (hnow : IsReading now) (permits : UInt32)
    (timeout : ℕ) : (b.request permits timeout now).2.IsUsable ∧
      b.nextFree ≤ (b.request permits timeout now).2.nextFree := by
  rcases hb.request_cases hnow permits timeout with heq | ⟨ready, stored, -, hle, -, husable, heq⟩
  · rw [heq]
    exact ⟨hb.resync hnow, nextFree_le_resync b now⟩
  · rw [heq]
    exact ⟨husable, (nextFree_le_resync b now).trans hle⟩

theorem IsUsable.call (hb : b.IsUsable) (hnow : IsReading now) (c : LimiterCall) :
    (b.call now c).2.IsUsable ∧ b.nextFree ≤ (b.call now c).2.nextFree := by
  cases c with
  | acquire permits timeout => exact hb.request hnow permits timeout
  | acquireAsync permits timeout => exact hb.request hnow permits timeout
  | tryAcquire => exact hb.request hnow 1 0
  | storedPermits => exact ⟨hb.resync hnow, nextFree_le_resync b now⟩

theorem run_append {α : Type} [Scalar α] (b : Bucket α) (calls more : List (Int × LimiterCall)) :
    b.run (calls ++ more) = (b.run calls).run more := List.foldl_append

theorem IsUsable.run (hb : b.IsUsable) {calls : List (Int × LimiterCall)}
    (hcalls : ∀ c ∈ calls, IsReading c.1) :
    (b.run calls).IsUsable ∧ b.nextFree ≤ (b.run calls).nextFree := by
  induction calls generalizing b with
  | nil => exact ⟨hb, le_rfl⟩
  | cons c calls ih =>
    obtain ⟨hreading, hcalls⟩ := List.forall_mem_cons.1 hcalls
    obtain ⟨husable, hle⟩ := hb.call hreading c.2
    obtain ⟨hrun, hle'⟩ := ih husable hcalls
    exact ⟨hrun, hle.trans hle'⟩

/-- What a caller relies on : permits are between nothing and the capacity, and instants are words
that are not negative. -/
structure IsSound (b : Bucket Float) : Prop where
  stored_nonneg : 0 ≤ b.stored
  stored_le : b.stored ≤ b.capacity
  nextFree_nonneg : 0 ≤ b.nextFree
  nextFree_le : b.nextFree ≤ greatest

theorem IsUsable.isSound (hb : b.IsUsable) : b.IsSound := by
  obtain ⟨-, ⟨v, w, hv, hw, hle⟩, hnext⟩ := hb
  exact ⟨hv.zero_le, (hv.le_iff hw).2 hle, hnext.1, hnext.2⟩

/-- No difference of instants and no instant turned negative leaves the words : not the time to
bank as credit, and not the time to wait for a reservation. -/
structure StaysInRange (b : Bucket Float) (now : Int) : Prop where
  past : InRange (now - b.nextFree)
  negated : InRange (-now)
  wait : ∀ (permits : UInt32) (timeout ready : Int),
    (b.reserve (Scalar.ofInt permits.toNat) now timeout).1 = some ready → InRange (ready - now)

theorem IsUsable.staysInRange (hb : b.IsUsable) (hnow : IsReading now) : b.StaysInRange now := by
  refine ⟨inRange_sub hnow hb.nextFree, inRange_neg hnow, fun permits timeout ready h => ?_⟩
  obtain ⟨ready', stored, -, husable, heq⟩ := hb.reserve_eq hnow permits timeout
  rw [heq] at h
  split_ifs at h
  · obtain rfl := Option.some.inj h
    exact inRange_sub husable.nextFree hnow

/-- Whatever a limiter is asked for, at readings that may also step back : its bucket is sound, no
arithmetic on instants leaves the words, and the line of time never gets shorter. -/
theorem isSound_run (h : ofPolicy p start = .ok b) (hstart : IsReading start)
    {calls more : List (Int × LimiterCall)} (hcalls : ∀ c ∈ calls ++ more, IsReading c.1)
    (hnow : IsReading now) :
    (b.run calls).IsSound ∧ (b.run calls).StaysInRange now ∧
      (b.run calls).nextFree ≤ (b.run (calls ++ more)).nextFree := by
  obtain ⟨hcalls, hmore⟩ := List.forall_mem_append.1 hcalls
  have hb := ((isUsable_of_ofPolicy h hstart).run hcalls).1
  rw [run_append]
  exact ⟨hb.isSound, hb.staysInRange hnow, (hb.run hmore).2⟩

/-- The clock steps back from the last instant, at which more permits were taken than can ever be
paid for. -/
theorem isSound_run_stepping_back :
    let b : Bucket Float := full ⟨10, 1000⟩ 1 5
    let calls := [(greatest, .acquire 4294967295 0xFFFFFFFFFFFFFFFF), (0, .tryAcquire)]
    ofPolicy { windows := [⟨10, 1000⟩] } 5 = .ok b ∧ (b.run calls).IsSound ∧
      (b.run calls).StaysInRange 3 ∧
      (b.run calls).nextFree ≤ (b.run (calls ++ [(3, .storedPermits)])).nextFree :=
  ⟨rfl, isSound_run (p := { windows := [⟨10, 1000⟩] }) rfl (by decide) (by decide) (by decide)⟩

end Bucket

end TrafficControl
