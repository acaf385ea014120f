import TrafficControl.Proofs.Limit.Rational

/-!
# The rate of a bucket

A run of requests to a bucket is granted permits at instants on its line of time (`Bucket.grants`).
By any instant these should be no more than the capacity, one for each interval that has passed, and
one more (`Bucket.KeepsRate`). Since a cost is truncated to whole microseconds, each grant may give
away up to a microsecond, and where a permit costs less than that whole bursts are given away
(`not_keepsRate`). What does hold is that the intervals of all permits that are granted by an
instant fit into the time that has passed, the time that the capacity stands for, and one
microsecond for each grant. If the interval is a whole number of microseconds only the fraction of
the capacity is lost, once, and the bucket keeps its rate (`RatePolicy.permitsBy_le`).

Both bounds come from one account of the bucket in microseconds (`Bucket.Account`), in which its
stored permits are worth a credit : waiting earns what it takes, and a grant is paid for up to a
loss (`Bucket.isCovered_grants`).
-/

namespace TrafficControl

open Word (greatest)

/-- A request for permits, with the reading of the clock at which it is made. -/
structure PermitRequest where
  now : Int
  permits : ℕ
  timeout : Int

/-- Permits that were granted, and the instant from which on the caller has them. -/
structure Grant where
  permits : ℕ
  instant : Int
deriving DecidableEq

namespace Grant

/-- The permits that are granted by an instant. -/
def permitsBy (gs : List Grant) (t : Int) : ℕ := ((gs.filter (·.instant ≤ t)).map (·.permits)).sum

/-- The number of grants by an instant. -/
def countBy (gs : List Grant) (t : Int) : ℕ := gs.countP (·.instant ≤ t)

variable {g : Grant} {gs : List Grant} {t : Int}

theorem permitsBy_cons_of_le (h : g.instant ≤ t) :
    permitsBy (g :: gs) t = g.permits + permitsBy gs t := by
  simp [permitsBy, h]

theorem countBy_cons_of_le (h : g.instant ≤ t) : countBy (g :: gs) t = countBy gs t + 1 := by
  simp [countBy, h]

theorem permitsBy_eq_zero (h : ∀ g ∈ gs, t < g.instant) : permitsBy gs t = 0 := by
  have hnone : gs.filter (·.instant ≤ t) = [] := by simpa using h
  simp [permitsBy, hnone]

end Grant

namespace Bucket

open Grant (permitsBy countBy)

/-- What a bucket grants in a run of requests, in order. -/
def grants {α : Type} [Scalar α] (b : Bucket α) : List PermitRequest → List Grant
  | [] => []
  | r :: rs =>
    let (wait, b) := b.acquire r.permits r.now r.timeout
    (wait.map fun wait => ⟨r.permits, r.now + wait⟩).toList ++ b.grants rs

/-- Whether the permits granted by an instant are no more than the capacity, one for each interval
since the start, and one more. -/
def KeepsRate (b : Bucket ℚ) (start : Int) (gs : List Grant) (t : Int) : Prop :=
  permitsBy gs t ≤ b.capacity + (t - start) / b.interval + 1

variable {b : Bucket ℚ} {r : PermitRequest} {rs : List PermitRequest} {gs : List Grant} {t : Int}
  {credit : ℚ → ℚ} {loss : ℚ}

/-! ## The line of time -/

theorem grants_nil (b : Bucket ℚ) : b.grants [] = [] := rfl

/-- The first request of a run gets its permits at the instant at which they are paid for. -/
theorem grants_cons (hb : b.IsRunning) (hnow : 0 ≤ r.now) (hle : r.now ≤ greatest) :
    b.grants (r :: rs) =
      if r.timeout < ((b.resync r.now).paid r.permits).nextFree - r.now then
        (b.resync r.now).grants rs
      else ⟨r.permits, ((b.resync r.now).paid r.permits).nextFree⟩ ::
        ((b.resync r.now).paid r.permits).grants rs := by
  have hcons : b.grants (r :: rs) = ((b.acquire r.permits r.now r.timeout).1.map
      fun wait => ⟨r.permits, r.now + wait⟩).toList ++
        (b.acquire r.permits r.now r.timeout).2.grants rs := rfl
  rw [hcons, acquire_eq hb hnow hle]
  by_cases hfar : r.timeout < ((b.resync r.now).paid r.permits).nextFree - r.now
  · simp only [if_pos hfar, Option.map_none, Option.toList_none, List.nil_append]
  · simp only [if_neg hfar, Option.map_some, Option.toList_some, add_sub_cancel,
      List.singleton_append]

/-- No permits are granted for the time that is already paid for. -/
theorem nextFree_le_instant (hb : b.IsRunning) (hrs : ∀ r ∈ rs, 0 ≤ r.now ∧ r.now ≤ greatest) :
    ∀ g ∈ b.grants rs, b.nextFree ≤ g.instant := by
  induction rs generalizing b with
  | nil => simp [grants_nil]
  | cons r rs ih =>
    obtain ⟨⟨hnow, hle⟩, hrest⟩ := List.forall_mem_cons.1 hrs
    have hsync := hb.resync hle
    have hearlier : b.nextFree ≤ (b.resync r.now).nextFree := by
      rw [nextFree_resync]
      exact le_max_left _ _
    have hpaid := hearlier.trans (nextFree_le_paid hsync r.permits)
    rw [grants_cons hb hnow hle]
    split
    · exact fun g hg => hearlier.trans (ih hsync hrest g hg)
    · refine List.forall_mem_cons.2 ⟨hpaid, fun g hg => ?_⟩
      exact hpaid.trans (ih (hsync.paid r.permits) hrest g hg)

/-! ## Accounts -/

/-- A way to account for a bucket in microseconds. Stored permits are worth a credit, and every
grant may give away as much as the loss. -/
structure Account (interval : ℚ) (credit : ℚ → ℚ) (loss : ℚ) : Prop where
  loss_nonneg : 0 ≤ loss
  credit_nonneg : ∀ stored, 0 ≤ stored → 0 ≤ credit stored
  /-- Time earns no more credit than it takes. -/
  earn : ∀ stored stored' (micros : Int), stored' * interval ≤ stored * interval + micros →
    credit stored' ≤ credit stored + micros
  /-- What is not paid for by credit or by time is at most the loss. -/
  spend : ∀ (b : Bucket ℚ) (permits : ℕ), b.interval = interval →
    permits * interval + credit (b.stored - b.spent permits) ≤
      credit b.stored + b.cost permits + loss

/-- Stored permits are worth their intervals, and a grant gives away less than a microsecond. -/
theorem account_mul {interval : ℚ} (h : 0 < interval) : Account interval (· * interval) 1 where
  loss_nonneg := zero_le_one
  credit_nonneg stored hstored := mul_nonneg hstored h.le
  earn stored stored' micros hle := hle
  spend b permits hb := by
    have hcost := Int.lt_floor_add_one ((permits - b.spent permits) * b.interval)
    rw [hb, sub_mul] at hcost
    rw [sub_mul, cost, hb, sub_mul]
    linarith

/-- Where the interval is a whole number of microseconds, stored permits are worth their intervals
rounded up, and nothing is given away. -/
theorem account_ceil {interval : Int} (h : 0 < interval) :
    Account interval (fun stored => ⌈stored * interval⌉) 0 where
  loss_nonneg := le_rfl
  credit_nonneg stored hstored := by
    have hpos : (0 : ℚ) ≤ interval := by exact_mod_cast h.le
    exact_mod_cast Int.ceil_nonneg (mul_nonneg hstored hpos)
  earn stored stored' micros hle := by
    have hceil := Int.ceil_mono hle
    rw [Int.ceil_add_intCast] at hceil
    exact_mod_cast hceil
  spend b permits hb := by
    have hwhole : (permits : ℚ) * interval = ((permits * interval : Int) : ℚ) := by push_cast; rfl
    rw [cost, hb, spent, add_zero]
    rcases le_total (permits : ℚ) b.stored with hle | hle
    · rw [min_eq_left hle, sub_self, zero_mul, Int.floor_zero, sub_mul, hwhole,
        Int.ceil_sub_intCast]
      push_cast
      linarith
    · rw [min_eq_right hle, sub_self, zero_mul, Int.ceil_zero, sub_mul, hwhole, sub_eq_add_neg,
        Int.floor_intCast_add, Int.floor_neg]
      push_cast
      linarith

/-- Whether the intervals of the permits that are granted by an instant are covered by the credit of
a bucket, the time from its line of time on, and the losses. -/
def IsCovered (b : Bucket ℚ) (credit : ℚ → ℚ) (loss : ℚ) (gs : List Grant) (t : Int) : Prop :=
  permitsBy gs t * b.interval ≤ credit b.stored + (t - b.nextFree) + loss * countBy gs t

theorem isCovered_of_later (ha : Account b.interval credit loss) (hb : b.IsRunning)
    (ht : b.nextFree ≤ t) (h : ∀ g ∈ gs, t < g.instant) : b.IsCovered credit loss gs t := by
  have hcredit := ha.credit_nonneg _ hb.stored_nonneg
  have hloss := mul_nonneg ha.loss_nonneg (Nat.cast_nonneg (α := ℚ) (countBy gs t))
  have htime : (b.nextFree : ℚ) ≤ t := by exact_mod_cast ht
  rw [IsCovered, Grant.permitsBy_eq_zero h, Nat.cast_zero, zero_mul]
  linarith

theorem isCovered_of_resync {now : Int} (ha : Account b.interval credit loss) (hb : b.IsRunning)
    (hle : now ≤ greatest) (h : (b.resync now).IsCovered credit loss gs t) :
    b.IsCovered credit loss gs t := by
  have hearn := ha.earn _ _ _ (stored_resync_le hb hle)
  rw [IsCovered, interval_resync] at h
  push_cast at hearn
  rw [IsCovered]
  linarith

theorem isCovered_of_paid {permits : ℕ} (ha : Account b.interval credit loss)
    (ht : (b.paid permits).nextFree ≤ t) (hend : t < greatest)
    (h : (b.paid permits).IsCovered credit loss gs t) :
    b.IsCovered credit loss (⟨permits, (b.paid permits).nextFree⟩ :: gs) t := by
  have hspend := ha.spend b permits rfl
  -- By an instant that is not the last one, the whole cost is on the line of time.
  have hready : (b.paid permits).nextFree = b.nextFree + b.cost permits := by
    have hlt := ht.trans_lt hend
    simp only [paid] at hlt ⊢
    omega
  have hready' : ((b.paid permits).nextFree : ℚ) = b.nextFree + b.cost permits := by
    rw [hready]
    push_cast
    rfl
  have hinterval : (b.paid permits).interval = b.interval := rfl
  have hstored : (b.paid permits).stored = b.stored - b.spent permits := rfl
  rw [IsCovered, hready', hinterval, hstored] at h
  rw [IsCovered, Grant.permitsBy_cons_of_le ht, Grant.countBy_cons_of_le ht]
  push_cast
  rw [add_mul, mul_add, mul_one]
  linarith

/-- What a bucket grants is covered, but for the last instant. -/
theorem isCovered_grants (ha : Account b.interval credit loss) (hb : b.IsRunning)
    (hrs : ∀ r ∈ rs, 0 ≤ r.now ∧ r.now ≤ greatest) (ht : b.nextFree ≤ t) (hend : t < greatest) :
    b.IsCovered credit loss (b.grants rs) t := by
  induction rs generalizing b with
  | nil => exact isCovered_of_later ha hb ht (by simp [grants_nil])
  | cons r rs ih =>
    obtain ⟨⟨hnow, hle⟩, hrest⟩ := List.forall_mem_cons.1 hrs
    have hsync := hb.resync hle
    have hpaid := hsync.paid r.permits
    have hasync : Account (b.resync r.now).interval credit loss := interval_resync b r.now ▸ ha
    rw [grants_cons hb hnow hle]
    split
    · rcases lt_or_ge t (b.resync r.now).nextFree with hlater | hearlier
      · exact isCovered_of_later ha hb ht fun g hg =>
          hlater.trans_le (nextFree_le_instant hsync hrest g hg)
      · exact isCovered_of_resync ha hb hle (ih hasync hsync hrest hearlier)
    · rcases lt_or_ge t ((b.resync r.now).paid r.permits).nextFree with hlater | hearlier
      · exact isCovered_of_later ha hb ht (List.forall_mem_cons.2 ⟨hlater, fun g hg =>
          hlater.trans_le (nextFree_le_instant hpaid hrest g hg)⟩)
      · exact isCovered_of_resync ha hb hle
          (isCovered_of_paid hasync hearlier hend (ih hasync hpaid hrest hearlier))

end Bucket

/-! ## The rate of a policy -/

namespace RatePolicy

open Grant (permitsBy countBy)

variable {p : RatePolicy} {start t : Int} {b : Bucket ℚ} {rs : List PermitRequest}

/-- Whether the bucket of a policy keeps its rate at all instants of a run in which the clock starts
at an instant and does not go back. -/
def KeepsRate (p : RatePolicy) (start : Int) (rs : List PermitRequest) : Prop :=
  0 ≤ start → (∀ r ∈ rs, start ≤ r.now ∧ r.now ≤ greatest) → rs.Pairwise (·.now ≤ ·.now) →
    ∀ b : Bucket ℚ, Bucket.ofPolicy p start = .ok b →
      ∀ t, start ≤ t → b.KeepsRate start (b.grants rs) t

/-- By any instant but the last one, the intervals of the permits that the bucket of a policy has
granted fit into its capacity, the time that has passed, and one microsecond for each grant. If the
interval is a whole number of microseconds the bucket keeps its rate. -/
theorem permitsBy_le (hb : Bucket.ofPolicy p start = .ok b) (hstart : 0 ≤ start)
    (hrs : ∀ r ∈ rs, start ≤ r.now ∧ r.now ≤ greatest) (ht : start ≤ t) (hend : t < greatest) :
    permitsBy (b.grants rs) t * b.interval ≤
        b.capacity * b.interval + (t - start) + countBy (b.grants rs) t ∧
      ((∃ micros : Int, b.interval = micros) → b.KeepsRate start (b.grants rs) t) := by
  obtain ⟨hinterval, -, hstored, hnext⟩ := Bucket.ofPolicy_eq_ok hb
  have hrun := Bucket.isRunning_of_ofPolicy hb hstart (ht.trans hend.le)
  have hnows : ∀ r ∈ rs, 0 ≤ r.now ∧ r.now ≤ greatest :=
    fun r hr => ⟨hstart.trans (hrs r hr).1, (hrs r hr).2⟩
  constructor
  · have hcovered := Bucket.isCovered_grants (Bucket.account_mul hinterval) hrun hnows
      (hnext ▸ ht) hend
    rwa [Bucket.IsCovered, hstored, hnext, one_mul] at hcovered
  · rintro ⟨micros, hmicros⟩
    have hpos : 0 < micros := by exact_mod_cast hmicros ▸ hinterval
    have hcovered := Bucket.isCovered_grants (hmicros ▸ Bucket.account_ceil hpos) hrun hnows
      (hnext ▸ ht) hend
    rw [Bucket.IsCovered, hstored, hnext, zero_mul, add_zero] at hcovered
    have hceil := Int.ceil_lt_add_one (b.capacity * micros)
    have hone : (1 : ℚ) ≤ b.interval := by
      rw [hmicros]
      exact_mod_cast hpos
    refine le_of_mul_le_mul_right ?_ hinterval
    calc permitsBy (b.grants rs) t * b.interval
        ≤ b.capacity * b.interval + 1 + (t - start) := by rw [hmicros] at hcovered ⊢; linarith
      _ ≤ b.capacity * b.interval + (t - start) + b.interval := by linarith
      _ = (b.capacity + (t - start) / b.interval + 1) * b.interval := by
          rw [add_mul, add_mul, div_mul_cancel₀ _ hinterval.ne', one_mul]

end RatePolicy

/-! ## A fast and a slow policy -/

namespace OneSecond

/-- A number of permits for a second, of which only one is kept. -/
def policy (permits : UInt32) : RatePolicy where
  windows := [⟨permits, 1000⟩]
  burstSeconds := 0

/-- The bucket of a policy that keeps one permit, at the first instant. -/
def bucket (interval : ℚ) : Bucket ℚ := { stored := 1, capacity := 1, interval, nextFree := 0 }

/-- Three requests for a permit. The second one waits, and the third one would wait too long. -/
def requests : List PermitRequest := [⟨0, 1, 0⟩, ⟨0, 1, 100000⟩, ⟨0, 1, 100000⟩]

theorem ofPolicy_fast : Bucket.ofPolicy (policy 10000000) 0 = .ok (bucket (1 / 10)) := by
  have hfull : Bucket.full ⟨10000000, 1000⟩ 0 0 = bucket (1 / 10) := by decide +kernel
  exact congrArg Except.ok hfull

theorem ofPolicy_slow : Bucket.ofPolicy (policy 10) 0 = .ok (bucket 100000) := by
  have hfull : Bucket.full ⟨10, 1000⟩ 0 0 = bucket 100000 := by decide +kernel
  exact congrArg Except.ok hfull

end OneSecond

open OneSecond in
/-- Ten permits at once cost nine tenths of a microsecond beyond the one that is stored, and are
granted for nothing. -/
theorem not_keepsRate : ¬(policy 10000000).KeepsRate 0 [⟨0, 10, 0⟩] := by
  intro h
  have hrate := h le_rfl (by decide) (by decide) _ ofPolicy_fast 0 le_rfl
  have hgrants : (bucket (1 / 10)).grants [⟨0, 10, 0⟩] = [⟨10, 0⟩] := by decide +kernel
  rw [hgrants] at hrate
  exact absurd hrate (by unfold Bucket.KeepsRate; decide +kernel)

open OneSecond in
/-- At ten permits a second two requests are granted within a tenth of a second. -/
theorem permitsBy_le_slow :
    Grant.permitsBy ((bucket 100000).grants requests) 100000 = 2 ∧
      Grant.permitsBy ((bucket 100000).grants requests) 100000 * (bucket 100000).interval ≤
        (bucket 100000).capacity * (bucket 100000).interval + (100000 - 0) +
          Grant.countBy ((bucket 100000).grants requests) 100000 ∧
      (bucket 100000).KeepsRate 0 ((bucket 100000).grants requests) 100000 := by
  have hnows : ∀ r ∈ requests, 0 ≤ r.now ∧ r.now ≤ greatest := by simp [requests, greatest]
  obtain ⟨hcovered, hwhole⟩ :=
    RatePolicy.permitsBy_le (t := 100000) ofPolicy_slow le_rfl hnows (by decide) (by decide)
  exact ⟨by decide +kernel, hcovered, hwhole ⟨100000, rfl⟩⟩

end TrafficControl
