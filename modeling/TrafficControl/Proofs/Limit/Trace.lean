import TrafficControl.Proofs.Limit.Double

/-!
# Calls that leave no trace

A granted call waits until its permits are paid for, within its timeout, and a refused one does not
wait and only banks the credit that was earned anyway (`Bucket.Decides`). Over exact numbers it
does not matter when credit is banked (`Bucket.resync_resync`). Two buckets that agree once they are
brought up to date answer every call alike, so that calls which are refused or only read can be
left out of a run, and the log of the others is the same (`Bucket.log_kept`).
-/

namespace TrafficControl

open Word (greatest)

namespace Bucket

variable {α : Type} [Scalar α]

/-! ## Decisions -/

/-- What a call for permits does at a reading. -/
structure Decides (b : Bucket α) (now : Int) (permits : UInt32) (timeout : ℕ) : Prop where
  /-- A granted call sleeps until its permits are paid for, and the line of time ends there. -/
  granted : ∀ wait, (b.call now (.acquire permits timeout)).1 = .granted wait → ∃ ready,
    (b.reserve (Scalar.ofInt permits.toNat) now (Word.clamp timeout)).1 = some ready ∧
    wait = max (ready - now) 0 ∧ wait ≤ timeout ∧
    (LimiterCall.acquire permits timeout).sleep? (b.call now (.acquire permits timeout)).1 =
      some wait ∧
    (b.call now (.acquire permits timeout)).2.nextFree = ready
  /-- A call that is not granted is refused, does not sleep and only banks credit. -/
  refused : (∀ wait, (b.call now (.acquire permits timeout)).1 ≠ .granted wait) →
    (b.call now (.acquire permits timeout)).1 = .refused ∧
    (LimiterCall.acquire permits timeout).sleep? (b.call now (.acquire permits timeout)).1 =
      none ∧
    (b.call now (.acquire permits timeout)).2 = b.resync now
  /-- A caller that is suspended is decided upon alike. -/
  suspended : b.call now (.acquireAsync permits timeout) = b.call now (.acquire permits timeout)

variable {start now : Int}

theorem clamp_le (timeout : ℕ) : Word.clamp timeout ≤ timeout := by
  unfold Word.clamp Word.least greatest
  omega

theorem IsUsable.decides {b : Bucket Float} (hb : b.IsUsable) (hnow : IsReading now)
    (permits : UInt32) (timeout : ℕ) : b.Decides now permits timeout := by
  have hcall : b.call now (.acquire permits timeout) = b.request permits timeout now := rfl
  rcases hb.request_cases hnow permits timeout with heq | ⟨ready, stored, hready, -, hle, -, heq⟩
  · refine ⟨fun wait h => ?_, fun _ => ?_, rfl⟩ <;> rw [hcall, heq] at *
    · cases h
    · exact ⟨rfl, rfl, rfl⟩
  · refine ⟨fun wait h => ⟨ready, hready, ?_⟩, fun h => ?_, rfl⟩ <;> rw [hcall, heq] at *
    · obtain rfl := LimiterAnswer.granted.inj h
      have htimeout := clamp_le timeout
      exact ⟨rfl, by omega, rfl, rfl⟩
    · exact absurd rfl (h _)

/-! ## Logs -/

/-- The calls with what each came to. -/
def log (b : Bucket α) : List (Int × LimiterCall) → List (Int × LimiterCall × LimiterAnswer α)
  | [] => []
  | (now, c) :: calls => (now, c, (b.call now c).1) :: (b.call now c).2.log calls

/-- The calls that a log is about. -/
def asked (log : List (Int × LimiterCall × LimiterAnswer α)) : List (Int × LimiterCall) :=
  log.map fun entry => (entry.1, entry.2.1)

/-- A bucket is brought up to date before it is asked for anything. -/
theorem call_congr {b b' : Bucket α} (h : b.resync now = b'.resync now) (c : LimiterCall) :
    b.call now c = b'.call now c := by
  have hrequest (permits : UInt32) (timeout : ℕ) :
      b.request permits timeout now = b'.request permits timeout now := by
    unfold Bucket.request Bucket.acquire Bucket.reserve
    rw [h]
  cases c with
  | acquire permits timeout => exact hrequest permits timeout
  | acquireAsync permits timeout => exact hrequest permits timeout
  | tryAcquire => exact hrequest 1 0
  | storedPermits =>
    unfold Bucket.call
    rw [h]

section Exact

variable {b b' : Bucket ℚ} {earlier : Int}

/-- A bound is the bound of a sum, whether or not it bounds what is added to as well. -/
theorem min_min_add (bound x : ℚ) {d : ℚ} (hd : 0 ≤ d) :
    min bound (min bound x + d) = min bound (x + d) := by
  rw [← min_add_add_right, ← min_assoc, min_eq_left (le_add_of_nonneg_right hd)]

/-- It does not matter when credit is banked. -/
theorem resync_resync (hb : b.IsRunning) (hle : earlier ≤ now) (hnow : now ≤ greatest) :
    (b.resync earlier).resync now = b.resync now := by
  rcases le_or_gt earlier b.nextFree with hpast | hpast
  · rw [resync_of_le hpast]
  · have hearlier := resync_of_lt hb (hle.trans hnow) hpast
    have hrun := hb.resync (hle.trans hnow)
    rcases hle.eq_or_lt with rfl | hlt
    · exact resync_of_le (by rw [hearlier])
    · have hlt' : (b.resync earlier).nextFree < now := by rwa [hearlier]
      rw [resync_of_lt hrun hnow hlt', resync_of_lt hb hnow (hpast.trans hlt), hearlier]
      have hcredit : (0 : ℚ) ≤ (now - earlier) / b.interval :=
        div_nonneg (sub_nonneg.2 (by exact_mod_cast hle)) hb.interval_pos.le
      have hsum : b.stored + ((now : ℚ) - b.nextFree) / b.interval =
          b.stored + (earlier - b.nextFree) / b.interval + (now - earlier) / b.interval := by
        rw [add_assoc, ← add_div]
        ring
      have hstored := min_min_add b.capacity
        (b.stored + ((earlier : ℚ) - b.nextFree) / b.interval) hcredit
      rw [← hsum] at hstored
      exact congrArg (fun stored => { b with stored, nextFree := now }) hstored

theorem IsRunning.request (hb : b.IsRunning) (hnow : IsReading now) (permits : UInt32)
    (timeout : ℕ) : (b.request permits timeout now).2.IsRunning ∧
      ((∀ wait, (b.request permits timeout now).1 ≠ .granted wait) →
        (b.request permits timeout now).2 = b.resync now) := by
  have hrun := hb.resync hnow.2
  unfold Bucket.request
  rw [acquire_eq hb hnow.1 hnow.2]
  split_ifs
  · exact ⟨hrun, fun _ => rfl⟩
  · exact ⟨hrun.paid _, fun h => absurd rfl (h _)⟩

/-- A call that is not granted only banks credit. -/
theorem IsRunning.call (hb : b.IsRunning) (hnow : IsReading now) (c : LimiterCall) :
    (b.call now c).2.IsRunning ∧
      ((∀ wait, (b.call now c).1 ≠ .granted wait) → (b.call now c).2 = b.resync now) := by
  cases c with
  | acquire permits timeout => exact hb.request hnow permits timeout
  | acquireAsync permits timeout => exact hb.request hnow permits timeout
  | tryAcquire => exact hb.request hnow 1 0
  | storedPermits => exact ⟨hb.resync hnow.2, fun _ => rfl⟩

variable {keep : Int × LimiterCall × LimiterAnswer ℚ → Bool}

/-- Calls that are left out do not change what the others come to, if all that are granted are
kept. The buckets of both runs agree once they are brought up to date. -/
theorem log_kept_of_agree (hb : b.IsRunning)
    (hagree : ∀ now, earlier ≤ now → now ≤ greatest → b.resync now = b'.resync now)
    {calls : List (Int × LimiterCall)} (hcalls : ∀ c ∈ calls, IsReading c.1)
    (hsorted : (earlier :: calls.map Prod.fst).Pairwise (· ≤ ·))
    (hkeep : ∀ now c wait, keep (now, c, .granted wait)) :
    b'.log (asked ((b.log calls).filter keep)) = (b.log calls).filter keep := by
  induction calls generalizing b b' earlier with
  | nil => rfl
  | cons call calls ih =>
    obtain ⟨now, c⟩ := call
    obtain ⟨hreading, hcalls⟩ := List.forall_mem_cons.1 hcalls
    obtain ⟨hearlier, hsorted⟩ := List.pairwise_cons.1 hsorted
    have hle : earlier ≤ now := hearlier now List.mem_cons_self
    obtain ⟨hrun, hbank⟩ := hb.call hreading c
    have hcall := call_congr (hagree now hle hreading.2) c
    rw [log]
    by_cases hkept : keep (now, c, (b.call now c).1)
    · rw [List.filter_cons_of_pos hkept, asked, List.map_cons, ← asked, log, ← hcall]
      exact congrArg _ (ih hrun (fun _ _ _ => rfl) hcalls hsorted)
    · have hgranted : ∀ wait, (b.call now c).1 ≠ .granted wait := fun wait h =>
        hkept (h ▸ hkeep now c wait)
      rw [List.filter_cons_of_neg hkept]
      refine ih hrun (fun later hlater hlast => ?_) hcalls hsorted
      rw [hbank hgranted, resync_resync hb hlater hlast]
      exact hagree later (hle.trans hlater) hlast

end Exact

/-- Calls that are granted wait within their timeouts, and all others leave no trace. Whatever a
limiter was asked for before, at readings that may also step back, it decides as `Decides` says.
If its clock never steps back, then over exact numbers the calls that are refused or only read can
be left out of a run, all or some of them, and the others come to the same. -/
theorem decides_and_log_kept {p : RatePolicy} (hstart : IsReading start)
    {calls : List (Int × LimiterCall)} (hcalls : ∀ c ∈ calls, IsReading c.1) :
    (∀ b : Bucket Float, ofPolicy p start = .ok b → ∀ now, IsReading now →
      ∀ permits timeout, (b.run calls).Decides now permits timeout) ∧
    (∀ b : Bucket ℚ, ofPolicy p start = .ok b → (calls.map Prod.fst).Pairwise (· ≤ ·) →
      ∀ keep : Int × LimiterCall × LimiterAnswer ℚ → Bool,
        (∀ now c wait, keep (now, c, .granted wait)) →
        b.log (asked ((b.log calls).filter keep)) = (b.log calls).filter keep) := by
  refine ⟨fun b h now hnow => ?_, fun b h hsorted keep hkeep => ?_⟩
  · exact ((isUsable_of_ofPolicy h hstart).run hcalls).1.decides hnow
  · have hfirst : (0 :: calls.map Prod.fst).Pairwise (· ≤ ·) :=
      List.pairwise_cons.2 ⟨List.forall_mem_map.2 fun c hc => (hcalls c hc).1, hsorted⟩
    exact log_kept_of_agree (isRunning_of_ofPolicy h hstart.1 hstart.2) (fun _ _ _ => rfl) hcalls
      hfirst hkeep

/-- Of three calls at the first instant the second one is refused, and the third one only reads. -/
theorem decides_and_log_kept_three :
    let calls := [(0, .acquire 1 0), (0, .acquire 5 0), (0, .storedPermits)]
    let b : Bucket ℚ := full ⟨10, 1000⟩ 0 0
    ((full ⟨10, 1000⟩ 0 0 : Bucket Float).run calls).Decides 7 2 300000 ∧
      b.log (asked ((b.log calls).filter fun e => e.2.2 ≠ .refused)) =
        (b.log calls).filter fun e => e.2.2 ≠ .refused := by
  intro calls b
  have hcalls : ∀ c ∈ calls, IsReading c.1 := by decide
  have hstart : IsReading 0 := by decide
  obtain ⟨hdecides, hkept⟩ := decides_and_log_kept
    (p := { windows := [⟨10, 1000⟩], burstSeconds := 0 }) hstart hcalls
  exact ⟨hdecides _ rfl 7 (by decide) 2 300000, hkept b rfl (by decide) _ (by simp)⟩

end Bucket

end TrafficControl
