import TrafficControl.Proofs.Breaker.History
import TrafficControl.Proofs.Number.Arithmetic

/-!
# Breakers under total failure

Calls that do nothing but fail, all at one instant, open a new breaker exactly if the first ones of
some number exceed the thresholds (`BreakerLife.isOpened_iff_trips`). Their counts are the same for
all failures that a window shows (`BreakPolicy.shown`), so that a policy decides alone whether a
breaker opens, and after how many (`BreakPolicy.opensUnderFailure_iff`). It does unless its window
shows fewer calls than it demands (`BreakPolicy.not_opensUnderFailure`), or its thresholds are a
hundred percent : all of some calls can be computed to be less than that, by the last bit of a
single, and never by more (`Counts.exists_rate_self`).
-/

namespace TrafficControl

/-! ## Rates -/

/-- A number of at least one is rounded with a small relative error. -/
theorem IsRounding.abs_sub_le_div {spec : Float.Model.Format} {q v : ℚ} {t : ℤ}
    (hspec : 2 ≤ spec.exponentBits) (h : IsRounding spec q v t) (hq : 1 ≤ q) :
    |v - q| ≤ q / 2 ^ spec.mantissaBits := by
  have hpow : (2 : ℚ) ^ spec.mantissaBits = 2 * 2 ^ spec.mantissaBitsWithoutImplicit := by
    exact_mod_cast two_pow_mantissaBits spec
  have hle : 2 ^ spec.mantissaBitsWithoutImplicit * (2 : ℚ) ^ t ≤ q := by
    rcases h.normal with rfl | hnormal
    · have hbias : 1 ≤ spec.exponentBias := by
        have : 2 ^ 1 ≤ 2 ^ (spec.exponentBits - 1) := Nat.pow_le_pow_right two_pos (by omega)
        unfold Float.Model.Format.exponentBias
        omega
      have hmin := minExponent_eq spec
      refine le_trans ?_ hq
      rw [← zpow_natCast, ← zpow_add₀ two_ne_zero]
      exact zpow_le_one_of_nonpos₀ one_le_two (by omega)
    · exact hnormal
  refine h.near.trans ?_
  rw [hpow, div_le_div_iff₀ two_pos (by positivity)]
  linarith

theorem Rounds.abs_sub_le_div {spec : Float.Model.Format} {q p : ℚ}
    (hspec : 2 ≤ spec.exponentBits) (h : Rounds spec q p) (hq : 1 ≤ q) :
    |p - q| ≤ q / 2 ^ spec.mantissaBits := by
  obtain ⟨m, e, t, -, hround, hvalue⟩ := h
  split_ifs at hvalue
  · rw [WithTop.coe_inj.1 hvalue]
    exact hround.abs_sub_le_div hspec hq
  · exact absurd hvalue WithTop.coe_ne_top

namespace Counts

theorem exists_isSingle_ofNat_pos {n : ℕ} (hn : 0 < n) (hle : n ≤ 2 ^ 32) :
    ∃ q : ℚ, IsSingle (.ofNat n) q ∧ 1 ≤ q ∧ q ≤ 2 ^ (32 : ℤ) := by
  obtain ⟨v, hv, hround⟩ := exists_isSingle_ofNat n
  have hle' : (n : ℚ) ≤ 2 ^ (32 : ℤ) := by exact_mod_cast hle
  obtain ⟨q, rfl, hq⟩ := hround.exists_coe (by decide) (by decide) (by decide) hle'
  exact ⟨q, hv, WithTop.coe_le_coe.1 (hround.le_of_le (by decide) isSingle_one
    (by exact_mod_cast hn)), hq⟩

/-- A hundred, and the greatest single below. -/
theorem isCanonical_hundred : IsCanonical .binary32 13107200 (-17) ∧
    IsCanonical .binary32 13107199 (-17) :=
  ⟨⟨by decide, by decide, .inr (by decide)⟩, by decide, by decide, .inr (by decide)⟩

theorem isSingle_hundred : IsSingle 100 ((100 : ℚ) : WithTop ℚ) := by
  obtain ⟨v, hv, hround⟩ := exists_isSingle_ofNat 100
  have hvalue : ((13107200 : ℕ) * 2 ^ (-17 : ℤ) : ℚ) = (100 : ℕ) := by norm_num
  have hx := Weighs.finite isCanonical_hundred.1 (by decide) (by decide)
  rw [hvalue] at hx
  rwa [hround.eq_of_weighs (by decide) hx] at hv

/-- A single below a hundred is no more than the greatest one. -/
theorem le_of_lt_hundred {x : Float.Model.UnpackedFloat} {q : ℚ} (hx : Weighs .binary32 x q)
    (hlt : q < 100) : q ≤ (13107199 : ℕ) * 2 ^ (-17 : ℤ) := by
  obtain ⟨hhundred, hbelow⟩ := isCanonical_hundred
  have hvalue : (100 : ℚ) = (13107200 : ℕ) * 2 ^ (-17 : ℤ) := by norm_num
  obtain ⟨m, e, hcanonical, -, rfl⟩ := hx.exists_isCanonical (by decide)
  rcases lt_trichotomy e (-17) with he | rfl | he
  · exact (hcanonical.lt_of_exponent_lt hbelow he).le
  · rw [hvalue] at hlt
    have hm : m < 13107200 := by exact_mod_cast lt_of_mul_lt_mul_right hlt (by positivity)
    exact mul_le_mul_of_nonneg_right (by exact_mod_cast Nat.le_of_lt_succ hm) (by positivity)
  · have hgt := hhundred.lt_of_exponent_lt hcanonical he
    rw [← hvalue] at hgt
    exact absurd hlt (not_lt.2 hgt.le)

/-- All of some calls are nearly a hundred percent of them, less at most by one place of the last
bit. -/
theorem exists_rate_self {n : ℕ} (hn : 0 < n) (hle : n ≤ 2 ^ 32) :
    ∃ v, IsSingle (rate n n) v ∧
      (((13107199 : ℕ) * 2 ^ (-17 : ℤ) : ℚ) : WithTop ℚ) ≤ v := by
  obtain ⟨q, hq, hone, hlast⟩ := exists_isSingle_ofNat_pos hn hle
  obtain ⟨v, hv, hround⟩ := hq.mul isSingle_hundred
  have hprod : q * 100 ≤ 2 ^ (40 : ℤ) := by
    calc q * 100 ≤ 2 ^ (32 : ℤ) * 100 := mul_le_mul_of_nonneg_right hlast (by norm_num)
      _ ≤ 2 ^ (40 : ℤ) := by norm_num
  obtain ⟨r, rfl, -⟩ := hround.exists_coe (by decide) (by decide) (by decide) hprod
  have hnear := (abs_le.1 (hround.abs_sub_le_div (by decide) (by linarith))).1
  have hbits : Float.Model.Format.mantissaBits .binary32 = 24 := rfl
  obtain ⟨u, hu, hround'⟩ := hv.div hq (by linarith)
  have hquot : ((13107199 : ℕ) * 2 ^ (-17 : ℤ) : ℚ) ≤ r / q := by
    rw [le_div_iff₀ (by linarith)]
    rw [hbits] at hnear
    norm_num at hnear ⊢
    linarith
  have hrate : rate n n = .ofNat n * 100 / .ofNat n := if_neg hn.ne'
  rw [hrate]
  exact ⟨u, hu, hround'.le_of_le (by decide)
    (.finite isCanonical_hundred.2 (by decide) (by decide)) hquot⟩

/-- No calls are no percentage. -/
theorem isSingle_rate_zero {n : ℕ} (hn : 0 < n) (hle : n ≤ 2 ^ 32) :
    IsSingle (rate 0 n) ((0 : ℚ) : WithTop ℚ) := by
  have hzero : IsSingle (.ofNat 0) ((0 : ℚ) : WithTop ℚ) := Weighs.zero .positive
  obtain ⟨q, hq, hone, -⟩ := exists_isSingle_ofNat_pos hn hle
  obtain ⟨v, hv, hround⟩ := hzero.mul isSingle_hundred
  rw [zero_mul] at hround
  obtain rfl := hround.eq_of_weighs (by decide) hzero
  obtain ⟨u, hu, hround⟩ := hv.div hq (by linarith)
  rw [zero_div] at hround
  obtain rfl := hround.eq_of_weighs (by decide) hzero
  have hrate : rate 0 n = .ofNat 0 * 100 / .ofNat n := if_neg hn.ne'
  rwa [hrate]

end Counts

/-! ## Thresholds -/

section Threshold

variable {f : Float32}

/-- What a threshold weighs. -/
theorem exists_isSingle_of_isThreshold (h : isThreshold f) : ∃ q : ℚ, IsSingle f q ∧ 0 < q := by
  obtain ⟨hpos, hle⟩ := Bool.and_eq_true_iff.1 h
  have hzero : IsSingle 0 ((0 : ℚ) : WithTop ℚ) := Weighs.zero .positive
  have hpos : 0 < f := of_decide_eq_true hpos
  obtain ⟨v, hv⟩ := hzero.exists_of_lt hpos
  have hbound := (hv.le_iff Counts.isSingle_hundred).1 (of_decide_eq_true hle)
  obtain ⟨q, rfl⟩ := WithTop.ne_top_iff_exists.1 (ne_top_of_le_ne_top WithTop.coe_ne_top hbound)
  exact ⟨q, hv, WithTop.coe_lt_coe.1 ((hzero.lt_iff hv).1 hpos)⟩

/-- A threshold is not reached by no calls. -/
theorem not_le_rate_zero (h : isThreshold f) {n : ℕ} (hn : 0 < n) (hle : n ≤ 2 ^ 32) :
    ¬f ≤ Counts.rate 0 n := by
  obtain ⟨q, hq, hpos⟩ := exists_isSingle_of_isThreshold h
  rw [hq.le_iff (Counts.isSingle_rate_zero hn hle)]
  exact not_le.2 (WithTop.coe_lt_coe.2 hpos)

/-- A threshold below a hundred is reached if all calls count. -/
theorem le_rate_self (h : isThreshold f) (hlt : f < 100) {n : ℕ} (hn : 0 < n) (hle : n ≤ 2 ^ 32) :
    f ≤ Counts.rate n n := by
  obtain ⟨q, hq, -⟩ := exists_isSingle_of_isThreshold h
  obtain ⟨v, hv, hrate⟩ := Counts.exists_rate_self hn hle
  have hlt := WithTop.coe_lt_coe.1 ((hq.lt_iff Counts.isSingle_hundred).1 hlt)
  rw [hq.le_iff hv]
  exact (WithTop.coe_le_coe.2 (Counts.le_of_lt_hundred hq hlt)).trans hrate

end Threshold

/-! ## Failures at one instant -/

namespace BreakPolicy

/-- The number of calls from which on a breaker decides. -/
def minimum (p : BreakPolicy) : Nat := max p.minimumCalls.toNat 1

/-- How many of the calls of one instant the window shows. -/
def shown (p : BreakPolicy) (n : Nat) : Nat :=
  match p.windowKind with
  | .count => min n p.span
  | .time => n

/-- Whether so many calls reach a threshold if all of them fail. All of them are slow as well if
every call is slow for the policy, and otherwise none need be. -/
def IsReached (p : BreakPolicy) (n : Nat) : Prop :=
  p.failureRate ≤ Counts.rate n n ∨ p.slowMillis = 0 ∧ p.slowRate ≤ Counts.rate n n

/-- Whether the end of a call counts as a failure : its time in microseconds and its cause. -/
def Fails (p : BreakPolicy) (e : Nat × String) : Prop :=
  (Breaker.outcome? p e.1 (some e.2)).any (·.failed)

instance (p : BreakPolicy) (e : Nat × String) : Decidable (p.Fails e) :=
  inferInstanceAs (Decidable (_ = true))

/-- What a failure is recorded as. -/
def failure (p : BreakPolicy) (micros : Nat) : Outcome := ⟨true, p.slowMillis.toNat * 1000 ≤ micros⟩

/-- The history of failures at a second, latest first. -/
def failures (p : BreakPolicy) (second : Nat) (errors : List (Nat × String)) :
    List TimedOutcome :=
  (errors.map fun e => ⟨second, p.failure e.1⟩).reverse

variable {p : BreakPolicy} {second : Nat} {errors : List (Nat × String)}

theorem outcome?_of_fails {e : Nat × String} (h : p.Fails e) :
    Breaker.outcome? p e.1 (some e.2) = some (p.failure e.1) := by
  unfold Fails at h
  unfold Breaker.outcome? at h ⊢
  dsimp only at h ⊢
  split at h
  · cases h
  · next hkept =>
    have hfailed : (p.recordErrors.isEmpty || p.recordErrors.any (Text.occursIn · e.2)) = true := h
    rw [if_neg hkept, hfailed]
    rfl

theorem failures_append_singleton (e : Nat × String) :
    p.failures second (errors ++ [e]) = ⟨second, p.failure e.1⟩ :: p.failures second errors := by
  simp [failures]

theorem length_failures (p : BreakPolicy) (second : Nat) (errors : List (Nat × String)) :
    (p.failures second errors).length = errors.length := by
  simp [failures]

theorem exists_of_mem_failures {t : TimedOutcome} (h : t ∈ p.failures second errors) :
    ∃ e ∈ errors, t = ⟨second, p.failure e.1⟩ := by
  obtain ⟨e, he, rfl⟩ := List.mem_map.1 (List.mem_reverse.1 h)
  exact ⟨e, he, rfl⟩

theorem shown_le (p : BreakPolicy) (n : Nat) : p.shown n ≤ n := by
  unfold shown
  split
  · exact min_le_left _ _
  · exact le_rfl

theorem counted_failures :
    p.counted (p.failures second errors) second =
      (p.failures second errors).take (p.shown errors.length) := by
  unfold counted shown
  cases p.windowKind with
  | count =>
    dsimp only
    rw [← length_failures p second errors, min_comm, ← List.take_eq_take_min]
  | time =>
    have hall : ∀ t ∈ p.failures second errors, second < t.second + p.span := by
      intro t ht
      obtain ⟨e, -, rfl⟩ := exists_of_mem_failures ht
      exact Nat.lt_add_of_pos_right p.span_pos
    dsimp only
    rw [List.filter_eq_self.2 (by simpa using hall), ← length_failures p second errors,
      List.take_length]

/-- The counts of a history of failures. -/
def tallied (p : BreakPolicy) (second : Nat) (errors : List (Nat × String)) : Counts :=
  .ofHistory (p.counted (p.failures second errors) second)

theorem calls_tallied : (p.tallied second errors).calls = p.shown errors.length := by
  rw [tallied, counted_failures]
  change (List.take _ _).length = _
  rw [List.length_take, length_failures, min_eq_left (p.shown_le _)]

theorem countP_tallied {f : TimedOutcome → Bool}
    (h : ∀ e ∈ errors, f ⟨second, p.failure e.1⟩) :
    (p.counted (p.failures second errors) second).countP f = (p.tallied second errors).calls := by
  refine List.countP_eq_length.2 fun t ht => ?_
  rw [counted_failures] at ht
  obtain ⟨e, he, rfl⟩ := exists_of_mem_failures (List.mem_of_mem_take ht)
  exact h e he

theorem failures_tallied : (p.tallied second errors).failures = (p.tallied second errors).calls :=
  countP_tallied fun _ _ => rfl

/-- All failures are slow if every call is slow for the policy. -/
theorem slow_tallied (h : p.slowMillis = 0) :
    (p.tallied second errors).slow = (p.tallied second errors).calls :=
  countP_tallied fun e _ => by simp [failure, h]

/-- Failures that took no time are not slow otherwise. -/
theorem slow_tallied_eq_zero (h : p.slowMillis ≠ 0) (herrors : ∀ e ∈ errors, e.1 = 0) :
    (p.tallied second errors).slow = 0 := by
  refine List.countP_eq_zero.2 fun t ht => ?_
  rw [counted_failures] at ht
  obtain ⟨e, he, rfl⟩ := exists_of_mem_failures (List.mem_of_mem_take ht)
  have hpos : p.slowMillis.toNat ≠ 0 := fun h0 => h (UInt64.toNat_inj.1 h0)
  simp [failure, herrors e he, hpos]

/-- Whether some of the first failures exceed the thresholds. -/
def Trips (p : BreakPolicy) (second : Nat) (errors : List (Nat × String)) : Prop :=
  ∃ early, early <+: errors ∧ Breaker.exceeds p (p.tallied second early)

theorem not_trips_nil : ¬p.Trips second [] := by
  rintro ⟨early, hearly, hexceeds⟩
  obtain rfl := List.prefix_nil.1 hearly
  have hcalls := (Bool.and_eq_true_iff.1 hexceeds).1
  rw [decide_eq_true_eq, calls_tallied] at hcalls
  have hshown := p.shown_le 0
  simp only [List.length_nil] at hcalls
  omega

theorem trips_append_singleton {e : Nat × String} :
    p.Trips second (errors ++ [e]) ↔
      p.Trips second errors ∨ Breaker.exceeds p (p.tallied second (errors ++ [e])) := by
  simp only [Trips, List.prefix_concat_iff]
  constructor
  · rintro ⟨early, rfl | hearly, hexceeds⟩
    · exact .inr hexceeds
    · exact .inl ⟨early, hearly, hexceeds⟩
  · rintro (⟨early, hearly, hexceeds⟩ | hexceeds)
    · exact ⟨early, .inr hearly, hexceeds⟩
    · exact ⟨_, .inl rfl, hexceeds⟩

end BreakPolicy

/-! ## Lives of failures -/

namespace BreakerLife

variable {o : BreakerOrigin} {now : Nat} {errors : List (Nat × String)}

/-- Calls that end at one instant, each with its time and its cause. -/
def reports (now : Nat) (errors : List (Nat × String)) : List (Nat × BreakerCall) :=
  errors.map fun e => (now, .complete e.1 (some e.2))

/-- What becomes of a new breaker at failures of one instant. -/
structure IsTried (o : BreakerOrigin) (now : Nat) (errors : List (Nat × String)) (b : Breaker) :
    Prop where
  breaker : ((start o).run (reports now errors)).registry.breaker? 0 = some b
  policy : b.policy = o.policy
  epoch : b.epoch = o.epoch
  state : b.state = .opened ∧ o.policy.Trips (o.second now) errors ∨
    b.state = .closed ∧ ¬o.policy.Trips (o.second now) errors ∧
      b.window.Keeps o.policy (o.policy.failures (o.second now) errors) (o.second now)

theorem isTried_nil (o : BreakerOrigin) (now : Nat) :
    IsTried o now [] (.create o.uri o.policy o.epoch) where
  breaker := rfl
  policy := rfl
  epoch := rfl
  state := .inr ⟨rfl, BreakPolicy.not_trips_nil, Window.keeps_ofPolicy ..⟩

/-- A closed breaker opens at a failure exactly if the failures exceed the thresholds with it. -/
theorem IsTried.append_singleton {b : Breaker} (h : IsTried o now errors b) {e : Nat × String}
    (he : o.policy.Fails e) :
    IsTried o now (errors ++ [e]) (b.record (o.policy.failure e.1) now).2 := by
  have hsecond : b.elapsedSeconds now = o.second now := by
    rw [Breaker.elapsedSeconds, h.epoch, BreakerOrigin.second]
  have houtcome : Breaker.outcome? b.policy e.1 (some e.2) = some (o.policy.failure e.1) := by
    rw [h.policy, BreakPolicy.outcome?_of_fails he]
  have hmoves := b.moves_record (o.policy.failure e.1) now
  refine ⟨?_, hmoves.policy.trans h.policy, hmoves.epoch.trans h.epoch, ?_⟩
  · have hrun : (start o).run (reports now (errors ++ [e])) =
        ((start o).run (reports now errors)).step (now, .complete e.1 (some e.2)) := by
      simp [reports, run]
    have htells := ((start o).run (reports now errors)).registry.onlyTells_announce 0
      (b.told now (.complete e.1 (some e.2)))
    rw [hrun, step, BreakerRegistry.call_eq h.breaker,
      BreakerRegistry.breaker?_update_self (htells.breaker? 0 |>.trans h.breaker), Breaker.called,
      Breaker.complete_of_outcome houtcome]
  · rw [BreakPolicy.trips_append_singleton, BreakPolicy.failures_append_singleton]
    rcases h.state with ⟨hopened, htrips⟩ | ⟨hclosed, htrips, hkeeps⟩
    · refine .inl ⟨?_, .inl htrips⟩
      simp [Breaker.record, hopened]
    · have htally : (b.tally (o.policy.failure e.1) now).1 =
          o.policy.tallied (o.second now) (errors ++ [e]) := by
        rw [BreakPolicy.tallied, BreakPolicy.failures_append_singleton, Breaker.tally, hsecond]
        exact (hkeeps.record _).1
      have hkept := (hkeeps.record (o.policy.failure e.1)).2
      rw [← hsecond] at hkept
      rw [← htally]
      rcases hrecord : b.record (o.policy.failure e.1) now with ⟨change, b'⟩
      cases Breaker.records hrecord with
      | counted _ few =>
        rw [h.policy] at few
        exact .inr ⟨hclosed, not_or.2 ⟨htrips, few⟩, hsecond ▸ hkept⟩
      | tripped _ many =>
        rw [h.policy] at many
        exact .inl ⟨rfl, .inr many⟩
      | ignored hstate | failed hstate | passed hstate | healed hstate => simp [hclosed] at hstate

/-- A new breaker that is tried with failures of one instant is open or closed afterwards, and open
exactly if some of the first ones exceed the thresholds. -/
theorem exists_isTried (h : ∀ e ∈ errors, o.policy.Fails e) : ∃ b, IsTried o now errors b := by
  induction errors using List.reverseRecOn with
  | nil => exact ⟨_, isTried_nil o now⟩
  | append_singleton errors e ih =>
    obtain ⟨b, hb⟩ := ih fun e he => h e (List.mem_append_left _ he)
    exact ⟨_, hb.append_singleton (h e (by simp))⟩

theorem isOpened_iff_trips (h : ∀ e ∈ errors, o.policy.Fails e) :
    (((start o).run (reports now errors)).registry.breaker? 0).map (·.state) = some .opened ↔
      o.policy.Trips (o.second now) errors := by
  obtain ⟨b, hb⟩ : ∃ b, IsTried o now errors b := exists_isTried h
  rw [hb.breaker, Option.map_some, Option.some.injEq]
  rcases hb.state with ⟨hopened, htrips⟩ | ⟨hclosed, htrips, -⟩
  · exact iff_of_true hopened htrips
  · exact iff_of_false (by simp [hclosed]) htrips

end BreakerLife

/-! ## Total failure -/

namespace BreakPolicy

variable {p : BreakPolicy}

/-- Whether so many failures of one instant leave a new breaker of the policy open, whoever listens
and whatever the failures are. -/
def OpensAfter (p : BreakPolicy) (n : Nat) : Prop :=
  ∀ (o : BreakerOrigin) (now : Nat) (errors : List (Nat × String)), o.policy = p →
    errors.length = n → (∀ e ∈ errors, p.Fails e) →
      (((BreakerLife.start o).run (BreakerLife.reports now errors)).registry.breaker? 0).map
        (·.state) = some .opened

/-- Whether a breaker of the policy opens when calls do nothing but fail. -/
def OpensUnderFailure (p : BreakPolicy) : Prop := ∃ n, p.OpensAfter n

theorem check_eq_ok_iff : p.check = .ok () ↔
    p.name ≠ "" ∧ isThreshold p.failureRate ∧ isThreshold p.slowRate := by
  unfold check
  split_ifs <;> simp_all

theorem exceeds_tallied_iff {second : Nat} {errors : List (Nat × String)} :
    Breaker.exceeds p (p.tallied second errors) ↔ p.minimum ≤ (p.tallied second errors).calls ∧
      (p.failureRate ≤ Counts.rate (p.tallied second errors).calls (p.tallied second errors).calls ∨
        p.slowRate ≤
          Counts.rate (p.tallied second errors).slow (p.tallied second errors).calls) := by
  have hrate : (p.tallied second errors).failureRate =
      Counts.rate (p.tallied second errors).calls (p.tallied second errors).calls := by
    rw [Counts.failureRate, failures_tallied]
  unfold Breaker.exceeds
  rw [hrate]
  simp only [Bool.and_eq_true, Bool.or_eq_true, decide_eq_true_eq]
  rfl

/-- As many failures as it takes, if the window shows them all. -/
theorem opensAfter_of_isReached {n : Nat} (hmin : p.minimum ≤ n) (hshown : p.shown n = n)
    (hreached : p.IsReached n) : p.OpensAfter n := by
  rintro o now errors rfl hlength hfails
  rw [BreakerLife.isOpened_iff_trips hfails]
  refine ⟨errors, List.prefix_refl errors, exceeds_tallied_iff.2 ?_⟩
  rw [calls_tallied, hlength, hshown]
  refine ⟨hmin, hreached.imp_right fun ⟨hslow, hrate⟩ => ?_⟩
  rwa [slow_tallied hslow, calls_tallied, hlength, hshown]

theorem fails_of_fails {e : Nat × String} (h : p.Fails e) (micros : Nat) :
    p.Fails (micros, e.2) := by
  unfold Fails Breaker.outcome? at h ⊢
  dsimp only at h ⊢
  split at h
  · cases h
  · next hkept =>
    rw [if_neg hkept]
    exact h

theorem span_lt (p : BreakPolicy) : p.span < 2 ^ 32 := by
  have h := p.windowSize.toNat_lt
  unfold span
  omega

theorem minimum_pos (p : BreakPolicy) : 0 < p.minimum := by
  unfold minimum
  omega

theorem shown_of_count (hkind : p.windowKind = .count) (n : Nat) : p.shown n = min n p.span := by
  rw [shown, hkind]

/-- If failures open a breaker that counts the latest calls, the window can show enough of them. -/
theorem exists_isReached_of_opensAfter (h : p.check = .ok ()) (hkind : p.windowKind = .count)
    {e : Nat × String} (he : p.Fails e) {n : Nat} (hopens : p.OpensAfter n) :
    ∃ k, p.minimum ≤ k ∧ k ≤ p.span ∧ p.IsReached k := by
  obtain ⟨-, -, hslowRate⟩ := check_eq_ok_iff.1 h
  -- The failures take no time, so that they are slow only if every call is.
  have hfails : ∀ e' ∈ List.replicate n (0, e.2), p.Fails e' := fun e' he' => by
    obtain rfl := List.eq_of_mem_replicate he'
    exact fails_of_fails he 0
  have htrips := hopens ⟨"", "", p, 0, []⟩ 0 _ rfl List.length_replicate hfails
  rw [BreakerLife.isOpened_iff_trips hfails] at htrips
  obtain ⟨early, hearly, hexceeds⟩ := htrips
  have hmicros : ∀ e' ∈ early, e'.1 = 0 := fun e' he' => by
    rw [List.eq_of_mem_replicate (hearly.subset he')]
  obtain ⟨hmin, hrate⟩ := exceeds_tallied_iff.1 hexceeds
  have hspan : (p.tallied (BreakerOrigin.second ⟨"", "", p, 0, []⟩ 0) early).calls ≤ p.span := by
    rw [calls_tallied, shown_of_count hkind]
    exact min_le_right _ _
  refine ⟨_, hmin, hspan, hrate.imp_right fun hslow => ?_⟩
  by_cases hzero : p.slowMillis = 0
  · rw [slow_tallied hzero] at hslow
    exact ⟨hzero, hslow⟩
  · rw [slow_tallied_eq_zero hzero hmicros] at hslow
    exact absurd hslow
      (not_le_rate_zero hslowRate (p.minimum_pos.trans_le hmin) (hspan.trans p.span_lt.le))

/-- The greatest number of calls that is counted is a hundred percent of itself. -/
theorem isReached_greatest (h : isThreshold p.failureRate) : p.IsReached 4294967295 := by
  have hrate : Counts.rate 4294967295 4294967295 = 100 := by decide +kernel
  refine .inl ?_
  rw [hrate]
  exact of_decide_eq_true (Bool.and_eq_true_iff.1 h).2

/-- When a breaker opens under total failure. One that looks back on seconds always does. One that
looks back on calls must have room for as many as the policy demands, at a number that is computed
to reach a threshold. It is then enough that the threshold is below a hundred. -/
theorem opensUnderFailure_iff (h : p.check = .ok ()) :
    (p.OpensUnderFailure ↔ (∀ e, ¬p.Fails e) ∨ p.windowKind = .time ∨
        ∃ n, p.minimum ≤ n ∧ n ≤ p.span ∧ p.IsReached n) ∧
      (p.minimum ≤ p.span → p.failureRate < 100 → p.OpensUnderFailure) := by
  obtain ⟨-, hfailureRate, -⟩ := check_eq_ok_iff.1 h
  have hfits {n : Nat} (hspan : n ≤ p.span) : p.shown n = n := by
    unfold shown
    split
    · exact min_eq_left hspan
    · rfl
  refine ⟨⟨fun ⟨n, hopens⟩ => ?_, ?_⟩, fun hspan hlt => ?_⟩
  · refine or_iff_not_imp_left.2 fun hfails => ?_
    obtain ⟨e, he⟩ := not_forall_not.1 hfails
    cases hkind : p.windowKind with
    | time => exact .inl rfl
    | count => exact .inr (exists_isReached_of_opensAfter h hkind he hopens)
  · rintro (hnever | hkind | ⟨n, hmin, hspan, hreached⟩)
    · refine ⟨1, fun o now errors _ hlength hfails => ?_⟩
      obtain ⟨e, rfl⟩ := List.length_eq_one_iff.1 hlength
      exact absurd (hfails e (by simp)) (hnever e)
    · have hmin : p.minimum ≤ 4294967295 := by
        have hlt := p.minimumCalls.toNat_lt
        unfold minimum
        omega
      exact ⟨_, opensAfter_of_isReached hmin (by rw [shown, hkind])
        (isReached_greatest hfailureRate)⟩
    · exact ⟨n, opensAfter_of_isReached hmin (hfits hspan) hreached⟩
  · have hreached : p.IsReached p.minimum :=
      .inl (le_rate_self hfailureRate hlt p.minimum_pos (hspan.trans p.span_lt.le))
    exact ⟨_, opensAfter_of_isReached le_rfl (hfits hspan) hreached⟩

/-- All of so many calls are less than a hundred percent of them, as it is computed. -/
example : Counts.rate 671089 671089 < 100 := by decide +kernel

/-- The defaults demand ten calls of a window of a hundred. -/
theorem opensUnderFailure_default :
    check { name := "default" } = .ok () ∧ OpensUnderFailure { name := "default" } :=
  ⟨by decide +kernel,
    (opensUnderFailure_iff (by decide +kernel)).2 (by decide) (by decide +kernel)⟩

/-- A policy whose window shows one call while it demands two. -/
def cramped : BreakPolicy := { name := "cramped", windowSize := 1, minimumCalls := 2 }

/-- No number of failures opens a breaker whose window shows fewer calls than are demanded, although
the registry takes its policy. -/
theorem not_opensUnderFailure : ¬∀ p : BreakPolicy, p.check = .ok () → p.OpensUnderFailure := by
  intro h
  have hcheck : cramped.check = .ok () := by decide +kernel
  have hfails : cramped.Fails (0, "down") := by decide +kernel
  obtain ⟨n, hopens⟩ := h cramped hcheck
  obtain ⟨k, hmin, hspan, -⟩ := exists_isReached_of_opensAfter hcheck rfl hfails hopens
  exact absurd (hmin.trans hspan) (by decide)

end BreakPolicy

end TrafficControl
