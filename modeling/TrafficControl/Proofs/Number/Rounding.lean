import Mathlib

/-!
# Rounding to a format

How the numbers of a floating-point format are rounded, read over the rational numbers. A
significand goes through a shift with two residual bits, which keep on which side of its two
neighbours a number lies (`StandsFor`), so that the shifted significand is rounded to a nearest
whole number (`StandsFor.abs_rounded_sub_le`).

The result is canonical (`IsCanonical`), and it is a nearest multiple of the distance that the
numbers of the format have there (`IsRounding`). Rounding is monotone for this reason : it does not
cross a number of the format (`IsRounding.le_of_le`, `IsRounding.ge_of_ge`).
-/

namespace TrafficControl

open Float.Model (Format UnpackedFloat totalExponent)
open Float.Model.UnpackedFloat

/-! ## Residual bits -/

/-- Whether a significand with its residual bits stands for a number. -/
def StandsFor : ExtendedMantissa → ℚ → Prop
  | ⟨m, false, false⟩, x => x = m
  | ⟨m, false, true⟩, x => m < x ∧ x < m + 1 / 2
  | ⟨m, true, false⟩, x => x = m + 1 / 2
  | ⟨m, true, true⟩, x => m + 1 / 2 < x ∧ x < m + 1

variable {em : ExtendedMantissa} {x : ℚ}

theorem standsFor_exact (m : ℕ) : StandsFor (.ofMantissaAndAccuracy m .exact) m := rfl

/-- The significand is what it stands for without its fraction. -/
theorem StandsFor.mantissa_le (h : StandsFor em x) : em.mantissa ≤ x ∧ x < em.mantissa + 1 := by
  rcases em with ⟨m, _ | _, _ | _⟩ <;> simp only [StandsFor] at h <;> constructor <;> linarith

/-- The rounded significand is one of the nearest whole numbers. -/
theorem StandsFor.abs_rounded_sub_le (h : StandsFor em x) :
    |(em.roundedMantissa : ℚ) - x| ≤ 1 / 2 := by
  rw [abs_le]
  rcases em with ⟨m, _ | _, _ | _⟩ <;>
    simp only [StandsFor, ExtendedMantissa.roundedMantissa, ExtendedMantissa.accuracy,
      Accuracy.roundToNearestEven] at h ⊢
  · constructor <;> linarith
  · constructor <;> linarith
  · have heven : ((m % 2 : ℕ) : ℚ) ≤ 1 := by exact_mod_cast Nat.lt_succ_iff.1 (Nat.mod_lt m two_pos)
    have hpos : (0 : ℚ) ≤ ((m % 2 : ℕ) : ℚ) := Nat.cast_nonneg _
    push_cast
    constructor <;> linarith
  · push_cast
    constructor <;> linarith

theorem StandsFor.shiftRightOne (h : StandsFor em x) : StandsFor em.shiftRightOne (x / 2) := by
  rcases em with ⟨m, r, s⟩
  have hm : (m : ℚ) = 2 * (m / 2 : ℕ) + (m % 2 : ℕ) := by
    exact_mod_cast (Nat.div_add_mod m 2).symm
  rcases Nat.mod_two_eq_zero_or_one m with hbit | hbit <;>
    rw [hbit] at hm <;> rcases r <;> rcases s <;>
    simp [StandsFor, ExtendedMantissa.shiftRightOne, hbit, hm] at h ⊢
  all_goals first | (constructor <;> linarith) | linarith

/-- A shift divides by a power of two, without loss. -/
theorem StandsFor.shiftRight (h : StandsFor em x) (k : ℕ) : StandsFor (em >>> k) (x / 2 ^ k) := by
  change StandsFor (k.repeat ExtendedMantissa.shiftRightOne em) _
  induction k with
  | zero => simpa [Nat.repeat] using h
  | succ k ih =>
    rw [Nat.repeat, pow_succ, ← div_div]
    exact ih.shiftRightOne

/-- The quotient of a division, with what its remainder says of the residual bits. -/
theorem standsFor_quotient (a : ℕ) {b : ℕ} (hb : 0 < b) :
    StandsFor (.ofMantissaAndAccuracy (a / b) (accuracyOfFraction (a % b) b)) (a / b) := by
  have hb' : (0 : ℚ) < b := by exact_mod_cast hb
  have hdiv : (a : ℚ) / b = (a / b : ℕ) + ((a % b : ℕ) : ℚ) / b := by
    rw [div_eq_iff hb'.ne', add_mul, div_mul_cancel₀ _ hb'.ne']
    exact_mod_cast (Nat.div_add_mod' a b).symm
  have hlt : ((a % b : ℕ) : ℚ) / b < 1 := by
    rw [div_lt_one hb']
    exact_mod_cast Nat.mod_lt a hb
  rw [hdiv]
  unfold accuracyOfFraction
  by_cases hzero : a % b = 0
  · simp [hzero, ExtendedMantissa.ofMantissaAndAccuracy, StandsFor]
  · have hpos : 0 < ((a % b : ℕ) : ℚ) / b := by
      have : 0 < a % b := Nat.pos_of_ne_zero hzero
      positivity
    rw [if_neg hzero]
    rcases lt_trichotomy (2 * (a % b)) b with hcmp | hcmp | hcmp
    · have hhalf : ((a % b : ℕ) : ℚ) / b < 1 / 2 := by
        rw [div_lt_div_iff₀ hb' two_pos]
        exact_mod_cast (by omega : a % b * 2 < 1 * b)
      rw [Nat.compare_eq_lt.2 hcmp]
      exact ⟨by linarith, by linarith⟩
    · have hhalf : ((a % b : ℕ) : ℚ) / b = 1 / 2 := by
        rw [div_eq_div_iff hb'.ne' two_ne_zero]
        exact_mod_cast (by omega : a % b * 2 = 1 * b)
      rw [Nat.compare_eq_eq.2 hcmp, hhalf]
      rfl
    · have hhalf : 1 / 2 < ((a % b : ℕ) : ℚ) / b := by
        rw [div_lt_div_iff₀ two_pos hb']
        exact_mod_cast (by omega : 1 * b < a % b * 2)
      rw [Nat.compare_eq_gt.2 hcmp]
      exact ⟨by linarith, by linarith⟩

/-! ## Canonical significands -/

/-- Whether `m * 2 ^ e` is how a format writes a number : with all bits of the significand, or with
the least exponent. -/
structure IsCanonical (spec : Format) (m : ℕ) (e : ℤ) : Prop where
  lt : m < 2 * 2 ^ spec.mantissaBitsWithoutImplicit
  least : spec.minExponent ≤ e
  normal : e = spec.minExponent ∨ 2 ^ spec.mantissaBitsWithoutImplicit ≤ m

variable {spec : Format} {m m' : ℕ} {e e' : ℤ}

theorem two_pow_mantissaBits (spec : Format) :
    2 ^ spec.mantissaBits = 2 * 2 ^ spec.mantissaBitsWithoutImplicit := by
  rw [Format.mantissaBits, pow_add, pow_one]

/-- All numbers with a less exponent are below the first significand with all bits. -/
theorem IsCanonical.lt_two_pow_mul (h : IsCanonical spec m e) (hlt : e < e') :
    (m : ℚ) * 2 ^ e < 2 ^ spec.mantissaBitsWithoutImplicit * 2 ^ e' := by
  have hm : (m : ℚ) < 2 * 2 ^ spec.mantissaBitsWithoutImplicit := by exact_mod_cast h.lt
  have hpow : (2 : ℚ) * 2 ^ e ≤ 2 ^ e' := by
    rw [← zpow_one_add₀ two_ne_zero]
    exact zpow_le_zpow_right₀ one_le_two (by omega)
  calc (m : ℚ) * 2 ^ e < 2 * 2 ^ spec.mantissaBitsWithoutImplicit * 2 ^ e :=
        mul_lt_mul_of_pos_right hm (by positivity)
    _ = 2 ^ spec.mantissaBitsWithoutImplicit * (2 * 2 ^ e) := by ring
    _ ≤ _ := mul_le_mul_of_nonneg_left hpow (by positivity)

/-- A number with a greater exponent is greater. -/
theorem IsCanonical.lt_of_exponent_lt (h : IsCanonical spec m e) (h' : IsCanonical spec m' e')
    (hlt : e < e') : (m : ℚ) * 2 ^ e < m' * 2 ^ e' := by
  have hleast := h.least
  have hnormal := h'.normal.resolve_left (by omega)
  exact (h.lt_two_pow_mul hlt).trans_le
    (mul_le_mul_of_nonneg_right (by exact_mod_cast hnormal) (by positivity))

/-- Canonical numbers are compared by their exponents, and by their significands where these are
the same. -/
theorem IsCanonical.le_iff (h : IsCanonical spec m e) (h' : IsCanonical spec m' e') :
    (m : ℚ) * 2 ^ e ≤ m' * 2 ^ e' ↔ ((compare e e').then (compare m m')).isLE := by
  rcases lt_trichotomy e e' with hlt | rfl | hlt
  · simpa [compare_lt_iff_lt.2 hlt] using (h.lt_of_exponent_lt h' hlt).le
  · rw [mul_le_mul_iff_left₀ (by positivity)]
    simp [Nat.isLE_compare]
  · simpa [compare_gt_iff_gt.2 hlt] using h'.lt_of_exponent_lt h hlt

/-! ## Rounding -/

/-- Whether `v` is a number rounded to a nearest multiple of `2 ^ t`, which is how far apart the
numbers of a format are there. -/
structure IsRounding (spec : Format) (q v : ℚ) (t : ℤ) : Prop where
  near : |v - q| ≤ 2 ^ t / 2
  multiple : ∃ r : ℕ, v = r * 2 ^ t
  least : spec.minExponent ≤ t
  normal : t = spec.minExponent ∨ 2 ^ spec.mantissaBitsWithoutImplicit * 2 ^ t ≤ q

/-- A nearest multiple is on the same side of every other multiple as the number is. -/
theorem le_of_near {t : ℤ} {r b : ℕ} {q : ℚ} (hnear : |(r : ℚ) * 2 ^ t - q| ≤ 2 ^ t / 2) :
    ((b : ℚ) * 2 ^ t ≤ q → b ≤ r) ∧ (q ≤ (b : ℚ) * 2 ^ t → r ≤ b) := by
  have hpow : (0 : ℚ) < 2 ^ t := by positivity
  obtain ⟨hlow, hhigh⟩ := abs_le.1 hnear
  constructor
  · intro hq
    have hlt : (b : ℚ) * 2 ^ t < (r + 1) * 2 ^ t := by linarith
    have := lt_of_mul_lt_mul_right hlt hpow.le
    exact_mod_cast Nat.lt_succ_iff.1 (by exact_mod_cast this)
  · intro hq
    have hlt : (r : ℚ) * 2 ^ t < (b + 1) * 2 ^ t := by linarith
    have := lt_of_mul_lt_mul_right hlt hpow.le
    exact_mod_cast Nat.lt_succ_iff.1 (by exact_mod_cast this)

theorem mul_two_zpow_eq {t e : ℤ} (m : ℕ) (h : t ≤ e) :
    (m : ℚ) * 2 ^ e = (m * 2 ^ (e - t).toNat : ℕ) * 2 ^ t := by
  have hsplit : e = (e - t).toNat + t := by omega
  conv_lhs => rw [hsplit, zpow_add₀ two_ne_zero, zpow_natCast]
  push_cast
  ring

namespace IsRounding

variable {q v : ℚ} {t : ℤ}

/-- The rounded number has all bits of the significand too. -/
theorem normal' (h : IsRounding spec q v t) :
    t = spec.minExponent ∨ 2 ^ spec.mantissaBitsWithoutImplicit * 2 ^ t ≤ v := by
  obtain ⟨hnear, ⟨r, rfl⟩, -, hnormal⟩ := h
  refine hnormal.imp_right fun hq => ?_
  have hr : 2 ^ spec.mantissaBitsWithoutImplicit ≤ r := (le_of_near hnear).1 (by exact_mod_cast hq)
  exact mul_le_mul_of_nonneg_right (by exact_mod_cast hr) (by positivity)

/-- Rounding does not go below a number of the format. -/
theorem le_of_le (h : IsRounding spec q v t) (hy : IsCanonical spec m e)
    (hle : (m : ℚ) * 2 ^ e ≤ q) : (m : ℚ) * 2 ^ e ≤ v := by
  rcases lt_or_ge e t with hlt | hge
  · have hleast := hy.least
    exact (hy.lt_two_pow_mul hlt).le.trans (h.normal'.resolve_left (by omega))
  · obtain ⟨hnear, ⟨r, rfl⟩, -, -⟩ := h
    rw [mul_two_zpow_eq m hge] at hle ⊢
    exact mul_le_mul_of_nonneg_right (by exact_mod_cast (le_of_near hnear).1 hle) (by positivity)

/-- Rounding does not go above a number of the format. -/
theorem ge_of_ge (h : IsRounding spec q v t) (hy : IsCanonical spec m e)
    (hle : q ≤ (m : ℚ) * 2 ^ e) : v ≤ (m : ℚ) * 2 ^ e := by
  rcases lt_or_ge e t with hlt | hge
  · have hleast := hy.least
    have hq := h.normal.resolve_left (by omega)
    exact absurd (hy.lt_two_pow_mul hlt) (not_lt.2 (hq.trans hle))
  · obtain ⟨hnear, ⟨r, rfl⟩, -, -⟩ := h
    rw [mul_two_zpow_eq m hge] at hle ⊢
    exact mul_le_mul_of_nonneg_right (by exact_mod_cast (le_of_near hnear).2 hle) (by positivity)

end IsRounding

/-! ## Rounded significands -/

/-- The number of a sign, a significand that may be zero and an exponent. -/
def numberOf (s : Sign) (m : ℕ) (e : ℤ) : UnpackedFloat :=
  if h : m = 0 then .zero s else .finite s m e (Nat.pos_of_ne_zero h)

theorem mantissa_ofMantissaAndAccuracy (m : ℕ) (acc : Accuracy) :
    (ExtendedMantissa.ofMantissaAndAccuracy m acc).mantissa = m := by
  rcases acc with _ | _ | _ | _ <;> rfl

/-- What fits is not shifted. -/
theorem shiftToTargetExponent_of_lt (hm : m < 2 ^ spec.mantissaBits) (he : spec.minExponent ≤ e) :
    shiftToTargetExponent spec m e .exact = (⟨m, false, false⟩, e) := by
  have hlog : m.log2 < spec.mantissaBits := by
    rcases eq_or_ne m 0 with rfl | hzero
    · simp [Format.mantissaBits]
    · exact (Nat.log2_lt hzero).2 hm
  have hshift : (spec.targetExponent (totalExponent m e) - e).toNat = 0 := by
    unfold Format.targetExponent totalExponent
    omega
  simp only [shiftToTargetExponent, shiftToExponent, hshift]
  exact Prod.ext rfl (add_zero e)

/-- A carry is shifted by one. -/
theorem shiftToTargetExponent_carry (he : spec.minExponent ≤ e) :
    shiftToTargetExponent spec (2 ^ spec.mantissaBits) e .exact =
      (⟨2 ^ spec.mantissaBitsWithoutImplicit, false, false⟩, e + 1) := by
  have hshift : (spec.targetExponent (totalExponent (2 ^ spec.mantissaBits) e) - e).toNat = 1 := by
    rw [totalExponent, Nat.log2_two_pow]
    unfold Format.targetExponent
    omega
  have heven : 2 ^ spec.mantissaBits % 2 = 0 := by rw [two_pow_mantissaBits, Nat.mul_mod_right]
  have hhalf : 2 ^ spec.mantissaBits / 2 = 2 ^ spec.mantissaBitsWithoutImplicit := by
    rw [two_pow_mantissaBits, Nat.mul_div_cancel_left _ two_pos]
  simp only [shiftToTargetExponent, shiftToExponent, hshift]
  refine Prod.ext ?_ rfl
  change ExtendedMantissa.shiftRightOne ⟨2 ^ spec.mantissaBits, false, false⟩ = _
  simp [ExtendedMantissa.shiftRightOne, heven, hhalf]

/-- Whether a shift by `k` places leaves as many bits of a significand as the format takes. -/
structure IsShift (spec : Format) (m : ℕ) (e : ℤ) (k : ℕ) : Prop where
  lt : m < 2 ^ (spec.mantissaBits + k)
  least : spec.minExponent ≤ e + k
  normal : e + k = spec.minExponent ∨ 2 ^ (spec.mantissaBitsWithoutImplicit + k) ≤ m

/-- The shift that rounding makes, as long as there are as many bits as the format takes. -/
theorem exists_isShift (he : e ≤ spec.targetExponent (totalExponent m e)) :
    ∃ k, IsShift spec m e k ∧ (spec.targetExponent (totalExponent m e) - e).toNat = k := by
  refine ⟨_, ⟨?_, ?_, ?_⟩, rfl⟩ <;> unfold Format.targetExponent totalExponent at *
  · rcases eq_or_ne m 0 with rfl | hzero
    · positivity
    · exact (Nat.log2_lt hzero).1 (by omega)
  · omega
  · refine or_iff_not_imp_left.2 fun hleast => ?_
    have hlog : spec.mantissaBits = 1 + spec.mantissaBitsWithoutImplicit := rfl
    have hbits := spec.hm
    have hzero : m ≠ 0 := by
      rintro rfl
      rw [Nat.log2_zero] at he hleast
      omega
    exact (Nat.le_log2 hzero).1 (by omega)

section Shift

variable {k : ℕ} {acc : Accuracy}

theorem shifted_value (x : ℚ) (e : ℤ) (k : ℕ) : x / 2 ^ k * 2 ^ (e + k) = x * 2 ^ e := by
  rw [zpow_add₀ two_ne_zero, zpow_natCast]
  field_simp

/-- The rounded significand is nearest to what the shifted one stands for. -/
theorem StandsFor.abs_shifted_sub_le (h : StandsFor em x) (e : ℤ) (k : ℕ) :
    |((em >>> k).roundedMantissa : ℚ) * 2 ^ (e + k) - x * 2 ^ e| ≤ 2 ^ (e + k) / 2 := by
  have habs := (h.shiftRight k).abs_rounded_sub_le
  rw [← shifted_value x e k, ← sub_mul, abs_mul, abs_of_pos (by positivity : (0 : ℚ) < 2 ^ (e + k))]
  calc |((em >>> k).roundedMantissa : ℚ) - x / 2 ^ k| * 2 ^ (e + k) ≤ 1 / 2 * 2 ^ (e + k) :=
        mul_le_mul_of_nonneg_right habs (by positivity)
    _ = 2 ^ (e + k) / 2 := by ring

variable (hk : IsShift spec m e k) (hx : StandsFor (.ofMantissaAndAccuracy m acc) x)
include hk hx

/-- A rounded significand has at most one bit too many. -/
theorem IsShift.rounded_le :
    (ExtendedMantissa.ofMantissaAndAccuracy m acc >>> k).roundedMantissa ≤
      2 ^ spec.mantissaBits := by
  have hxm := hx.mantissa_le.2
  rw [mantissa_ofMantissaAndAccuracy] at hxm
  refine (le_of_near (hx.abs_shifted_sub_le e k)).2 ?_
  have hle : x ≤ 2 ^ spec.mantissaBits * 2 ^ k := by
    rw [← pow_add]
    exact hxm.le.trans (by exact_mod_cast hk.lt)
  rw [← shifted_value x e k, div_mul_eq_mul_div, div_le_iff₀ (by positivity)]
  push_cast
  calc x * 2 ^ (e + k) ≤ 2 ^ spec.mantissaBits * 2 ^ k * 2 ^ (e + k) :=
        mul_le_mul_of_nonneg_right hle (by positivity)
    _ = 2 ^ spec.mantissaBits * 2 ^ (e + k) * 2 ^ k := by ring

theorem IsShift.isRounding :
    IsRounding spec (x * 2 ^ e)
      ((ExtendedMantissa.ofMantissaAndAccuracy m acc >>> k).roundedMantissa * 2 ^ (e + k))
      (e + k) := by
  have hmx := hx.mantissa_le.1
  rw [mantissa_ofMantissaAndAccuracy] at hmx
  refine ⟨hx.abs_shifted_sub_le e k, ⟨_, rfl⟩, hk.least, hk.normal.imp_right fun hlow => ?_⟩
  have hle : (2 ^ spec.mantissaBitsWithoutImplicit * 2 ^ k : ℚ) ≤ x := by
    rw [← pow_add]
    exact le_trans (by exact_mod_cast hlow) hmx
  rw [← shifted_value x e k]
  exact mul_le_mul_of_nonneg_right ((le_div_iff₀ (by positivity)).2 hle) (by positivity)

/-- Rounding gives a canonical number. If the rounded significand has one bit too many, it is a
power of two, and a second shift takes the bit off. -/
theorem IsShift.exists_isRounding (s : Sign)
    (heq : (spec.targetExponent (totalExponent m e) - e).toNat = k) :
    ∃ m' e' t, roundWithAccuracy spec s m e acc = numberOf s m' e' ∧ IsCanonical spec m' e' ∧
      IsRounding spec (x * 2 ^ e) (m' * 2 ^ e') t := by
  have hround := hk.isRounding hx
  have hle := hk.rounded_le hx
  have hfirst : shiftToTargetExponent spec m e acc =
      (ExtendedMantissa.ofMantissaAndAccuracy m acc >>> k, e + k) := by
    simp only [shiftToTargetExponent, shiftToExponent, heq]
  set r := (ExtendedMantissa.ofMantissaAndAccuracy m acc >>> k).roundedMantissa with hr
  rcases hle.lt_or_eq with hlt | hcarry
  · refine ⟨r, e + k, e + k, ?_, ⟨two_pow_mantissaBits spec ▸ hlt, hk.least, ?_⟩, hround⟩
    · simp only [roundWithAccuracy, hfirst, ← hr, shiftToTargetExponent_of_lt hlt hk.least]
      rfl
    · exact hround.normal.imp_right fun hq =>
        (le_of_near hround.near).1 (by exact_mod_cast hq)
  · have hleast := hk.least
    have hvalue : (r : ℚ) * 2 ^ (e + k) =
        (2 ^ spec.mantissaBitsWithoutImplicit : ℕ) * 2 ^ (e + k + 1) := by
      rw [hcarry, two_pow_mantissaBits, zpow_add_one₀ two_ne_zero]
      push_cast
      ring
    refine ⟨2 ^ spec.mantissaBitsWithoutImplicit, e + k + 1, e + k, ?_, ⟨?_, by omega, .inr le_rfl⟩,
      hvalue ▸ hround⟩
    · simp only [roundWithAccuracy, hfirst, ← hr, hcarry, shiftToTargetExponent_carry hleast]
      rfl
    · have := Nat.two_pow_pos spec.mantissaBitsWithoutImplicit
      omega

end Shift

/-- Rounding gives a canonical number, as long as there are as many bits as the format takes. -/
theorem exists_isRounding {acc : Accuracy} (hx : StandsFor (.ofMantissaAndAccuracy m acc) x)
    (he : e ≤ spec.targetExponent (totalExponent m e)) (s : Sign) :
    ∃ m' e' t, roundWithAccuracy spec s m e acc = numberOf s m' e' ∧ IsCanonical spec m' e' ∧
      IsRounding spec (x * 2 ^ e) (m' * 2 ^ e') t := by
  obtain ⟨k, hk, heq⟩ := exists_isShift he
  exact hk.exists_isRounding hx s heq

end TrafficControl
