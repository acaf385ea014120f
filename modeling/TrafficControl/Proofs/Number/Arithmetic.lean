import TrafficControl.Proofs.Number.Weight

/-!
# Arithmetic of floats

What the operations give for floats that are not negative. A product and a quotient of finite
numbers are rounded (`Weighs.mul`, `Weighs.div`), a sum is a number (`Weighs.add`), and so is a
difference with something smaller, which is no more than what was there (`Weighs.sub`). Rounding
does not cross a number of the format (`Rounds.le_of_le`, `Rounds.ge_of_ge`).

Whole numbers are rounded to doubles and to singles (`exists_isDouble_ofNat`,
`exists_isSingle_ofNat`).
-/

namespace TrafficControl

open Float.Model (Format UnpackedFloat totalExponent)
open Float.Model.UnpackedFloat

variable {spec : Format} {m m' : ℕ} {e e' : ℤ} {x y : UnpackedFloat} {v w : WithTop ℚ} {p q : ℚ}

/-! ## Rounded numbers -/

/-- What a number weighs after it is rounded to a format : infinity where the format has no number
that is large enough. -/
def Rounds (spec : Format) (q : ℚ) (v : WithTop ℚ) : Prop :=
  ∃ m e t, IsCanonical spec m e ∧ IsRounding spec q (m * 2 ^ e) t ∧
    v = if e ≤ maxExponent spec then ((m * 2 ^ e : ℚ) : WithTop ℚ) else ⊤

/-- A rounded significand is stored as what it weighs. -/
theorem weighs_stored_numberOf (hspec : 2 ≤ spec.exponentBits) (h : IsCanonical spec m e) :
    Weighs spec (stored spec (numberOf .positive m e))
      (if e ≤ maxExponent spec then ((m * 2 ^ e : ℚ) : WithTop ℚ) else ⊤) := by
  rcases Nat.eq_zero_or_pos m with rfl | hm
  · have hleast : e ≤ maxExponent spec := by
      have hbit := Nat.two_pow_pos spec.mantissaBitsWithoutImplicit
      rw [h.normal.resolve_right (by omega)]
      exact minExponent_le_maxExponent hspec
    simpa [numberOf, hleast] using (Weighs.zero .positive).kept
  · rw [numberOf, dif_neg hm.ne']
    split_ifs with hlast
    · exact (Weighs.finite h hlast hm).kept
    · rw [stored_finite_of_lt _ (not_le.1 hlast)]
      exact .infinity

theorem exists_rounds (hspec : 2 ≤ spec.exponentBits) {acc : Accuracy} {q : ℚ}
    (hq : StandsFor (.ofMantissaAndAccuracy m acc) q)
    (he : e ≤ spec.targetExponent (totalExponent m e)) :
    ∃ v, Weighs spec (stored spec (roundWithAccuracy spec .positive m e acc)) v ∧
      Rounds spec (q * 2 ^ e) v := by
  obtain ⟨m', e', t, heq, hcanonical, hround⟩ := exists_isRounding hq he .positive
  rw [heq]
  exact ⟨_, weighs_stored_numberOf hspec hcanonical, m', e', t, hcanonical, hround, rfl⟩

/-- What a number of a format weighs that is not infinite. -/
theorem Weighs.exists_isCanonical (hspec : 2 ≤ spec.exponentBits) (h : Weighs spec x q) :
    ∃ m e, IsCanonical spec m e ∧ e ≤ maxExponent spec ∧ q = m * 2 ^ e := by
  generalize hv : (q : WithTop ℚ) = v at h
  cases h with
  | zero s =>
    refine ⟨0, spec.minExponent, ⟨by positivity, le_rfl, .inl rfl⟩,
      minExponent_le_maxExponent hspec, ?_⟩
    simpa using WithTop.coe_inj.1 hv
  | finite h he hm => exact ⟨_, _, h, he, WithTop.coe_inj.1 hv⟩
  | infinity => exact absurd hv WithTop.coe_ne_top

/-- Rounding does not go below a number of the format. -/
theorem Rounds.le_of_le (hspec : 2 ≤ spec.exponentBits) (h : Rounds spec q v) {p : ℚ}
    (hx : Weighs spec x p) (hle : p ≤ q) : (p : WithTop ℚ) ≤ v := by
  obtain ⟨m, e, t, hcanonical, hround, rfl⟩ := h
  obtain ⟨m', e', hcanonical', -, rfl⟩ := hx.exists_isCanonical hspec
  split_ifs
  · exact WithTop.coe_le_coe.2 (hround.le_of_le hcanonical' hle)
  · exact le_top

/-- Rounding does not go above a number of the format. -/
theorem Rounds.ge_of_ge (hspec : 2 ≤ spec.exponentBits) (h : Rounds spec q v)
    (hx : Weighs spec x w) (hle : (q : WithTop ℚ) ≤ w) : v ≤ w := by
  obtain ⟨m, e, t, hcanonical, hround, rfl⟩ := h
  rcases w with _ | p
  · exact le_top
  · obtain ⟨m', e', hcanonical', hlast, rfl⟩ := hx.exists_isCanonical hspec
    have hge := hround.ge_of_ge hcanonical' (WithTop.coe_le_coe.1 hle)
    have he : e ≤ maxExponent spec := by
      by_contra hlt
      exact absurd hge (not_le.2 (hcanonical'.lt_of_exponent_lt hcanonical (by omega)))
    rw [if_pos he]
    exact WithTop.coe_le_coe.2 hge

theorem rounds_self (hspec : 2 ≤ spec.exponentBits) (h : Weighs spec x q) : Rounds spec q q := by
  obtain ⟨m, e, hcanonical, hlast, rfl⟩ := h.exists_isCanonical hspec
  refine ⟨m, e, e, hcanonical, ⟨?_, ⟨m, rfl⟩, hcanonical.least, ?_⟩, (if_pos hlast).symm⟩
  · rw [sub_self, abs_zero]
    positivity
  · exact hcanonical.normal.imp_right fun h =>
      mul_le_mul_of_nonneg_right (by exact_mod_cast h) (by positivity)

theorem exists_rounds_zero (hspec : 2 ≤ spec.exponentBits) (s : Sign) :
    ∃ u, Weighs spec (stored spec (.zero s)) u ∧ Rounds spec 0 u := by
  have hzero : Weighs spec (.zero s) ((0 : ℚ) : WithTop ℚ) := .zero s
  exact ⟨_, hzero.kept, rounds_self hspec hzero⟩

/-- A number of the format is not rounded. -/
theorem Rounds.eq_of_weighs (hspec : 2 ≤ spec.exponentBits) (h : Rounds spec q v)
    (hx : Weighs spec x q) : v = q :=
  le_antisymm (h.ge_of_ge hspec hx le_rfl) (h.le_of_le hspec hx le_rfl)

/-- The powers of two among the numbers of a format. -/
theorem weighs_two_pow {k : ℤ} (h : spec.minExponent ≤ k - spec.mantissaBitsWithoutImplicit)
    (h' : k - spec.mantissaBitsWithoutImplicit ≤ maxExponent spec) :
    ∃ x, Weighs spec x ((2 ^ k : ℚ) : WithTop ℚ) := by
  have hbit := Nat.two_pow_pos spec.mantissaBitsWithoutImplicit
  have hvalue : (2 ^ k : ℚ) = (2 ^ spec.mantissaBitsWithoutImplicit : ℕ) *
      2 ^ (k - spec.mantissaBitsWithoutImplicit) := by
    rw [Nat.cast_pow, Nat.cast_two, ← zpow_natCast, ← zpow_add₀ two_ne_zero, add_sub_cancel]
  rw [hvalue]
  exact ⟨_, .finite ⟨by omega, h, .inr le_rfl⟩ h' hbit⟩

/-- What is no more than a power of two is not rounded to infinity. -/
theorem Rounds.exists_coe (hspec : 2 ≤ spec.exponentBits) (h : Rounds spec q v) {k : ℤ}
    (hleast : spec.minExponent ≤ k - spec.mantissaBitsWithoutImplicit)
    (hlast : k - spec.mantissaBitsWithoutImplicit ≤ maxExponent spec) (hq : q ≤ 2 ^ k) :
    ∃ p : ℚ, v = p ∧ p ≤ 2 ^ k := by
  obtain ⟨x, hx⟩ := weighs_two_pow hleast hlast
  have hle := h.ge_of_ge hspec hx (WithTop.coe_le_coe.2 hq)
  obtain ⟨p, rfl⟩ := WithTop.ne_top_iff_exists.1 (ne_top_of_le_ne_top WithTop.coe_ne_top hle)
  exact ⟨p, rfl, WithTop.coe_le_coe.1 hle⟩

/-! ## Enough bits -/

/-- What is rounded has enough bits, or the least exponent. -/
theorem le_targetExponent (h : spec.mantissaBits ≤ m.log2 + 1 ∨ e ≤ spec.minExponent) :
    e ≤ spec.targetExponent (totalExponent m e) := by
  unfold Format.targetExponent totalExponent
  omega

/-- A product of canonical significands has enough bits. -/
theorem IsCanonical.mul_enough (h : IsCanonical spec m e) (h' : IsCanonical spec m' e')
    (hm : 0 < m) (hm' : 0 < m') :
    e + e' ≤ spec.targetExponent (totalExponent (m * m') (e + e')) := by
  refine le_targetExponent ?_
  have hlow (hle : 2 ^ spec.mantissaBitsWithoutImplicit ≤ m * m') :
      spec.mantissaBits ≤ (m * m').log2 + 1 := by
    rw [Format.mantissaBits, add_comm]
    exact Nat.succ_le_succ ((Nat.le_log2 (Nat.mul_pos hm hm').ne').2 hle)
  rcases h.normal with he | hbits
  · rcases h'.normal with he' | hbits'
    · have := minExponent_eq spec
      have := spec.hm
      exact .inr (by omega)
    · exact .inl (hlow (hbits'.trans (Nat.le_mul_of_pos_left _ hm)))
  · exact .inl (hlow (hbits.trans (Nat.le_mul_of_pos_right _ hm')))

theorem log2_shiftLeft (hm : m ≠ 0) (k : ℕ) : (m <<< k).log2 = m.log2 + k := by
  induction k with
  | zero => rfl
  | succ k ih =>
    rw [Nat.shiftLeft_succ, Nat.log2_two_mul (Nat.shiftLeft_eq_zero_iff.not.2 hm), ih]
    rfl

/-- What a significand is worth does not change when its exponent is decreased. -/
theorem decreaseExponent_value (m : ℕ) (h : e' ≤ e) :
    ((decreaseExponent m e e').1 : ℚ) * 2 ^ e' = m * 2 ^ e := by
  rw [decreaseExponent, mul_two_zpow_eq m h, Nat.shiftLeft_eq]

theorem log2_le_log2_div (a : ℕ) {b : ℕ} (hb : 0 < b) : a.log2 ≤ (a / b).log2 + b.log2 + 1 := by
  rcases Nat.eq_zero_or_pos a with rfl | ha
  · simp
  · refine Nat.lt_succ_iff.1 ((Nat.log2_lt ha.ne').2 ?_)
    calc a < (a / b + 1) * b := Nat.lt_mul_of_div_lt (Nat.lt_succ_self _) hb
      _ ≤ 2 ^ ((a / b).log2 + 1) * 2 ^ (b.log2 + 1) :=
          Nat.mul_le_mul Nat.lt_log2_self Nat.lt_log2_self.le
      _ = 2 ^ ((a / b).log2 + b.log2 + 1 + 1) := by
          rw [← pow_add]
          congr 1
          omega

/-- What the quotient of two significands stands for, which has enough bits. -/
theorem exists_standsFor_divCore (spec : Format) (hm : 0 < m) (hm' : 0 < m') (e e' : ℤ) :
    ∃ q, StandsFor (.ofMantissaAndAccuracy (divCore spec m e m' e').1 (divCore spec m e m' e').2.2)
        q ∧
      q * 2 ^ (divCore spec m e m' e').2.1 = m * 2 ^ e / (m' * 2 ^ e') ∧
      (divCore spec m e m' e').2.1 ≤ spec.targetExponent
        (totalExponent (divCore spec m e m' e').1 (divCore spec m e m' e').2.1) := by
  unfold divCore
  extract_lets t k a
  have hk : (k : ℤ) = e - e' - t := Int.toNat_of_nonneg (sub_nonneg.2 (min_le_left _ _))
  refine ⟨(a : ℚ) / m', standsFor_quotient a hm', ?_, le_targetExponent ?_⟩
  · have he : e = k + t + e' := by omega
    have hpos : (m' : ℚ) ≠ 0 := by positivity
    rw [he, zpow_add₀ two_ne_zero, zpow_add₀ two_ne_zero, zpow_natCast]
    simp only [a, Nat.shiftLeft_eq]
    push_cast
    field_simp
  · have hlog : a.log2 = m.log2 + k := log2_shiftLeft hm.ne' k
    have hdiv := log2_le_log2_div a hm'
    have ht : t ≤ spec.targetExponent (totalExponent m e - totalExponent m' e') := min_le_right _ _
    dsimp only
    unfold Format.targetExponent totalExponent at ht
    omega

section

variable (hspec : 2 ≤ spec.exponentBits)
include hspec

theorem exists_rounds_round (hm : 0 < m) (e : ℤ) :
    ∃ v, Weighs spec (stored spec (round spec .positive m e)) v ∧ Rounds spec (m * 2 ^ e) v := by
  set k := (e - spec.targetExponent (totalExponent m e)).toNat with hk
  have hlog : (m <<< k).log2 = m.log2 + k := log2_shiftLeft hm.ne' k
  have henough : e - k ≤ spec.targetExponent (totalExponent (m <<< k) (e - k)) := by
    unfold Format.targetExponent totalExponent at *
    omega
  have hvalue : ((m <<< k : ℕ) : ℚ) * 2 ^ (e - k) = m * 2 ^ e := by
    rw [Nat.shiftLeft_eq, mul_two_zpow_eq m (by omega : e - k ≤ e), sub_sub_cancel,
      Int.toNat_natCast]
  rw [← hvalue]
  exact exists_rounds hspec (standsFor_exact _) henough

theorem exists_rounds_normalize {n : ℤ} (hn : 0 ≤ n) (e : ℤ) :
    ∃ v, Weighs spec (stored spec (normalize spec n e .positive)) v ∧
      Rounds spec (n * 2 ^ e) v := by
  obtain ⟨m, rfl⟩ := Int.eq_ofNat_of_zero_le hn
  rcases Nat.eq_zero_or_pos m with rfl | hm
  · rw [Nat.cast_zero, Int.cast_zero, zero_mul]
    exact exists_rounds_zero hspec .positive
  · have hpos : compare (m : ℤ) 0 = .gt := compare_gt_iff_gt.2 (by omega)
    simp only [Float.Model.UnpackedFloat.normalize, hpos]
    exact exists_rounds_round hspec hm e

end

/-! ## Operations -/

namespace Weighs

variable (hspec : 2 ≤ spec.exponentBits)
include hspec

/-- A sum is a number. -/
theorem add (hx : Weighs spec x v) (hy : Weighs spec y w) :
    ∃ u, Weighs spec (stored spec (x.add spec y)) u := by
  cases hx with
  | zero s =>
    cases hy with
    | zero s' =>
      rw [UnpackedFloat.add]
      split_ifs <;> exact ⟨_, (Weighs.zero _).kept⟩
    | finite h he hm => exact ⟨_, (Weighs.finite h he hm).kept⟩
    | infinity => exact ⟨_, Weighs.infinity.kept⟩
  | @finite m e h he hm =>
    cases hy with
    | zero s => exact ⟨_, (Weighs.finite h he hm).kept⟩
    | finite h' he' hm' =>
      obtain ⟨u, hu, -⟩ := exists_rounds_normalize hspec (Int.natCast_nonneg _) _
      exact ⟨u, hu⟩
    | infinity => exact ⟨_, Weighs.infinity.kept⟩
  | infinity => cases hy <;> exact ⟨_, Weighs.infinity.kept⟩

/-- A difference with something smaller is a number, and it is no more than what was there. -/
theorem sub (hx : Weighs spec x v) (hy : Weighs spec y q) (hle : q ≤ v) :
    ∃ u, Weighs spec (stored spec (x.sub spec y)) u ∧ u ≤ v := by
  generalize hw : (q : WithTop ℚ) = w at hy
  cases hy with
  | zero s =>
    cases hx with
    | zero s' =>
      rw [UnpackedFloat.sub]
      split_ifs <;> exact ⟨_, (Weighs.zero _).kept, le_rfl⟩
    | finite h he hm => exact ⟨_, (Weighs.finite h he hm).kept, le_rfl⟩
    | infinity => exact ⟨_, Weighs.infinity.kept, le_rfl⟩
  | @finite m' e' h' he' hm' =>
    obtain rfl := WithTop.coe_inj.1 hw
    cases hx with
    | zero s =>
      have hpos : (0 : ℚ) < m' * 2 ^ e' := by positivity
      exact absurd hle (not_le.2 (WithTop.coe_lt_coe.2 hpos))
    | @finite m e h he hm =>
      have hvalue := decreaseExponent_value m (min_le_left e e')
      have hvalue' := decreaseExponent_value m' (min_le_right e e')
      set a := (decreaseExponent m e (min e e')).1
      set b := (decreaseExponent m' e' (min e e')).1
      have hle' : (b : ℚ) * 2 ^ min e e' ≤ a * 2 ^ min e e' := by
        rw [hvalue, hvalue']
        exact WithTop.coe_le_coe.1 hle
      have hba : (b : ℤ) ≤ a := by
        exact_mod_cast le_of_mul_le_mul_right hle' (by positivity)
      obtain ⟨u, hu, hround⟩ := exists_rounds_normalize hspec (sub_nonneg.2 hba) (min e e')
      refine ⟨u, hu, hround.ge_of_ge hspec (Weighs.finite h he hm) (WithTop.coe_le_coe.2 ?_)⟩
      push_cast
      rw [sub_mul, hvalue]
      exact sub_le_self _ (by positivity)
    | infinity => exact ⟨_, Weighs.infinity.kept, le_rfl⟩
  | infinity => exact absurd hw WithTop.coe_ne_top

/-- A finite product is rounded. -/
theorem mul (hx : Weighs spec x p) (hy : Weighs spec y q) :
    ∃ u, Weighs spec (stored spec (x.mul spec y)) u ∧ Rounds spec (p * q) u := by
  generalize hv : (p : WithTop ℚ) = v at hx
  generalize hw : (q : WithTop ℚ) = w at hy
  cases hx with
  | zero s =>
    obtain rfl := WithTop.coe_eq_zero.1 hv
    rw [zero_mul]
    cases hy with
    | zero s' => exact exists_rounds_zero hspec _
    | finite h he hm => exact exists_rounds_zero hspec _
    | infinity => exact absurd hw WithTop.coe_ne_top
  | @finite m e h he hm =>
    obtain rfl := WithTop.coe_inj.1 hv
    cases hy with
    | zero s =>
      obtain rfl := WithTop.coe_eq_zero.1 hw
      rw [mul_zero]
      exact exists_rounds_zero hspec _
    | @finite m' e' h' he' hm' =>
      obtain rfl := WithTop.coe_inj.1 hw
      have hvalue : (m * 2 ^ e * (m' * 2 ^ e') : ℚ) = (m * m' : ℕ) * 2 ^ (e + e') := by
        rw [zpow_add₀ two_ne_zero]
        push_cast
        ring
      rw [hvalue]
      exact exists_rounds hspec (standsFor_exact _) (h.mul_enough h' hm hm')
    | infinity => exact absurd hw WithTop.coe_ne_top
  | infinity => exact absurd hv WithTop.coe_ne_top

/-- A quotient of two numbers that are not zero is rounded. -/
theorem div_finite (hm : 0 < m) (hm' : 0 < m') (e e' : ℤ) :
    ∃ u, Weighs spec (stored spec
        ((UnpackedFloat.finite .positive m e hm).div spec (.finite .positive m' e' hm'))) u ∧
      Rounds spec (m * 2 ^ e / (m' * 2 ^ e')) u := by
  obtain ⟨q, hq, hvalue, henough⟩ := exists_standsFor_divCore spec hm hm' e e'
  rw [← hvalue]
  exact exists_rounds hspec hq henough

/-- A finite quotient is rounded. -/
theorem div (hx : Weighs spec x p) (hy : Weighs spec y q) (hq : 0 < q) :
    ∃ u, Weighs spec (stored spec (x.div spec y)) u ∧ Rounds spec (p / q) u := by
  generalize hv : (p : WithTop ℚ) = v at hx
  generalize hw : (q : WithTop ℚ) = w at hy
  cases hy with
  | zero s => exact absurd (WithTop.coe_eq_zero.1 hw) hq.ne'
  | finite h' he' hm' =>
    obtain rfl := WithTop.coe_inj.1 hw
    cases hx with
    | zero s =>
      obtain rfl := WithTop.coe_eq_zero.1 hv
      rw [zero_div]
      exact exists_rounds_zero hspec _
    | finite h he hm =>
      obtain rfl := WithTop.coe_inj.1 hv
      exact div_finite hspec hm hm' _ _
    | infinity => exact absurd hv WithTop.coe_ne_top
  | infinity => exact absurd hw WithTop.coe_ne_top

end Weighs

/-- A product with one is not rounded. -/
theorem Weighs.mul_unit (hspec : 2 ≤ spec.exponentBits) (hx : Weighs spec x p)
    (hy : Weighs spec y ((1 : ℚ) : WithTop ℚ)) :
    Weighs spec (stored spec (x.mul spec y)) p := by
  obtain ⟨u, hu, hround⟩ := hx.mul hspec hy
  rw [mul_one] at hround
  rwa [hround.eq_of_weighs hspec hx] at hu

/-! ## Whole numbers -/

section

variable (hspec : 2 ≤ spec.exponentBits) {n : ℕ}
include hspec

/-- A whole number that is rounded by way of its product with one. -/
theorem exists_rounds_ofNat (hy : Weighs spec y ((1 : ℚ) : WithTop ℚ)) {k : ℤ}
    (hleast : spec.minExponent ≤ k - spec.mantissaBitsWithoutImplicit)
    (hlast : k - spec.mantissaBitsWithoutImplicit ≤ maxExponent spec) (hn : (n : ℚ) ≤ 2 ^ k) :
    ∃ v, Weighs spec (stored spec
        ((stored spec (UnpackedFloat.ofNat spec n)).mul spec y)) v ∧ Rounds spec n v := by
  obtain ⟨v, hv, hround⟩ := exists_rounds_normalize hspec (Int.natCast_nonneg n) 0
  rw [zpow_zero, mul_one, Int.cast_natCast] at hround
  obtain ⟨p, rfl, -⟩ := hround.exists_coe hspec hleast hlast hn
  exact ⟨p, hv.mul_unit hspec hy, hround⟩

theorem exists_rounds_ofScientific (hn : 0 < n) :
    ∃ v, Weighs spec (stored spec (UnpackedFloat.ofScientific spec n 0)) v ∧
      Rounds spec n v := by
  have hpow : ¬(0 : ℤ) > 2 ^ spec.exponentBits := not_lt.2 (by positivity)
  have hpow' : ¬(0 : ℤ) < -(2 ^ spec.exponentBits + n.log2) := not_lt.2 (by
    have : (0 : ℤ) ≤ 2 ^ spec.exponentBits := by positivity
    omega)
  have heq : UnpackedFloat.ofScientific spec n 0 = roundWithAccuracy spec .positive
      (n <<< spec.mantissaBits * 1) (-spec.mantissaBits + 0) .exact := by
    rw [UnpackedFloat.ofScientific, dif_neg hn.ne', if_neg hpow, if_neg hpow', if_pos le_rfl]
    rfl
  have henough : -spec.mantissaBits + 0 ≤ spec.targetExponent
      (totalExponent (n <<< spec.mantissaBits * 1) (-spec.mantissaBits + 0)) := by
    refine le_targetExponent (.inl ?_)
    rw [mul_one, log2_shiftLeft hn.ne']
    omega
  have hvalue : ((n <<< spec.mantissaBits * 1 : ℕ) : ℚ) * 2 ^ (-spec.mantissaBits + 0 : ℤ) = n := by
    rw [mul_one, add_zero, Nat.shiftLeft_eq, zpow_neg, zpow_natCast]
    push_cast
    field_simp
  have h := exists_rounds hspec (standsFor_exact _) henough
  rw [hvalue] at h
  rwa [heq]

end

/-! ## Doubles and singles -/

/-- What a double weighs. -/
abbrev IsDouble (x : Float) (v : WithTop ℚ) : Prop := Weighs .binary64 x.toModel.unpack v

/-- What a single weighs. -/
abbrev IsSingle (x : Float32) (v : WithTop ℚ) : Prop := Weighs .binary32 x.toModel.unpack v

theorem isDouble_one : IsDouble (.ofBits 0x3FF0000000000000) ((1 : ℚ) : WithTop ℚ) := by
  have hcanonical : IsCanonical .binary64 (2 ^ 52) (-52) := ⟨by decide, by decide, .inr le_rfl⟩
  have hone : ((2 ^ 52 : ℕ) * 2 ^ (-52 : ℤ) : ℚ) = 1 := by norm_num
  have h := Weighs.finite hcanonical (by decide) (by decide)
  rwa [hone] at h

theorem isSingle_one : IsSingle (.ofBits 0x3F800000) ((1 : ℚ) : WithTop ℚ) := by
  have hcanonical : IsCanonical .binary32 (2 ^ 23) (-23) := ⟨by decide, by decide, .inr le_rfl⟩
  have hone : ((2 ^ 23 : ℕ) * 2 ^ (-23 : ℤ) : ℚ) = 1 := by norm_num
  have h := Weighs.finite hcanonical (by decide) (by decide)
  rwa [hone] at h

theorem toNat_toUInt64_of_lt {n : ℕ} (h : n < 2 ^ 64) : n.toUInt64.toNat = n := by
  rw [Nat.toUInt64_eq, UInt64.toNat_ofNat_of_lt' h]

/-- A whole number is rounded to a double. -/
theorem exists_isDouble_ofNat (n : ℕ) : ∃ v, IsDouble (.ofNat n) v ∧ Rounds .binary64 n v := by
  change ∃ v, IsDouble (Float.ofScientific n false 0) v ∧ _
  by_cases hn : n < 2 ^ 53
  · have hle : (n : ℚ) ≤ 2 ^ (53 : ℤ) := by exact_mod_cast hn.le
    have h := exists_rounds_ofNat (by decide) isDouble_one (by decide) (by decide) hle
    have heq : Float.ofScientific n false 0 =
        n.toUInt64.toFloat * Float.ofBits 0x3FF0000000000000 := by
      rw [Float.ofScientific, dif_pos ⟨hn, Nat.zero_le _⟩]
      rfl
    have hnat := toNat_toUInt64_of_lt (hn.trans (by decide))
    rw [heq]
    change ∃ v, Weighs .binary64 (stored .binary64 ((stored .binary64 (UnpackedFloat.ofNat .binary64
      n.toUInt64.toNat)).mul .binary64 (Float.ofBits 0x3FF0000000000000).toModel.unpack)) v ∧ _
    rwa [hnat]
  · have heq : Float.ofScientific n false 0 = .ofModel (Float.Model.ofScientific n 0) := by
      rw [Float.ofScientific, dif_neg fun h => hn h.1]
      rfl
    rw [heq]
    exact exists_rounds_ofScientific (by decide) (by omega)

/-- A whole number is rounded to a single. -/
theorem exists_isSingle_ofNat (n : ℕ) : ∃ v, IsSingle (.ofNat n) v ∧ Rounds .binary32 n v := by
  change ∃ v, IsSingle (Float32.ofScientific n false 0) v ∧ _
  by_cases hn : n < 2 ^ 23
  · have hle : (n : ℚ) ≤ 2 ^ (23 : ℤ) := by exact_mod_cast hn.le
    have h := exists_rounds_ofNat (by decide) isSingle_one (by decide) (by decide) hle
    have heq : Float32.ofScientific n false 0 =
        n.toUInt64.toFloat32 * Float32.ofBits 0x3F800000 := by
      rw [Float32.ofScientific, dif_pos ⟨hn, Nat.zero_le _⟩]
      rfl
    have hnat := toNat_toUInt64_of_lt (hn.trans (by decide))
    rw [heq]
    change ∃ v, Weighs .binary32 (stored .binary32 ((stored .binary32 (UnpackedFloat.ofNat .binary32
      n.toUInt64.toNat)).mul .binary32 (Float32.ofBits 0x3F800000).toModel.unpack)) v ∧ _
    rwa [hnat]
  · have heq : Float32.ofScientific n false 0 = .ofModel (Float32.Model.ofScientific n 0) := by
      rw [Float32.ofScientific, dif_neg fun h => hn h.1]
      rfl
    rw [heq]
    exact exists_rounds_ofScientific (by decide) (by omega)

section Double

variable {a b : Float}

theorem IsDouble.add (ha : IsDouble a v) (hb : IsDouble b w) : ∃ u, IsDouble (a + b) u :=
  Weighs.add (by decide) ha hb

theorem IsDouble.sub (ha : IsDouble a v) (hb : IsDouble b q) (h : q ≤ v) :
    ∃ u, IsDouble (a - b) u ∧ u ≤ v :=
  Weighs.sub (by decide) ha hb h

theorem IsDouble.mul (ha : IsDouble a p) (hb : IsDouble b q) :
    ∃ u, IsDouble (a * b) u ∧ Rounds .binary64 (p * q) u :=
  Weighs.mul (by decide) ha hb

theorem IsDouble.div (ha : IsDouble a p) (hb : IsDouble b q) (hq : 0 < q) :
    ∃ u, IsDouble (a / b) u ∧ Rounds .binary64 (p / q) u :=
  Weighs.div (by decide) ha hb hq

theorem IsDouble.le_iff (ha : IsDouble a v) (hb : IsDouble b w) : a ≤ b ↔ v ≤ w :=
  decide_eq_true_iff.trans (Weighs.le_iff ha hb)

theorem IsDouble.lt_iff (ha : IsDouble a v) (hb : IsDouble b w) : a < b ↔ v < w :=
  decide_eq_true_iff.trans (Weighs.lt_iff ha hb)

/-- A double that is no less than one that weighs something weighs something too. -/
theorem IsDouble.exists_of_le (ha : IsDouble a v) (h : a ≤ b) : ∃ w, IsDouble b w :=
  exists_weighs_unpack (by decide) (ha.zero_le_of_le (decide_eq_true_iff.1 h))

end Double

section Single

variable {a b : Float32}

theorem IsSingle.mul (ha : IsSingle a p) (hb : IsSingle b q) :
    ∃ u, IsSingle (a * b) u ∧ Rounds .binary32 (p * q) u :=
  Weighs.mul (by decide) ha hb

theorem IsSingle.div (ha : IsSingle a p) (hb : IsSingle b q) (hq : 0 < q) :
    ∃ u, IsSingle (a / b) u ∧ Rounds .binary32 (p / q) u :=
  Weighs.div (by decide) ha hb hq

theorem IsSingle.le_iff (ha : IsSingle a v) (hb : IsSingle b w) : a ≤ b ↔ v ≤ w :=
  decide_eq_true_iff.trans (Weighs.le_iff ha hb)

theorem IsSingle.lt_iff (ha : IsSingle a v) (hb : IsSingle b w) : a < b ↔ v < w :=
  decide_eq_true_iff.trans (Weighs.lt_iff ha hb)

/-- A single that is greater than one that weighs something weighs something too. -/
theorem IsSingle.exists_of_lt (ha : IsSingle a v) (h : a < b) : ∃ w, IsSingle b w :=
  exists_weighs_unpack (by decide) (ha.zero_le_of_le (unpacked_le_of_lt (decide_eq_true_iff.1 h)))

end Single

end TrafficControl
