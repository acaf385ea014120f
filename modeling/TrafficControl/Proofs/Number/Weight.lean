import TrafficControl.Proofs.Number.Rounding

/-!
# What floats weigh

A float that is not negative weighs a rational number, or more than all of them where it is
infinite (`Weighs`). Floats are compared by what they weigh (`Weighs.le_iff`, `Weighs.lt_iff`).
A float that is at least zero weighs something (`exists_weighs_unpack`), and a number that is
stored in a format and read back weighs the same (`Weighs.kept`), unless it is too large for the
format (`stored_finite_of_lt`).
-/

namespace TrafficControl

open Float.Model (Format UnpackedFloat totalExponent)
open Float.Model.UnpackedFloat

variable {spec : Format} {m : ℕ} {e : ℤ} {x y : UnpackedFloat} {v w : WithTop ℚ}

/-! ## Weights -/

/-- The greatest exponent of a number of a format. -/
def maxExponent (spec : Format) : ℤ :=
  2 ^ spec.exponentBits - 2 - spec.exponentBias - spec.mantissaBitsWithoutImplicit

theorem minExponent_eq (spec : Format) :
    spec.minExponent = 1 - spec.exponentBias - spec.mantissaBitsWithoutImplicit := by
  have hpos : 1 ≤ 2 ^ (spec.exponentBits - 1) := Nat.one_le_two_pow
  rw [Format.minExponent, Format.exponentBias, Format.mantissaBits]
  push_cast [hpos]
  ring

/-- What a number weighs that is not negative, infinity more than everything. -/
inductive Weighs (spec : Format) : UnpackedFloat → WithTop ℚ → Prop
  | zero (s : Sign) : Weighs spec (.zero s) 0
  | finite {m : ℕ} {e : ℤ} (h : IsCanonical spec m e) (he : e ≤ maxExponent spec) (hm : 0 < m) :
    Weighs spec (.finite .positive m e hm) ((m * 2 ^ e : ℚ) : WithTop ℚ)
  | infinity : Weighs spec (.infinity .positive) ⊤

/-- What is greater is no less. -/
theorem unpacked_le_of_lt (h : x.lt y = true) : x.le y = true := by
  have hlt := eq_of_beq h
  rw [UnpackedFloat.le, hlt]
  rfl

namespace Weighs

theorem nonneg (h : Weighs spec x v) : 0 ≤ v := by
  cases h with
  | zero => exact le_rfl
  | finite => exact WithTop.coe_le_coe.2 (by positivity)
  | infinity => exact le_top

/-- Numbers are compared by what they weigh. -/
theorem le_iff (hx : Weighs spec x v) (hy : Weighs spec y w) : x.le y = true ↔ v ≤ w := by
  cases hx with
  | zero s =>
    have hle : UnpackedFloat.le (.zero s) y = true := by cases hy <;> rfl
    exact iff_of_true hle hy.nonneg
  | @finite m e h he hm =>
    have hpos : (0 : ℚ) < m * 2 ^ e := by positivity
    cases hy with
    | zero s => exact iff_of_false (by rintro ⟨⟩) (not_le.2 (WithTop.coe_lt_coe.2 hpos))
    | finite h' =>
      rw [WithTop.coe_le_coe, h.le_iff h']
      simp [UnpackedFloat.le, UnpackedFloat.compare]
    | infinity => exact iff_of_true rfl le_top
  | infinity =>
    cases hy with
    | zero s => exact iff_of_false (by rintro ⟨⟩) (not_le.2 (WithTop.coe_lt_top 0))
    | finite => exact iff_of_false (by rintro ⟨⟩) (not_le.2 (WithTop.coe_lt_top _))
    | infinity => exact iff_of_true rfl le_rfl

/-- What is no less than a number that weighs something is no less than zero. -/
theorem zero_le_of_le (hx : Weighs spec x v) (h : x.le y = true) :
    UnpackedFloat.le (.zero .positive) y = true := by
  cases y with
  | zero s => rfl
  | notANumber => cases hx <;> cases h
  | infinity s =>
    cases s with
    | positive => rfl
    | negative => cases hx <;> cases h
  | finite s m e hm =>
    cases s with
    | positive => rfl
    | negative => cases hx <;> cases h

/-- One number is less than another if it weighs less. -/
theorem lt_iff (hx : Weighs spec x v) (hy : Weighs spec y w) : x.lt y = true ↔ v < w := by
  have hswap (e e' : ℤ) (m m' : ℕ) : (compare e' e).then (compare m' m) =
      ((compare e e').then (compare m m')).swap := by
    rw [Ordering.swap_then, Int.compare_swap, Nat.compare_swap]
  rw [← not_le, ← hy.le_iff hx]
  cases hx <;> cases hy <;> simp [UnpackedFloat.lt, UnpackedFloat.le, UnpackedFloat.compare]
  next m e _ _ _ m' e' _ _ _ =>
    rw [hswap e e']
    cases (compare e e').then (compare m m') <;> simp

end Weighs

/-! ## Reading -/

theorem toNat_exponent_lt {spec : Format} {b : BitVec spec.exponentBits} (h : b ≠ -1#_) :
    b.toNat + 1 < 2 ^ spec.exponentBits := by
  have hlt := b.isLt
  by_contra hge
  refine h (BitVec.eq_of_toNat_eq ?_)
  rw [BitVec.neg_one_eq_allOnes, BitVec.toNat_allOnes]
  omega

theorem minExponent_le_maxExponent (hspec : 2 ≤ spec.exponentBits) :
    spec.minExponent ≤ maxExponent spec := by
  have hpow : (2 : ℤ) ^ 2 ≤ 2 ^ spec.exponentBits := by gcongr; norm_num
  rw [minExponent_eq, maxExponent]
  linarith

/-- The significand of a normal number has one bit more than is stored. -/
theorem toNat_one_append {n : ℕ} (b : BitVec n) : (1#1 ++ b).toNat = 2 ^ n + b.toNat := by
  rw [BitVec.toNat_append, ← Nat.shiftLeft_add_eq_or_of_lt b.isLt]
  simp [Nat.shiftLeft_eq]

/-- A number that is at least zero weighs something. -/
theorem exists_weighs_unpack (hspec : 2 ≤ spec.exponentBits) {b : BitVec spec.numBits}
    (h : UnpackedFloat.le (.zero .positive) (unpack spec b) = true) :
    ∃ v, Weighs spec (unpack spec b) v := by
  have hmin := minExponent_eq spec
  have hrange := minExponent_le_maxExponent hspec
  revert h
  unfold unpack
  extract_lets mantissa exponent e sign s
  have hm := mantissa.isLt
  split_ifs with hones hzero hsub hzero
  · cases s with
    | negative => rintro ⟨⟩
    | positive => exact fun _ => ⟨_, .infinity⟩
  · rintro ⟨⟩
  · exact fun _ => ⟨_, .zero _⟩
  · cases s with
    | negative => rintro ⟨⟩
    | positive =>
      have he : e + 1 = spec.minExponent := by
        have : exponent.toNat = 0 := by simp [hsub]
        omega
      exact fun _ => ⟨_, .finite ⟨by omega, he.ge, .inl he⟩ (he.trans_le hrange) _⟩
  · cases s with
    | negative => rintro ⟨⟩
    | positive =>
      have hbit := toNat_one_append mantissa
      have hpos : exponent.toNat ≠ 0 := fun h0 => hsub (BitVec.eq_of_toNat_eq (by simpa using h0))
      have htop := toNat_exponent_lt hones
      have hlast : e ≤ maxExponent spec := by
        have : (exponent.toNat : ℤ) + 1 < 2 ^ spec.exponentBits := by exact_mod_cast htop
        unfold maxExponent
        omega
      exact fun _ => ⟨_, .finite ⟨by omega, by omega, .inr (by omega)⟩ hlast _⟩

/-! ## Storing -/

/-- A number as it is read back after it was stored. -/
def stored (spec : Format) (x : UnpackedFloat) : UnpackedFloat := unpack spec (pack spec x)

theorem stored_infinity (s : Sign) : stored spec (.infinity s) = .infinity s := by
  simp [stored, pack, packedInfinity, unpack]

/-- What is read back of three fields that are not those of infinity, zero or no number. -/
theorem unpack_normal {s : Sign} {exponent : BitVec spec.exponentBits}
    {mantissa : BitVec spec.mantissaBitsWithoutImplicit} (hones : exponent ≠ -1#_)
    (hzero : exponent ≠ 0#_) (hm : 0 < m)
    (hm' : m = 2 ^ spec.mantissaBitsWithoutImplicit + mantissa.toNat)
    (he : e = exponent.toNat - (spec.exponentBias + spec.mantissaBitsWithoutImplicit)) :
    unpack spec (packComponents spec s exponent mantissa) = .finite s m e hm := by
  subst hm' he
  simp only [unpack, unpackSign_packComponents, unpackExponent_packComponents,
    unpackMantissa_packComponents, toNat_one_append, if_neg hones, if_neg hzero,
    Sign.ofBitVec_toBitVec]

theorem unpack_subnormal {s : Sign} {mantissa : BitVec spec.mantissaBitsWithoutImplicit}
    (hm : 0 < m) (hm' : m = mantissa.toNat) (he : e = spec.minExponent) :
    unpack spec (packComponents spec s 0#_ mantissa) = .finite s m e hm := by
  have hzero : mantissa ≠ 0#_ := by
    rintro rfl
    simp [hm'] at hm
  subst hm' he
  have hones : BitVec.ofNat spec.exponentBits 0 ≠ -1#_ := by
    have := spec.he
    simp only [ne_eq, BitVec.zero_eq_neg_one_iff]
    omega
  simp [unpack, hones, hzero, minExponent_eq]
  ring

/-- A canonical number is stored without loss. -/
theorem stored_finite_of_le (h : IsCanonical spec m e) (he : e ≤ maxExponent spec) (hm : 0 < m) :
    stored spec (.finite .positive m e hm) = .finite .positive m e hm := by
  have hmin := minExponent_eq spec
  obtain ⟨hlt, hleast, hnormal⟩ := h
  have hpow : ((2 ^ spec.exponentBits : ℕ) : ℤ) = 2 ^ spec.exponentBits := by push_cast; rfl
  unfold maxExponent at he
  set k := (e + spec.exponentBias + spec.mantissaBitsWithoutImplicit).toNat with hk
  have hfits : ¬2 ^ spec.exponentBits ≤ k + 1 := by omega
  have hmod : k % 2 ^ spec.exponentBits = k := Nat.mod_eq_of_lt (by omega)
  have hlog : m.log2 + 1 = spec.mantissaBits ↔ 2 ^ spec.mantissaBitsWithoutImplicit ≤ m := by
    rw [Format.mantissaBits, add_comm 1, Nat.succ_inj, Nat.log2_eq_iff hm.ne', pow_succ]
    omega
  rw [stored, pack, if_neg hfits]
  by_cases hbits : 2 ^ spec.mantissaBitsWithoutImplicit ≤ m
  · rw [if_pos (hlog.2 hbits)]
    refine unpack_normal ?_ ?_ hm ?_ ?_
    · intro h
      have := congrArg BitVec.toNat h
      rw [BitVec.neg_one_eq_allOnes, BitVec.toNat_allOnes, BitVec.toNat_ofNat, hmod] at this
      omega
    · intro h
      have := congrArg BitVec.toNat h
      rw [BitVec.toNat_ofNat, BitVec.toNat_ofNat, hmod, Nat.zero_mod] at this
      omega
    · rw [BitVec.toNat_ofNat, Nat.mod_eq_sub_mod hbits, Nat.mod_eq_of_lt] <;> omega
    · rw [BitVec.toNat_ofNat, hmod]
      omega
  · rw [if_neg (hlog.not.2 hbits)]
    refine unpack_subnormal hm ?_ (hnormal.resolve_right hbits)
    rw [BitVec.toNat_ofNat, Nat.mod_eq_of_lt (not_le.1 hbits)]

/-- What is too large is stored as infinity. -/
theorem stored_finite_of_lt (s : Sign) (he : maxExponent spec < e) (hm : 0 < m) :
    stored spec (.finite s m e hm) = .infinity s := by
  have hpow : ((2 ^ spec.exponentBits : ℕ) : ℤ) = 2 ^ spec.exponentBits := by push_cast; rfl
  have hmin := minExponent_eq spec
  unfold maxExponent at he
  rw [← stored_infinity, stored, pack, if_pos (by omega)]
  rfl

/-- What weighs something is stored without loss. -/
theorem Weighs.kept (h : Weighs spec x v) : Weighs spec (stored spec x) v := by
  cases h with
  | zero s =>
    rw [stored, pack, unpack_packedZero]
    exact .zero s
  | finite h he hm =>
    rw [stored_finite_of_le h he hm]
    exact .finite h he hm
  | infinity =>
    rw [stored_infinity]
    exact .infinity

end TrafficControl
