import Mathlib
import TrafficControl.Number.Single

/-!
# Singles among the doubles

Every finite single is a finite double, and rounding this double to a single gives the single back
(`narrow_widen`). Both functions work on bits, so finiteness is read off the bits first
(`isFinite_double_iff`, `isFinite_single_iff`).

A finite single is `m * 2 ^ (e - 150)` up to its sign, and `IsSignificand` says which `m` and `e`
occur. As a double it has its significand shifted so that the top bit is at place 52
(`doubleBits_eq`), and rounding shifts it back without loss (`singleBits_shifted`).
-/

namespace TrafficControl

open Float.Model (Format UnpackedFloat)
open Float.Model.UnpackedFloat

/-! ## Bits of finite numbers -/

section Packing

variable {format : Format} {b : BitVec format.numBits}

theorem toNat_unpackExponent (b : BitVec format.numBits) :
    (unpackExponent b).toNat =
      b.toNat / 2 ^ format.mantissaBitsWithoutImplicit % 2 ^ format.exponentBits := by
  rw [unpackExponent_def, BitVec.extractLsb'_toNat, Nat.shiftRight_eq_div_pow]

/-- A number is finite unless its exponent has all bits set. -/
theorem isFinite_unpack_iff : (unpack format b).isFinite = true ↔ unpackExponent b ≠ -1#_ := by
  unfold unpack
  by_cases hones : unpackExponent b = -1#_
  · by_cases hm : unpackMantissa b = 0#_ <;> simp [hones, hm, UnpackedFloat.isFinite]
  · by_cases hz : unpackExponent b = 0#_ <;> by_cases hm : unpackMantissa b = 0#_ <;>
      simp_all [UnpackedFloat.isFinite]

end Packing

theorem isFinite_double_iff (x : Float) :
    x.isFinite = true ↔ x.toBits.toNat / 0x10000000000000 % 0x800 ≠ 0x7FF := by
  refine isFinite_unpack_iff.trans (not_congr ?_)
  rw [← BitVec.toNat_inj, toNat_unpackExponent]
  rfl

theorem isFinite_single_iff (x : Float32) :
    x.isFinite = true ↔ x.toBits.toNat / 0x800000 % 0x100 ≠ 0xFF := by
  refine isFinite_unpack_iff.trans (not_congr ?_)
  rw [← BitVec.toNat_inj, toNat_unpackExponent]
  rfl

theorem toBits_ofBits_double {bits : UInt64}
    (h : bits.toNat / 0x10000000000000 % 0x800 ≠ 0x7FF) : (Float.ofBits bits).toBits = bits := by
  have hexponent : @unpackExponent .binary64 bits.toBitVec ≠ -1#_ := by
    rw [ne_eq, ← BitVec.toNat_inj, toNat_unpackExponent]
    exact h
  have hnumber : ¬@isNaNBits .binary64 bits.toBitVec := fun hnan =>
    hexponent (of_decide_eq_true hnan).1
  exact congrArg UInt64.ofBitVec ((pack_unpack _).trans (if_neg hnumber))

/-! ## Shifted significands -/

theorem roundShift_mul (m k : Nat) : roundShift (m * 2 ^ k) k = m := by
  have hpos : 0 < 2 ^ k := Nat.two_pow_pos k
  have hdiv : m * 2 ^ k / 2 ^ k = m := Nat.mul_div_cancel m hpos
  have hmod : m * 2 ^ k % 2 ^ k = 0 := Nat.mul_mod_left m _
  simp only [roundShift, Nat.pow_eq, hdiv, hmod]
  rw [if_neg (by omega)]

theorem singleBits_zero : singleBits 0 1 = 0 := by
  have hround (k : Nat) : roundShift 0 k = 0 := by
    have h := roundShift_mul 0 k
    rwa [Nat.zero_mul] at h
  have hunit : max (((1 : Nat) : Int) - 1075 + (0 : Nat).log2 - 23) (-149) = -149 := by decide
  rw [singleBits, hunit, hround]
  rfl

variable {m e : Nat}

/-- A significand that is shifted to have its top bit at place 52. -/
theorem shifted_bounds (hm : m ≠ 0) (hlog : m.log2 ≤ 52) :
    0x10000000000000 ≤ m * 2 ^ (52 - m.log2) ∧ m * 2 ^ (52 - m.log2) < 0x20000000000000 := by
  obtain ⟨hlow, hhigh⟩ := (Nat.log2_eq_iff hm).1 rfl
  have hpos : 0 < 2 ^ (52 - m.log2) := Nat.two_pow_pos _
  have hsplit : m.log2 + (52 - m.log2) = 52 := by omega
  constructor
  · calc 0x10000000000000 = 2 ^ m.log2 * 2 ^ (52 - m.log2) := by rw [← Nat.pow_add, hsplit]
      _ ≤ m * 2 ^ (52 - m.log2) := Nat.mul_le_mul_right _ hlow
  · calc m * 2 ^ (52 - m.log2) < 2 ^ (m.log2 + 1) * 2 ^ (52 - m.log2) :=
        Nat.mul_lt_mul_of_pos_right hhigh hpos
      _ = 0x20000000000000 := by rw [← Nat.pow_add, Nat.add_right_comm, hsplit]

theorem doubleBits_eq (hm : m ≠ 0) (hlog : m.log2 ≤ 52) :
    doubleBits m e = (e + m.log2 + 873) * 0x10000000000000 +
      (m * 2 ^ (52 - m.log2) - 0x10000000000000) := by
  obtain ⟨hlow, -⟩ := shifted_bounds hm hlog
  rw [doubleBits, if_neg hm, Nat.pow_eq]
  omega

/-- Whether `m * 2 ^ (e - 150)` is how a finite single is written : with its top bit at place 23,
or with the least exponent. -/
structure IsSignificand (m e : Nat) : Prop where
  lt : m < 2 ^ 24
  pos : 1 ≤ e
  le : e ≤ 254
  normal : e = 1 ∨ 2 ^ 23 ≤ m

theorem singleBits_shifted (hm : m ≠ 0) (h : IsSignificand m e) :
    singleBits (m * 2 ^ (52 - m.log2)) (e + m.log2 + 873) = (e - 1) * 0x800000 + m := by
  obtain ⟨hlt, hpos, hle, hnormal⟩ := h
  have hlog : m.log2 < 24 := (Nat.log2_lt hm).2 hlt
  have htop : e = 1 ∨ m.log2 = 23 := hnormal.imp_right fun h => by
    have hplace := (Nat.le_log2 hm).2 h
    omega
  obtain ⟨hlow, hhigh⟩ := shifted_bounds hm (by omega)
  have hlog' : (m * 2 ^ (52 - m.log2)).log2 = 52 :=
    (Nat.log2_eq_iff (Nat.ne_of_gt (Nat.lt_of_lt_of_le (by decide) hlow))).2 ⟨hlow, hhigh⟩
  have hunit : max (((e + m.log2 + 873 : Nat) : Int) - 1075 + (52 : Nat) - 23) (-149) =
      e - 150 := by omega
  have hshift : ((e : Int) - 150 - (((e + m.log2 + 873 : Nat) : Int) - 1075)).toNat =
      52 - m.log2 := by omega
  have hplace : ((e : Int) - 150 + 149).toNat = e - 1 := by omega
  have hfinite : (e - 1) * 0x800000 + m ≤ 0x7F800000 := by omega
  rw [singleBits, hlog', hunit, hshift, hplace, roundShift_mul, Nat.min_eq_left hfinite]

/-! ## Widening and narrowing -/

/-- What `narrow` makes of the fields of a finite double. -/
theorem narrow_eq {x : Float} {sign exponent fraction : Nat} (hexponent : exponent < 0x7FF)
    (hfraction : fraction < 0x10000000000000)
    (hx : x.toBits.toNat =
      sign * 0x8000000000000000 + exponent * 0x10000000000000 + fraction) :
    narrow x = .ofBits (.ofNat (sign * 0x80000000 +
      if exponent = 0 then singleBits fraction 1
      else singleBits (0x10000000000000 + fraction) exponent)) := by
  have hs : x.toBits.toNat / 0x8000000000000000 = sign := by omega
  have he : x.toBits.toNat / 0x10000000000000 % 0x800 = exponent := by omega
  have hf : x.toBits.toNat % 0x10000000000000 = fraction := by omega
  simp only [narrow, hs, he, hf]
  rw [if_neg (by omega)]

/-- The significand and the exponent of a finite single. -/
theorem exists_isSignificand {exponent fraction : Nat} (hexponent : exponent < 0xFF)
    (hfraction : fraction < 0x800000) :
    ∃ m e, IsSignificand m e ∧ exponent * 0x800000 + fraction = (e - 1) * 0x800000 + m ∧
      (if exponent = 0 then doubleBits fraction 1
        else doubleBits (0x800000 + fraction) exponent) = doubleBits m e := by
  by_cases h : exponent = 0
  · exact ⟨fraction, 1, ⟨by omega, by omega, by omega, .inl rfl⟩, by omega, if_pos h⟩
  · exact ⟨0x800000 + fraction, exponent, ⟨by omega, by omega, by omega, .inr (by omega)⟩,
      by omega, if_neg h⟩

/-- What `widen` makes of a finite single. -/
theorem exists_toBits_widen {x : Float32} (h : x.isFinite = true) :
    ∃ sign m e, IsSignificand m e ∧
      x.toBits.toNat = sign * 0x80000000 + ((e - 1) * 0x800000 + m) ∧
      (doubleBits m e < 0x7FF0000000000000 →
        (widen x).toBits.toNat = sign * 0x8000000000000000 + doubleBits m e) := by
  have hbound : x.toBits.toNat < 2 ^ 32 := x.toBits.toNat_lt
  have hexponent : x.toBits.toNat / 0x800000 % 0x100 < 0xFF := by
    have hne := (isFinite_single_iff x).1 h
    omega
  obtain ⟨m, e, hme, hfields, hdouble⟩ :=
    exists_isSignificand hexponent (Nat.mod_lt x.toBits.toNat (by decide))
  refine ⟨x.toBits.toNat / 0x80000000, m, e, hme, by omega, fun hfinite => ?_⟩
  have hbits : (UInt64.ofNat (x.toBits.toNat / 0x80000000 * 0x8000000000000000 +
      doubleBits m e)).toNat = x.toBits.toNat / 0x80000000 * 0x8000000000000000 +
      doubleBits m e := UInt64.toNat_ofNat_of_lt (by rw [UInt64.size]; omega)
  rw [← hbits, widen, if_neg (by omega), hdouble, toBits_ofBits_double (by rw [hbits]; omega)]

/-- A finite single keeps its value as a double, and rounding finds it again. -/
theorem narrow_widen {x : Float32} (h : x.isFinite = true) :
    (widen x).isFinite = true ∧ narrow (widen x) = x := by
  obtain ⟨sign, m, e, hme, hx, hwiden⟩ := exists_toBits_widen h
  have hback : Float32.ofBits (.ofNat (sign * 0x80000000 + ((e - 1) * 0x800000 + m))) = x := by
    rw [← hx, UInt32.ofNat_toNat, Float32.ofBits_toBits]
  rw [isFinite_double_iff]
  by_cases hzero : m = 0
  · have hone : e = 1 := hme.normal.resolve_right fun hle => absurd (hzero ▸ hle) (by decide)
    have hdouble : doubleBits m e = 0 := by rw [doubleBits, if_pos hzero]
    have hfields : (widen x).toBits.toNat =
        sign * 0x8000000000000000 + 0 * 0x10000000000000 + 0 := by
      rw [hwiden (by rw [hdouble]; decide), hdouble, Nat.zero_mul]
    refine ⟨by omega, ?_⟩
    rw [narrow_eq (by decide) (by decide) hfields, if_pos rfl, singleBits_zero, ← hback, hone,
      hzero]
  · have hlog : m.log2 < 24 := (Nat.log2_lt hzero).2 hme.lt
    have hle := hme.le
    obtain ⟨hlow, hhigh⟩ := shifted_bounds hzero (by omega)
    have hdouble := doubleBits_eq (e := e) hzero (by omega)
    have hfields := hwiden (by omega)
    rw [hdouble, ← Nat.add_assoc] at hfields
    refine ⟨by omega, ?_⟩
    rw [narrow_eq (by omega) (by omega) hfields, if_neg (by omega), Nat.add_sub_cancel' hlow,
      singleBits_shifted hzero hme, hback]

end TrafficControl
