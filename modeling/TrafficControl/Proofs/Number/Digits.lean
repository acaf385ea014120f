import Mathlib.Data.List.TakeWhile
import Mathlib.Data.Nat.Digits.Lemmas
import TrafficControl.Number.Numeral

/-!
# Digits

What the readers of whole numbers take for one : digits, of which there is at least one, in the
range that is asked for. A natural number may have a plus before it
(`naturalOfChars?_eq_some_iff`), an integer also a minus (`integerOfChars?_eq_some_iff`). Writing an
integer that was read gives its text back exactly if this has no needless characters
(`toString_eq_iff`).
-/

namespace TrafficControl

namespace Numeral

/-- Whether characters are the digits of a number. Zeros may stand before them. -/
structure AreDigitsOf (ds : List Char) (n : Nat) : Prop where
  ne_nil : ds ≠ []
  isDigit : ∀ c ∈ ds, c.isDigit
  value : Nat.ofDigits 10 (ds.reverse.map digit) = n

theorem ofDigits_eq (ds : List Nat) : ofDigits ds = Nat.ofDigits 10 ds.reverse := by
  rw [ofDigits, Nat.ofDigits_eq_foldr, List.foldr_reverse]
  congr 1
  funext n d
  exact Nat.add_comm ..

theorem afterDigits_eq_nil_iff {cs : List Char} : afterDigits cs = [] ↔ ∀ c ∈ cs, c.isDigit :=
  List.dropWhile_eq_nil_iff

theorem digits_eq_of_afterDigits {cs : List Char} (h : afterDigits cs = []) :
    digits cs = cs.map digit := by
  rw [digits, List.takeWhile_eq_self_iff.2 (afterDigits_eq_nil_iff.1 h)]

theorem areDigitsOf_iff {ds : List Char} {n : Nat} :
    AreDigitsOf ds n ↔ ds ≠ [] ∧ afterDigits ds = [] ∧ ofDigits (digits ds) = n := by
  constructor
  · rintro ⟨hne, hdigit, hvalue⟩
    have hafter := afterDigits_eq_nil_iff.2 hdigit
    refine ⟨hne, hafter, ?_⟩
    rw [digits_eq_of_afterDigits hafter, ofDigits_eq, ← List.map_reverse, hvalue]
  · rintro ⟨hne, hafter, hvalue⟩
    refine ⟨hne, afterDigits_eq_nil_iff.1 hafter, ?_⟩
    rw [digits_eq_of_afterDigits hafter, ofDigits_eq, ← List.map_reverse] at hvalue
    exact hvalue

/-- Digits do not begin with a sign. -/
theorem AreDigitsOf.head_ne {ds : List Char} {n : Nat} (h : AreDigitsOf ds n) {c : Char}
    (hc : c.isDigit = false) (cs : List Char) : ds ≠ c :: cs := by
  rintro rfl
  exact Bool.false_ne_true (hc.symm.trans (h.isDigit c List.mem_cons_self))

end Numeral

open Numeral

theorem naturalOfChars?_eq_some_iff {bound n : Nat} {cs : List Char} :
    naturalOfChars? bound cs = some n ↔
      (∃ ds, (cs = ds ∨ cs = '+' :: ds) ∧ AreDigitsOf ds n) ∧ n < bound := by
  have hread : ∀ ds : List Char, (if ds ≠ [] ∧ afterDigits ds = [] ∧ ofDigits (digits ds) < bound
      then some (ofDigits (digits ds)) else none) = some n ↔ AreDigitsOf ds n ∧ n < bound := by
    intro ds
    rw [areDigitsOf_iff, Option.ite_none_right_eq_some, Option.some.injEq]
    grind
  unfold naturalOfChars?
  dsimp only
  split
  next ds =>
    refine (hread ds).trans (and_congr_left fun _ => ⟨fun h => ⟨ds, .inr rfl, h⟩, ?_⟩)
    rintro ⟨ds', rfl | hds, h⟩
    · exact absurd rfl (h.head_ne rfl ds)
    · exact (List.cons.inj hds).2 ▸ h
  next hplus =>
    refine (hread cs).trans (and_congr_left fun _ => ⟨fun h => ⟨cs, .inl rfl, h⟩, ?_⟩)
    rintro ⟨ds', rfl | hds, h⟩
    · exact h
    · exact (hplus ds' hds).elim

theorem integerOfChars?_eq_some_iff {i : Int} {cs : List Char} :
    integerOfChars? cs = some i ↔
      (∃ ds n, AreDigitsOf ds n ∧
        ((cs = ds ∨ cs = '+' :: ds) ∧ i = n ∨ cs = '-' :: ds ∧ i = -n)) ∧ Word.InRange i := by
  have hread : ∀ (negative : Bool) (ds : List Char),
      (if ds ≠ [] ∧ afterDigits ds = [] ∧
          Word.InRange (if negative then -(ofDigits (digits ds) : Int) else ofDigits (digits ds))
        then some (if negative then -(ofDigits (digits ds) : Int) else ofDigits (digits ds))
        else none) = some i ↔
      (∃ n, AreDigitsOf ds n ∧ i = if negative then -(n : Int) else n) ∧ Word.InRange i := by
    intro negative ds
    simp only [areDigitsOf_iff, Option.ite_none_right_eq_some, Option.some.injEq]
    grind
  unfold integerOfChars? sign
  dsimp only
  split
  next ds =>
    refine (hread true ds).trans (and_congr_left fun _ => ⟨?_, ?_⟩)
    · rintro ⟨n, hn, hi⟩
      exact ⟨ds, n, hn, .inr ⟨rfl, hi⟩⟩
    · rintro ⟨ds', n, hn, ⟨rfl | hds, -⟩ | ⟨hds, hi⟩⟩
      · exact absurd rfl (hn.head_ne rfl ds)
      · exact absurd (List.cons.inj hds).1 (by decide)
      · exact ⟨n, (List.cons.inj hds).2 ▸ hn, hi⟩
  next ds =>
    refine (hread false ds).trans (and_congr_left fun _ => ⟨?_, ?_⟩)
    · rintro ⟨n, hn, hi⟩
      exact ⟨ds, n, hn, .inl ⟨.inr rfl, hi⟩⟩
    · rintro ⟨ds', n, hn, ⟨rfl | hds, hi⟩ | ⟨hds, -⟩⟩
      · exact absurd rfl (hn.head_ne rfl ds)
      · exact ⟨n, (List.cons.inj hds).2 ▸ hn, hi⟩
      · exact absurd (List.cons.inj hds).1 (by decide)
  next hminus hplus =>
    refine (hread false cs).trans (and_congr_left fun _ => ⟨?_, ?_⟩)
    · rintro ⟨n, hn, hi⟩
      exact ⟨cs, n, hn, .inl ⟨.inl rfl, hi⟩⟩
    · rintro ⟨ds', n, hn, ⟨rfl | hds, hi⟩ | ⟨hds, -⟩⟩
      · exact ⟨n, hn, hi⟩
      · exact (hplus ds' hds).elim
      · exact (hminus ds' hds).elim

/-! ## Writing -/

namespace Numeral

variable {ds cs : List Char} {n : Nat} {c : Char}

theorem digit_lt (h : c.isDigit) : digit c < 10 := by
  have hrange := (Char.isDigit_iff_toNat.1 h).2
  have hnine : '9'.toNat = '0'.toNat + 9 := rfl
  unfold digit
  omega

theorem digit_pos (h : c.isDigit) (hne : c ≠ '0') : 0 < digit c := by
  have hrange := (Char.isDigit_iff_toNat.1 h).1
  have hzero : c.toNat ≠ '0'.toNat := fun heq => hne (Char.toNat_inj.1 heq)
  unfold digit
  omega

theorem toDigits_digit (h : c.isDigit) : Nat.toDigits 10 (digit c) = [c] := by
  have hchar : (digit c).digitChar = c := by
    apply Char.toNat_inj.1
    rw [Nat.toNat_digitChar_of_lt_ten (digit_lt h)]
    exact Nat.add_sub_of_le (Char.isDigit_iff_toNat.1 h).1
  rw [Nat.toDigits_of_lt_base (digit_lt h), hchar]

theorem areDigitsOf_toDigits (n : Nat) : AreDigitsOf (Nat.toDigits 10 n) n where
  ne_nil := Nat.toDigits_ne_nil
  isDigit c hc := Nat.isDigit_of_mem_toDigits (by decide) (by decide) hc
  value := by
    rw [List.map_reverse, ← ofDigits_eq, ofDigits, List.foldl_map]
    exact Nat.ofDigitChars_ten_toDigits

theorem value_cons (c : Char) (cs : List Char) : Nat.ofDigits 10 ((c :: cs).reverse.map digit) =
    cs.foldl (fun n d => 10 * n + digit d) (digit c) := by
  rw [List.map_reverse, ← ofDigits_eq, ofDigits, List.foldl_map, List.foldl_cons, Nat.mul_zero,
    Nat.zero_add]

/-- More digits after those of a number make the digits of another one. -/
theorem toDigits_foldl {acc : Nat} (hpos : 0 < acc) (hdigit : ∀ c ∈ cs, c.isDigit) :
    Nat.toDigits 10 (cs.foldl (fun n c => 10 * n + digit c) acc) = Nat.toDigits 10 acc ++ cs := by
  induction cs generalizing acc with
  | nil => simp
  | cons c cs ih =>
    have hc := hdigit c List.mem_cons_self
    have hcs : ∀ d ∈ cs, d.isDigit := fun d hd => hdigit d (List.mem_cons_of_mem c hd)
    rw [List.foldl_cons, ih (by omega) hcs,
      ← Nat.toDigits_append_toDigits (by decide) hpos (digit_lt hc), toDigits_digit hc,
      List.append_assoc, List.singleton_append]

/-- Digits that do not begin with zero are those that the number is written with. -/
theorem AreDigitsOf.toDigits_eq (h : AreDigitsOf ds n) (hhead : ds.head? ≠ some '0') :
    Nat.toDigits 10 n = ds := by
  cases ds with
  | nil => exact absurd rfl h.ne_nil
  | cons c cs =>
    have hc := h.isDigit c List.mem_cons_self
    have hpos : 0 < digit c := digit_pos hc fun hzero => hhead (congrArg some hzero)
    rw [← h.value, value_cons, toDigits_foldl hpos fun d hd => h.isDigit d (.tail c hd),
      toDigits_digit hc, List.singleton_append]

theorem AreDigitsOf.tail (h : AreDigitsOf ('0' :: cs) n) (hne : cs ≠ []) : AreDigitsOf cs n where
  ne_nil := hne
  isDigit d hd := h.isDigit d (.tail _ hd)
  value := by
    obtain ⟨d, ds, rfl⟩ := List.exists_cons_of_ne_nil hne
    have hzero : 10 * digit '0' + digit d = digit d := by
      rw [show digit '0' = 0 from rfl, Nat.mul_zero, Nat.zero_add]
    rw [← h.value, value_cons, value_cons, List.foldl_cons, hzero]

/-- A number is not written with more digits than it can be. -/
theorem AreDigitsOf.length_le (h : AreDigitsOf ds n) : (Nat.toDigits 10 n).length ≤ ds.length := by
  induction ds with
  | nil => exact absurd rfl h.ne_nil
  | cons c cs ih =>
    by_cases hzero : c = '0'
    · subst hzero
      by_cases hnil : cs = []
      · subst hnil
        obtain rfl : 0 = n := h.value
        exact Nat.le_refl 1
      · exact Nat.le_succ_of_le (ih (h.tail hnil))
    · rw [h.toDigits_eq fun hhead => hzero (Option.some.inj hhead)]

/-- Digits are those that the number is written with if no zero stands before them. -/
theorem AreDigitsOf.toDigits_eq_iff (h : AreDigitsOf ds n) :
    Nat.toDigits 10 n = ds ↔ ds = ['0'] ∨ ds.head? ≠ some '0' := by
  constructor
  · intro heq
    refine or_iff_not_imp_right.2 fun hhead => ?_
    obtain ⟨cs, rfl⟩ := List.head?_eq_some_iff.1 (not_not.1 hhead)
    by_contra hne
    have hnil : cs ≠ [] := fun hnil => hne (by rw [hnil])
    have hlength := (h.tail hnil).length_le
    rw [heq, List.length_cons] at hlength
    omega
  · rintro (rfl | hhead)
    · obtain rfl : 0 = n := h.value
      rfl
    · exact h.toDigits_eq hhead

end Numeral

/-- Whether an integer is written without needless characters : as zero, or with digits that do not
begin with zero, and with no sign but a minus before them. -/
def IsPlainInteger (cs : List Char) : Prop :=
  cs = ['0'] ∨ ∃ c ds, (cs = c :: ds ∨ cs = '-' :: c :: ds) ∧ c.isDigit ∧ c ≠ '0'

theorem isPlainInteger_iff {ds : List Char} {n : Nat} (h : AreDigitsOf ds n) :
    IsPlainInteger ds ↔ Nat.toDigits 10 n = ds := by
  rw [h.toDigits_eq_iff]
  refine or_congr_right ⟨?_, fun hhead => ?_⟩
  · rintro ⟨c, ds', rfl | rfl, -, hne⟩
    · exact fun hhead => hne (Option.some.inj hhead)
    · exact absurd rfl (h.head_ne rfl _)
  · obtain ⟨c, ds', rfl⟩ := List.exists_cons_of_ne_nil h.ne_nil
    exact ⟨c, ds', .inl rfl, h.isDigit c List.mem_cons_self, fun hzero => hhead (congrArg _ hzero)⟩

theorem isPlainInteger_neg_iff {ds : List Char} {n : Nat} (h : AreDigitsOf ds n) :
    IsPlainInteger ('-' :: ds) ↔ ds.head? ≠ some '0' := by
  constructor
  · rintro (hzero | ⟨c, ds', hds | hds, hc, hne⟩)
    · exact absurd (List.cons.inj hzero).1 (by decide)
    · obtain rfl := (List.cons.inj hds).1
      exact absurd hc (by decide)
    · rw [(List.cons.inj hds).2]
      exact fun hhead => hne (Option.some.inj hhead)
  · intro hhead
    obtain ⟨c, ds', rfl⟩ := List.exists_cons_of_ne_nil h.ne_nil
    exact .inr ⟨c, ds', .inr rfl, h.isDigit c List.mem_cons_self,
      fun hzero => hhead (congrArg _ hzero)⟩

theorem not_isPlainInteger_plus (ds : List Char) : ¬IsPlainInteger ('+' :: ds) := by
  rintro (hzero | ⟨c, ds', hds | hds, hc, -⟩)
  · exact absurd (List.cons.inj hzero).1 (by decide)
  · obtain rfl := (List.cons.inj hds).1
    exact absurd hc (by decide)
  · exact absurd (List.cons.inj hds).1 (by decide)

theorem toList_toString_natCast (n : Nat) : (toString (n : Int)).toList = Nat.toDigits 10 n := by
  change (Int.repr n).toList = _
  rw [Int.repr_eq_if, if_pos (Int.natCast_nonneg n), Int.toNat_natCast, Nat.repr_eq_ofList_toDigits,
    String.toList_ofList]

theorem toList_toString_neg {n : Nat} (h : n ≠ 0) :
    (toString (-n : Int)).toList = '-' :: Nat.toDigits 10 n := by
  change (Int.repr (-n)).toList = _
  rw [Int.repr_eq_if, if_neg (by omega), Int.neg_neg, Int.toNat_natCast,
    Nat.repr_eq_ofList_toDigits, String.toList_append]
  exact congrArg ('-' :: ·) String.toList_ofList

/-- An integer is written as it was if that was without needless characters. -/
theorem toString_eq_iff {s : String} {i : Int} (h : integerOfChars? s.toList = some i) :
    toString i = s ↔ IsPlainInteger s.toList := by
  obtain ⟨⟨ds, n, hds, hsign⟩, -⟩ := integerOfChars?_eq_some_iff.1 h
  rw [← String.toList_inj]
  obtain ⟨hs | hs, rfl⟩ | ⟨hs, rfl⟩ := hsign
  · rw [hs, isPlainInteger_iff hds, toList_toString_natCast]
  · rw [hs, toList_toString_natCast]
    exact iff_of_false ((areDigitsOf_toDigits n).head_ne rfl ds) (not_isPlainInteger_plus ds)
  · rw [hs, isPlainInteger_neg_iff hds]
    by_cases hn : n = 0
    · subst hn
      have hzero : (toString (-((0 : Nat) : Int))).toList = ['0'] := rfl
      rw [hzero]
      refine iff_of_false (by simp) fun hhead => ?_
      -- the digits would be those of zero
      rw [← hds.toDigits_eq hhead] at hhead
      exact hhead rfl
    · have hzero : ds ≠ ['0'] := by
        rintro rfl
        exact hn hds.value.symm
      rw [toList_toString_neg hn, List.cons.injEq, and_iff_right rfl, hds.toDigits_eq_iff,
        or_iff_right hzero]

end TrafficControl
