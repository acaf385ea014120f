import TrafficControl.Proofs.Number.Digits
import TrafficControl.Settings.Source

/-!
# Single texts

A single text is taken for a value of some type (`Setting.ofText`). Who reads a text from this value
gets the value written anew (`Setting.rewritten`), which is the text itself exactly if that was
written in this way already (`Setting.rewritten_eq_iff`) : a truth value in lower case, an integer
without needless characters, a double by its shortest text, or anything else.
-/

namespace TrafficControl

namespace Setting

/-- The text that is read from the value for which a single text is taken. -/
def rewritten (s : String) : String := (ofText s).text?.getD s

/-- Whether a text is written in the way in which the value for which it is taken is. -/
structure IsPlain (s : String) : Prop where
  truth : ∀ b : Bool, Text.lowercase s = toString b → s = toString b
  integer : ∀ i, integerOfChars? s.toList = some i → IsPlainInteger s.toList
  double : ∀ x, integerOfChars? s.toList = none → doubleOfChars? s.toList = some x →
    Shortest.text x = s

/-- How a text is written anew. -/
inductive Rewrites (s : String) : String → Prop where
  | truth (b : Bool) (lower : Text.lowercase s = toString b) : Rewrites s (toString b)
  | integer {i : Int} (other : ∀ b : Bool, Text.lowercase s ≠ toString b)
      (read : integerOfChars? s.toList = some i) : Rewrites s (toString i)
  | double {x : Float} (other : ∀ b : Bool, Text.lowercase s ≠ toString b)
      (unread : integerOfChars? s.toList = none) (read : doubleOfChars? s.toList = some x) :
      Rewrites s (Shortest.text x)
  | same (other : ∀ b : Bool, Text.lowercase s ≠ toString b)
      (unread : integerOfChars? s.toList = none) (unread' : doubleOfChars? s.toList = none) :
      Rewrites s s

theorem exists_rewrites (s : String) : ∃ w, (ofText s).text? = some w ∧ Rewrites s w := by
  unfold ofText
  split
  · next lower => exact ⟨_, rfl, .truth true lower⟩
  · next lower => exact ⟨_, rfl, .truth false lower⟩
  · next htrue hfalse =>
    have other : ∀ b : Bool, Text.lowercase s ≠ toString b := fun b => by cases b <;> assumption
    split
    · next read => exact ⟨_, rfl, .integer other read⟩
    · next unread read => exact ⟨_, rfl, .double other unread read⟩
    · next unread unread' => exact ⟨_, rfl, .same other unread unread'⟩

theorem text?_ofText (s : String) : (ofText s).text? = some (rewritten s) := by
  obtain ⟨w, hw, -⟩ := exists_rewrites s
  rw [rewritten, hw, Option.getD_some]

theorem rewrites_rewritten (s : String) : Rewrites s (rewritten s) := by
  obtain ⟨w, hw, hrewrites⟩ := exists_rewrites s
  rwa [rewritten, hw, Option.getD_some]

theorem isPlain_toString (b : Bool) : IsPlain (toString b) where
  truth b' h := by
    have hlower : Text.lowercase (toString b) = toString b := by cases b <;> decide
    exact hlower.symm.trans h
  integer i h := by cases b <;> exact nomatch h
  double x _ h := by cases b <;> exact nomatch h

/-- A text is written anew as it was exactly if it was written so already. -/
theorem rewritten_eq_iff {s : String} : rewritten s = s ↔ IsPlain s := by
  have hrewrites := rewrites_rewritten s
  generalize rewritten s = w at hrewrites
  cases hrewrites with
  | truth b lower =>
    refine ⟨?_, fun h => (h.truth b lower).symm⟩
    rintro rfl
    exact isPlain_toString b
  | integer other read =>
    refine (toString_eq_iff read).trans ⟨fun h => ?_, fun h => h.integer _ read⟩
    exact ⟨fun b hb => absurd hb (other b), fun _ _ => h,
      fun x hunread => nomatch read.symm.trans hunread⟩
  | double other unread read =>
    refine ⟨fun h => ⟨fun b hb => absurd hb (other b), fun i hi => ?_, fun x _ hx => ?_⟩,
      fun h => h.double _ unread read⟩
    · exact nomatch unread.symm.trans hi
    · rwa [← Option.some.inj (read.symm.trans hx)]
  | same other unread unread' =>
    refine iff_of_true rfl ⟨fun b hb => absurd hb (other b), fun i hi => ?_, fun x _ hx => ?_⟩
    · exact nomatch unread.symm.trans hi
    · exact nomatch unread'.symm.trans hx

end Setting

end TrafficControl
