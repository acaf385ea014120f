/-!
# Signed words

Instants and spans in microseconds are signed words of 64 bits, kept as integers. `Word.clamp` and
`Word.wrap` are the two ways back into the range : to its nearer end, or around. `saturatingAdd`
and `saturatingSub` clamp, `wrappingSub` wraps.
-/

namespace TrafficControl.Word

/-- The least word. -/
def least : Int := -0x8000000000000000

/-- The greatest word. -/
def greatest : Int := 0x7FFFFFFFFFFFFFFF

/-- Whether `x` is a word. -/
def InRange (x : Int) : Prop := least ≤ x ∧ x ≤ greatest

instance (x : Int) : Decidable (InRange x) := inferInstanceAs (Decidable (_ ∧ _))

/-- The word nearest to `x`. -/
def clamp (x : Int) : Int := max least (min x greatest)

/-- The word that equals `x` up to a multiple of 2⁶⁴. -/
def wrap (x : Int) : Int := x.bmod 0x10000000000000000

theorem inRange_clamp (x : Int) : InRange (clamp x) := by
  unfold InRange clamp least greatest; omega

theorem clamp_of_inRange {x : Int} (h : InRange x) : clamp x = x := by
  unfold InRange least greatest at h; unfold clamp least greatest; omega

theorem wrap_of_inRange {x : Int} (h : InRange x) : wrap x = x := by
  unfold InRange least greatest at h
  exact Int.bmod_eq_of_le (by omega) (by omega)

/-- The sum, clamped. -/
def saturatingAdd (a b : Int) : Int := clamp (a + b)

/-- The difference, clamped. -/
def saturatingSub (a b : Int) : Int := clamp (a - b)

/-- The difference, wrapped. -/
def wrappingSub (a b : Int) : Int := wrap (a - b)

end TrafficControl.Word
