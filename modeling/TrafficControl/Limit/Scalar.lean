import TrafficControl.Number.Word

/-!
# Scalars of a token bucket

A token bucket counts permits in fractions. `Scalar` names what it needs of the numbers it counts
with, so that one definition runs on doubles and can be read over exact numbers as well.
-/

namespace TrafficControl

/-- Numbers to count permits with. -/
class Scalar (α : Type) extends Add α, Sub α, Mul α, Div α where
  ofInt : Int → α
  /-- The value of a double that a policy gives. -/
  ofFloat : Float → α
  le : α → α → Bool
  /-- The signed word nearest to a number whose fraction is dropped. -/
  truncate : α → Int

namespace Scalar

variable {α : Type} [Scalar α]

/-- The lesser of two numbers. -/
def min (a b : α) : α := if le a b then a else b

/-- The greater of two numbers, the second one where the first is no number. -/
def max (a b : α) : α := if le b a then a else b

end Scalar

/-- The signed word nearest to a double whose fraction is dropped, zero where it is no number. -/
def truncateFloat (x : Float) : Int :=
  if x < 0 then -Int.ofNat (Nat.min (-x).toUInt64.toNat 0x8000000000000000)
  else Int.ofNat (Nat.min x.toUInt64.toNat 0x7FFFFFFFFFFFFFFF)

instance : Scalar Float where
  ofInt := .ofInt
  ofFloat x := x
  le a b := a ≤ b
  truncate := truncateFloat

end TrafficControl
