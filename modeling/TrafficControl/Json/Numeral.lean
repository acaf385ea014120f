import TrafficControl.Json.Basic
import TrafficControl.Number.Numeral

/-!
# Numerals of JSON

`Json.Number.ofChars?` reads a numeral of the JSON grammar. A whole number that 64 bits hold is
exact. Any other number is read with a significand of 64 bits and then scaled by its power of ten
with one multiplication or division, which can miss the nearest double by a unit in the last place
where significand or power is large.
-/

namespace TrafficControl.Json.Number

/-! ## Grammar -/

/-- Reads a numeral of the JSON grammar : no leading plus or zero, digits on both sides of a
point. -/
def numeral? (cs : List Char) : Option Numeral := do
  let (minus, cs) := match cs with
    | '-' :: cs => (true, cs)
    | cs => (false, cs)
  let whole := Numeral.digits cs
  guard (whole ≠ [] ∧ (whole.head? = some 0 → whole.length = 1))
  let (fraction, rest) := Numeral.point (Numeral.afterDigits cs)
  guard (fraction ≠ some [])
  return { negative := minus, whole, fraction, exponent := ← Numeral.exponent? rest }

/-! ## Doubles -/

/-- The digits before the point that a significand of 64 bits holds, and the number of those from
the first that it does not. -/
def takeWhole (ds : List Nat) : Nat × Nat :=
  ds.foldl (fun (n, dropped) d =>
    if dropped = 0 ∧ 10 * n + d < UInt64.size then (10 * n + d, 0) else (n, dropped + 1)) (0, 0)

/-- Digits after the point appended to the significand `n` up to the first that it does not hold,
and their number. -/
def takeFraction (n : Nat) : List Nat → Nat × Nat
  | [] => (n, 0)
  | d :: ds =>
    if 10 * n + d < UInt64.size then
      let (m, taken) := takeFraction (10 * n + d) ds
      (m, taken + 1)
    else (n, 0)

/-- The double `10 ^ k`, exact up to 22 and the nearest one up to 308. -/
def powerOfTen (k : Nat) : Float := .ofScientific 1 false k

/-- `x` divided by `10 ^ k`, in steps that the doubles hold. -/
def shrink (x : Float) (k : Nat) : Float :=
  if k ≤ 308 then x / powerOfTen k
  else if x == 0 then x
  else shrink (x / powerOfTen 308) (k - 308)
termination_by k

/-- The double for `n * 10 ^ e`, unless it is infinite. -/
def scale? (n : Nat) (e : Int) : Option Float :=
  let x := Float.ofNat n
  if e < 0 then some (shrink x e.natAbs)
  else if 308 < e then if x == 0 then some x else none
  else
    let y := x * powerOfTen e.toNat
    if y.isInf then none else some y

/-- The number that a numeral denotes. -/
def ofNumeral (x : Numeral) : Number :=
  let (n, dropped) := takeWhole x.whole
  let (m, taken) := takeFraction n (x.fraction.getD [])
  if x.fraction = none ∧ x.exponent = none ∧ dropped = 0 ∧
      (x.negative → 0 < n ∧ n ≤ 0x8000000000000000) then
    if x.negative then negative n else natural n
  else match scale? m (x.exponent.getD 0 + dropped - taken) with
    | some y => real (if x.negative then -y else y)
    | none => huge

/-- Reads all of `cs` as a number. -/
def ofChars? (cs : List Char) : Option Number := (numeral? cs).map ofNumeral

end TrafficControl.Json.Number
