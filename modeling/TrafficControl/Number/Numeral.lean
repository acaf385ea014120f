import TrafficControl.Number.Word

/-!
# Decimal numerals

A `Numeral` is a decimal number as it is written : sign, digits before and after the point, power
of ten. `Numeral.nearest` is the double nearest to it. `Numeral.ofChars?` reads the grammar of
settings, which allows a leading plus and a missing side of the point; `naturalOfChars?` and
`integerOfChars?` read whole numbers, `doubleOfChars?` doubles.
-/

namespace TrafficControl

/-- A decimal number as it is written. -/
structure Numeral where
  negative : Bool
  /-- Digits before the point. -/
  whole : List Nat
  /-- Digits after the point, if there is a point. -/
  fraction : Option (List Nat)
  /-- The power of ten, if one is given. -/
  exponent : Option Int
deriving DecidableEq

namespace Numeral

/-! ## Digits -/

/-- The value of a digit character. -/
def digit (c : Char) : Nat := c.toNat - '0'.toNat

/-- The digits that `cs` begins with. -/
def digits (cs : List Char) : List Nat := (cs.takeWhile Char.isDigit).map digit

/-- What follows the digits that `cs` begins with. -/
def afterDigits (cs : List Char) : List Char := cs.dropWhile Char.isDigit

/-- The number written by `ds`. -/
def ofDigits (ds : List Nat) : Nat := ds.foldl (fun n d => 10 * n + d) 0

/-! ## Parts of a numeral -/

/-- A sign and what follows it. -/
def sign : List Char → Bool × List Char
  | '-' :: cs => (true, cs)
  | '+' :: cs => (false, cs)
  | cs => (false, cs)

/-- Reads all of `cs` as a power of ten : nothing, or a mark, a sign and digits. -/
def exponent? : List Char → Option (Option Int)
  | [] => some none
  | c :: cs =>
    let (negative, cs) := sign cs
    if (c = 'e' ∨ c = 'E') ∧ digits cs ≠ [] ∧ afterDigits cs = [] then
      let n : Int := ofDigits (digits cs)
      some (some (if negative then -n else n))
    else none

/-- A point and the digits after it, with what follows. -/
def point : List Char → Option (List Nat) × List Char
  | '.' :: cs => (some (digits cs), afterDigits cs)
  | cs => (none, cs)

/-- Reads a numeral of the settings grammar : a digit on at least one side of the point. -/
def ofChars? (cs : List Char) : Option Numeral := do
  let (negative, cs) := sign cs
  let (fraction, rest) := point (afterDigits cs)
  guard (digits cs ≠ [] ∨ fraction.getD [] ≠ [])
  return { negative, whole := digits cs, fraction, exponent := ← exponent? rest }

/-! ## Values -/

/-- All digits, without the point. -/
def significand (x : Numeral) : Nat := ofDigits (x.whole ++ x.fraction.getD [])

/-- The power of ten that belongs to `significand`. -/
def power (x : Numeral) : Int := x.exponent.getD 0 - (x.fraction.getD []).length

/-- The double without end. -/
def infinite : Float := .ofBits 0x7FF0000000000000

/-- The double nearest to the number written, infinite beyond their range. A power of ten that alone
decides the matter is not worked out. -/
def nearest (x : Numeral) : Float :=
  let places := x.whole.length + (x.fraction.getD []).length
  let f : Float :=
    if x.significand = 0 ∨ x.power + places < -400 then 0
    else if 400 < x.power then infinite
    else .ofScientific x.significand (x.power < 0) x.power.natAbs
  if x.negative then -f else f

end Numeral

/-- Reads a double : a numeral, or the name of a value that has none, in any case of letters. -/
def doubleOfChars? (cs : List Char) : Option Float :=
  let (negative, name) := Numeral.sign cs
  match String.ofList (name.map Char.toLower) with
  | "inf" | "infinity" => some (if negative then -Numeral.infinite else Numeral.infinite)
  | "nan" => some (.ofBits 0x7FF8000000000000)
  | _ => (Numeral.ofChars? cs).map Numeral.nearest

/-- Reads a natural number below `bound` : an optional plus and digits. -/
def naturalOfChars? (bound : Nat) (cs : List Char) : Option Nat :=
  let ds := match cs with
    | '+' :: ds => ds
    | ds => ds
  let n := Numeral.ofDigits (Numeral.digits ds)
  if ds ≠ [] ∧ Numeral.afterDigits ds = [] ∧ n < bound then some n else none

/-- Reads an integer of 64 bits : an optional sign and digits. -/
def integerOfChars? (cs : List Char) : Option Int :=
  let (negative, ds) := Numeral.sign cs
  let n : Int := Numeral.ofDigits (Numeral.digits ds)
  let i := if negative then -n else n
  if ds ≠ [] ∧ Numeral.afterDigits ds = [] ∧ Word.InRange i then some i else none

end TrafficControl
