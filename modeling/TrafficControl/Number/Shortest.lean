/-!
# The shortest text of a double

`Shortest.ofPositive` is the decimal with the fewest digits among those that read back as a given
positive double, and of these the one nearest to it. A double `m * 2 ^ q` is read back from every
real number between the midpoints to its neighbours, the midpoints themselves included when `m` is
even. On the grid of decimals of `n` digits only the two points around the double can be nearest to
it, so the first grid on which one of them reads back gives the answer.

`Shortest.text` writes a double with these digits in positional notation, whatever its size.
-/

namespace TrafficControl.Shortest

/-- A positive double as `numerator / denominator`, in units of a quarter of its last place, with
the distances to the midpoints below and above in these units. -/
structure Span where
  numerator : Nat
  denominator : Nat
  below : Nat
  above : Nat
  /-- Whether the midpoints themselves read back. -/
  closed : Bool

/-- The span of a finite positive double. -/
def Span.ofFloat (x : Float) : Span :=
  let b := x.toBits.toNat
  let e := b / 0x10000000000000 % 0x800
  let f := b % 0x10000000000000
  let m := if e = 0 then f else 0x10000000000000 + f
  -- The exponent of a quarter of the last place.
  let q : Int := ((max e 1 : Nat) : Int) - 1077
  let unit := Nat.pow 2 q.toNat
  { numerator := 4 * m * unit, denominator := Nat.pow 2 (-q).toNat,
    below := (if f = 0 ∧ 1 < e then 1 else 2) * unit, above := 2 * unit, closed := m % 2 = 0 }

/-- Whether `d * 10 ^ k` reads back. -/
def Span.covers (s : Span) (d : Nat) (k : Int) : Bool :=
  let v := d * Nat.pow 10 k.toNat * s.denominator
  let scale := Nat.pow 10 (-k).toNat
  let low := (s.numerator - s.below) * scale
  let high := (s.numerator + s.above) * scale
  if s.closed then low ≤ v && v ≤ high else low < v && v < high

/-- The number of digits of `n`, none of zero. -/
def digitCount (n : Nat) : Nat := if n = 0 then 0 else (Nat.toDigits 10 n).length

/-- The power of ten of the first digit. -/
def Span.magnitude (s : Span) : Int :=
  if s.denominator ≤ s.numerator then digitCount (s.numerator / s.denominator) - 1
  else -digitCount ((s.denominator + s.numerator - 1) / s.numerator - 1)

/-- The point of the grid of step `10 ^ k` that reads back, the nearer of two. -/
def Span.pick? (s : Span) (k : Int) : Option Nat :=
  let num := s.numerator * Nat.pow 10 (-k).toNat
  let den := s.denominator * Nat.pow 10 k.toNat
  let d := num / den
  let nearer := if 2 * (num % den) < den then d else d + 1
  let other := if nearer = d then d + 1 else d
  if s.covers nearer k then some nearer
  else if s.covers other k then some other
  else none

/-- Digits and power of ten of the shortest decimal of `n` digits or up to `fuel` more. -/
def Span.search (s : Span) (n : Nat) : Nat → Nat × Int
  | 0 => (0, 0)
  | fuel + 1 =>
    let k := s.magnitude + 1 - n
    match s.pick? k with
    | some d => (d, k)
    | none => s.search (n + 1) fuel

/-- The shortest decimal of a finite positive double, as `d * 10 ^ k`. Seventeen digits always
suffice. A double just below a power of ten may be nearest to that power, which is one digit of the
next place. -/
def ofPositive (x : Float) : Nat × Int :=
  let (d, k) := (Span.ofFloat x).search 1 17
  if d % 10 = 0 then (d / 10, k + 1) else (d, k)

/-- Writes `d * 10 ^ k` in positional notation. -/
def positional (d : Nat) (k : Int) : String :=
  let digits := Nat.toDigits 10 d
  if 0 ≤ k then String.ofList (digits ++ List.replicate k.toNat '0')
  else
    let places := k.natAbs
    let padded := List.replicate (places + 1 - digits.length) '0' ++ digits
    let whole := padded.length - places
    String.ofList (padded.take whole ++ '.' :: padded.drop whole)

/-- The shortest text of a double. -/
def text (x : Float) : String :=
  if x.isNaN then "NaN"
  else
    let minus := if 0x8000000000000000 ≤ x.toBits.toNat then "-" else ""
    if x.isInf then minus ++ "inf"
    else if x == 0 then minus ++ "0"
    else
      let (d, k) := ofPositive x.abs
      minus ++ positional d k

end TrafficControl.Shortest
