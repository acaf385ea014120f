/-!
# Single precision

`narrow` rounds a double to the nearest single, a half to the even neighbour, and `widen`
gives the double of the same value. Both work on the bits : a finite positive number of either
precision is `m * 2 ^ q` with a whole `m`, and its bits are the unit `q`, counted from the least
one, times the size of the significand, plus `m`, whether or not `m` has its top bit.
-/

namespace TrafficControl

/-- `m / 2 ^ k` to the nearest whole number, a half to the even neighbour. -/
def roundShift (m k : Nat) : Nat :=
  let unit := Nat.pow 2 k
  let q := m / unit
  let r := m % unit
  if unit < 2 * r ∨ (2 * r = unit ∧ q % 2 = 1) then q + 1 else q

/-- The bits, without sign, of the single nearest to `m * 2 ^ (e - 1075)`. -/
def singleBits (m e : Nat) : Nat :=
  let unit : Int := max ((e : Int) - 1075 + m.log2 - 23) (-149)
  let shift := (unit - ((e : Int) - 1075)).toNat
  min ((unit + 149).toNat * 0x800000 + roundShift m shift) 0x7F800000

/-- The bits, without sign, of the double of value `m * 2 ^ (e - 150)`. -/
def doubleBits (m e : Nat) : Nat :=
  if m = 0 then 0 else (e + m.log2 + 872) * 0x10000000000000 + m * Nat.pow 2 (52 - m.log2)

/-- The single nearest to a double, infinite beyond their range. -/
def narrow (x : Float) : Float32 :=
  let b := x.toBits.toNat
  let e := b / 0x10000000000000 % 0x800
  let f := b % 0x10000000000000
  let magnitude :=
    if e = 2047 then if f = 0 then 0x7F800000 else 0x7FC00000
    else if e = 0 then singleBits f 1
    else singleBits (0x10000000000000 + f) e
  .ofBits (.ofNat (b / 0x8000000000000000 * 0x80000000 + magnitude))

/-- The double of the same value as a single. -/
def widen (x : Float32) : Float :=
  let b := x.toBits.toNat
  let e := b / 0x800000 % 0x100
  let f := b % 0x800000
  let magnitude :=
    if e = 255 then if f = 0 then 0x7FF0000000000000 else 0x7FF8000000000000
    else if e = 0 then doubleBits f 1
    else doubleBits (0x800000 + f) e
  .ofBits (.ofNat (b / 0x80000000 * 0x8000000000000000 + magnitude))

end TrafficControl
