/-!
# JSON values

`Json` is a value as a document gives it. A record keeps its members in the order of the document,
repeated names included, because whether a repetition is an error is for the reader of the record
to say. A text whose escapes include half of a surrogate pair is a valid text of the grammar, but
stands for no string : it is kept as `none`, and only those who need the string refuse it. A number
is what its numeral denotes : a natural number, a negative one, or a double.
-/

namespace TrafficControl

/-- What a numeral denotes. A numeral without fraction and exponent is a whole number where 64 bits
hold it; any other is the double it is read as. -/
inductive Json.Number where
  /-- A whole number below 2⁶⁴. -/
  | natural (n : Nat)
  /-- The number `-n`, where `0 < n ≤ 2⁶³`. -/
  | negative (n : Nat)
  /-- A double. -/
  | real (x : Float)
  /-- A number beyond the range of a double. -/
  | huge
deriving DecidableEq

/-- A JSON value. -/
inductive Json where
  | null
  | bool (b : Bool)
  | number (n : Json.Number)
  | text (s : Option String)
  | list (items : List Json)
  | record (members : List (Option String × Json))

namespace Json

instance : Inhabited Json := ⟨null⟩

/-- The text `s`. -/
def string (s : String) : Json := text (some s)

/-- The record with the members given, under names that can be read. -/
def object (members : List (String × Json)) : Json :=
  record (members.map fun m => (some m.1, m.2))

/-- The double that a number denotes, unless it is beyond the doubles. -/
def Number.toFloat? : Number → Option Float
  | natural n => some (Float.ofNat n)
  | negative n => some (-Float.ofNat n)
  | real x => some x
  | huge => none

/-- The integer that a number denotes, if it was written as one. -/
def Number.toInt? : Number → Option Int
  | natural n => some n
  | negative n => some (-n)
  | real _ | huge => none

end Json

end TrafficControl
