/-!
# Parts of a text

`beginsWith` and `occursIn` look for a text in another one; `parts` takes a text apart; `trimBlanks`
and `trimEnd` drop characters from the ends.
-/

namespace TrafficControl.Text

/-- Whether `s` begins with `start`. -/
def beginsWith (start s : String) : Bool := start.toList.isPrefixOf s.toList

/-- Whether `part` is found in `cs`. The empty part is found in everything. -/
def occursInChars (part : List Char) : List Char → Bool
  | [] => part.isEmpty
  | c :: cs => part.isPrefixOf (c :: cs) || occursInChars part cs

/-- Whether `part` is found in `s`. -/
def occursIn (part s : String) : Bool := occursInChars part.toList s.toList

/-- The parts of a text that the character `c` divides. -/
def parts (c : Char) (s : String) : List String := (s.toList.splitOn c).map String.ofList

/-- A character of the Unicode property White_Space. -/
def isBlank (c : Char) : Bool :=
  let n := c.toNat
  (9 ≤ n && n ≤ 13) || n = 0x20 || n = 0x85 || n = 0xA0 || n = 0x1680 ||
    (0x2000 ≤ n && n ≤ 0x200A) || n = 0x2028 || n = 0x2029 || n = 0x202F || n = 0x205F || n = 0x3000

/-- `cs` without the characters at its end that satisfy `p`. -/
def dropEnd (p : Char → Bool) (cs : List Char) : List Char := (cs.reverse.dropWhile p).reverse

/-- A text without the white space at its ends. -/
def trimBlanks (s : String) : String := String.ofList (dropEnd isBlank (s.toList.dropWhile isBlank))

/-- A text without the characters `c` at its end. -/
def trimEnd (c : Char) (s : String) : String := String.ofList (dropEnd (· = c) s.toList)

end TrafficControl.Text
