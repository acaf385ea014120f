import TrafficControl.Text.CaseTable

/-!
# Lower case

`lowercase` writes a text in lower case by the rules of Unicode. Every character has a form of its
own, with two exceptions : a capital I with a dot becomes two characters, and a capital sigma at the
end of a word takes the final form. `asciiLowercase` leaves everything beyond ASCII alone.
-/

namespace TrafficControl.Text

/-- The lower-case form of a character taken alone. -/
def lowerChar (c : Char) : Char :=
  let n := c.toNat
  if n < 128 then c.toLower
  else match lowerRuns.find? fun r => r.first ≤ n && n ≤ r.last && (n - r.first) % r.step == 0 with
    | some r => Char.ofNat (r.target + (n - r.first))
    | none => c

/-- Whether a range of the table holds `c`. -/
def within (ranges : List (Nat × Nat)) (c : Char) : Bool :=
  ranges.any fun r => r.1 ≤ c.toNat && c.toNat ≤ r.2

/-- Whether the first character that is not passed over has case. -/
def meetsCased (cs : List Char) : Bool :=
  match cs.dropWhile (within ignorableRanges) with
  | [] => false
  | c :: _ => within casedRanges c

/-- Lower case of the characters that follow `before`, which is given last first. -/
def lowerAfter (before : List Char) : List Char → List Char
  | [] => []
  | 'Σ' :: rest =>
    (if meetsCased before && !meetsCased rest then 'ς' else 'σ') :: lowerAfter ('Σ' :: before) rest
  | 'İ' :: rest => 'i' :: Char.ofNat 0x307 :: lowerAfter ('İ' :: before) rest
  | c :: rest => lowerChar c :: lowerAfter (c :: before) rest

/-- A text in lower case. -/
def lowercase (s : String) : String := String.ofList (lowerAfter [] s.toList)

/-- A text with its ASCII letters in lower case. -/
def asciiLowercase (s : String) : String := String.ofList (s.toList.map Char.toLower)

end TrafficControl.Text
