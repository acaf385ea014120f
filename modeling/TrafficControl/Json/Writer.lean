import TrafficControl.Json.Basic
import TrafficControl.Number.Shortest

/-!
# Writing JSON

`Json.write` writes a value without white space. Texts escape what the grammar does not let stand :
quotes, backslashes and control characters.
-/

namespace TrafficControl.Json

/-- A control character as an escape. -/
def escapeControl (c : Char) : String :=
  let digits := Nat.toDigits 16 c.toNat
  "\\u" ++ String.ofList (List.replicate (4 - digits.length) '0' ++ digits)

/-- A character inside a text. -/
def escape (c : Char) : String :=
  if c = '"' then "\\\""
  else if c = '\\' then "\\\\"
  else if c.toNat < 0x20 then escapeControl c
  else c.toString

/-- A text between quotes. -/
def quote (s : String) : String := s.foldl (fun out c => out ++ escape c) "\"" ++ "\""

/-- A number. What no numeral denotes is written as `null`. -/
def Number.write : Number → String
  | natural n => s!"{n}"
  | negative n => s!"-{n}"
  | real x => if x.isFinite then Shortest.text x else "null"
  | huge => "null"

mutual

/-- A value as JSON. A text that stands for no string is written as `null`. -/
def write : Json → String
  | null => "null"
  | bool b => if b then "true" else "false"
  | number n => n.write
  | text s => (s.map quote).getD "null"
  | list items => "[" ++ ",".intercalate (writeItems items) ++ "]"
  | record members => "\x7b" ++ ",".intercalate (writeMembers members) ++ "\x7d"

/-- The items of a list. -/
def writeItems : List Json → List String
  | [] => []
  | j :: rest => write j :: writeItems rest

/-- The members of a record. -/
def writeMembers : List (Option String × Json) → List String
  | [] => []
  | (name, j) :: rest => ((name.map quote).getD "\"\"" ++ ":" ++ write j) :: writeMembers rest

end

end TrafficControl.Json
