import TrafficControl.Json.Numeral

/-!
# Reading JSON

`Json.read?` reads a whole text as one value. `Lexer` splits the text into tokens, one character at
a time; `Builder` puts tokens together, one at a time, with the containers that are still open in a
list of frames, so that no depth of nesting is too deep. Both refuse by giving no next state.

The grammar is the strict one : no comments, no trailing commas, no leading zeros, no control
characters inside a text. A text whose escapes leave half of a surrogate pair alone belongs to the
grammar and is read as `Json.text none`.
-/

namespace TrafficControl.Json

/-! ## Texts -/

/-- A text as far as it has been read. -/
structure PartialText where
  /-- The characters, last first, unless an escape stands for none. -/
  chars : Option (List Char) := some []
  /-- The first half of a surrogate pair, when the second must come next. -/
  high : Option Nat := none

namespace PartialText

/-- The text that no string is. -/
def broken : PartialText := ⟨none, none⟩

/-- Append a character. -/
def push (t : PartialText) (c : Char) : PartialText :=
  if t.high.isSome then broken else { t with chars := t.chars.map (c :: ·) }

/-- Append the UTF-16 unit `u` of an escape. -/
def pushUnit (t : PartialText) (u : Nat) : PartialText :=
  match t.high with
  | some h =>
    if 0xDC00 ≤ u ∧ u < 0xE000 then
      push { t with high := none } (Char.ofNat (0x10000 + (h - 0xD800) * 0x400 + (u - 0xDC00)))
    else broken
  | none =>
    if 0xD800 ≤ u ∧ u < 0xDC00 then { t with high := some u }
    else if 0xDC00 ≤ u ∧ u < 0xE000 then broken
    else t.push (Char.ofNat u)

/-- The text, when it is complete. -/
def close (t : PartialText) : Option String :=
  if t.high.isSome then none else t.chars.map fun cs => String.ofList cs.reverse

end PartialText

/-! ## Tokens -/

/-- A token : punctuation, or a value that is no container. -/
inductive Token where
  | openList | closeList | openRecord | closeRecord | comma | colon
  | atom (j : Json)

/-- What the lexer is in the middle of. -/
inductive Lexer.Mode where
  | between
  /-- A word or a numeral, its characters last first. -/
  | word (cs : List Char)
  | text (t : PartialText)
  /-- After a backslash. -/
  | escape (t : PartialText)
  /-- In a numeric escape : the value of the digits read, and the number of those to come. -/
  | unit (t : PartialText) (value left : Nat)

/-- The tokens read, last first, and what comes next. -/
structure Lexer where
  tokens : List Token := []
  mode : Lexer.Mode := .between

namespace Lexer

/-- White space between tokens. -/
def isBlank (c : Char) : Bool := c = ' ' || c = '\t' || c = '\n' || c = '\r'

/-- A character of a word or a numeral. -/
def isWordChar (c : Char) : Bool := c.isAlphanum || c = '-' || c = '+' || c = '.'

/-- The value of a word or a numeral. -/
def ofWord? (cs : List Char) : Option Json :=
  if cs = ['n', 'u', 'l', 'l'] then some .null
  else if cs = ['t', 'r', 'u', 'e'] then some (.bool true)
  else if cs = ['f', 'a', 'l', 's', 'e'] then some (.bool false)
  else (Number.ofChars? cs).map .number

/-- The value of a hexadecimal digit. -/
def hexDigit? (c : Char) : Option Nat :=
  if c.isDigit then some (c.toNat - '0'.toNat)
  else if 'a' ≤ c ∧ c ≤ 'f' then some (c.toNat - 'a'.toNat + 10)
  else if 'A' ≤ c ∧ c ≤ 'F' then some (c.toNat - 'A'.toNat + 10)
  else none

/-- The character for a one-letter escape. -/
def escaped? (c : Char) : Option Char :=
  match c with
  | '"' => some '"'
  | '\\' => some '\\'
  | '/' => some '/'
  | 'b' => some '\x08'
  | 'f' => some '\x0c'
  | 'n' => some '\n'
  | 'r' => some '\r'
  | 't' => some '\t'
  | _ => none

/-- End the word or numeral that the lexer is in, if any. -/
def endWord (s : Lexer) : Option Lexer :=
  match s.mode with
  | .word cs => (ofWord? cs.reverse).map fun j => ⟨.atom j :: s.tokens, .between⟩
  | _ => some s

/-- Read a character outside of texts, words and numerals. -/
def start (tokens : List Token) (c : Char) : Option Lexer :=
  match c with
  | '[' => some ⟨.openList :: tokens, .between⟩
  | ']' => some ⟨.closeList :: tokens, .between⟩
  | '{' => some ⟨.openRecord :: tokens, .between⟩
  | '}' => some ⟨.closeRecord :: tokens, .between⟩
  | ',' => some ⟨.comma :: tokens, .between⟩
  | ':' => some ⟨.colon :: tokens, .between⟩
  | '"' => some ⟨tokens, .text {}⟩
  | c =>
    if isBlank c then some ⟨tokens, .between⟩
    else if isWordChar c then some ⟨tokens, .word [c]⟩
    else none

/-- Read one character. -/
def step (s : Lexer) (c : Char) : Option Lexer :=
  match s.mode with
  | .between => start s.tokens c
  | .word cs =>
    if isWordChar c then some { s with mode := .word (c :: cs) }
    else s.endWord.bind fun s => start s.tokens c
  | .text t =>
    if c = '"' then some ⟨.atom (.text t.close) :: s.tokens, .between⟩
    else if c = '\\' then some { s with mode := .escape t }
    else if c.toNat < 0x20 then none
    else some { s with mode := .text (t.push c) }
  | .escape t =>
    if c = 'u' then some { s with mode := .unit t 0 4 }
    else (escaped? c).map fun e => { s with mode := .text (t.push e) }
  | .unit t value left =>
    (hexDigit? c).map fun d =>
      let value := 16 * value + d
      { s with mode := if left ≤ 1 then .text (t.pushUnit value) else .unit t value (left - 1) }

end Lexer

/-- The tokens of a text. -/
def tokens? (cs : List Char) : Option (List Token) := do
  let s ← (← cs.foldlM Lexer.step {}).endWord
  match s.mode with
  | .between => some s.tokens.reverse
  | _ => none

/-! ## Values -/

/-- A container that is still open, its contents last first. -/
inductive Frame where
  | list (items : List Json)
  /-- A record, and the name whose value is being read. -/
  | record (members : List (Option String × Json)) (name : Option String)

/-- What must come next. The frames are the containers still open, innermost first. -/
inductive Builder where
  /-- A value. -/
  | value (frames : List Frame)
  /-- The first item of a list, or its end. -/
  | item (frames : List Frame)
  /-- The name of a member, or, of the first one, the end of the record. -/
  | name (members : List (Option String × Json)) (isFirst : Bool) (frames : List Frame)
  /-- The colon after a name. -/
  | colon (members : List (Option String × Json)) (name : Option String) (frames : List Frame)
  /-- What follows a complete value. -/
  | after (j : Json) (frames : List Frame)

namespace Builder

/-- Read the token with which a value starts. -/
def startValue (frames : List Frame) : Token → Option Builder
  | .openList => some (.item frames)
  | .openRecord => some (.name [] true frames)
  | .atom j => some (.after j frames)
  | _ => none

/-- Read one token. -/
def step : Builder → Token → Option Builder
  | .item frames, .closeList => some (.after (.list []) frames)
  | .item frames, t => startValue (.list [] :: frames) t
  | .value frames, t => startValue frames t
  | .name members _ frames, .atom (.text n) => some (.colon members n frames)
  | .name _ true frames, .closeRecord => some (.after (.record []) frames)
  | .colon members n frames, .colon => some (.value (.record members n :: frames))
  | .after j (.list items :: frames), .comma => some (.value (.list (j :: items) :: frames))
  | .after j (.list items :: frames), .closeList =>
    some (.after (.list (j :: items).reverse) frames)
  | .after j (.record members n :: frames), .comma => some (.name ((n, j) :: members) false frames)
  | .after j (.record members n :: frames), .closeRecord =>
    some (.after (.record ((n, j) :: members).reverse) frames)
  | _, _ => none

end Builder

/-- Reads all of `cs` as one value. -/
def readChars? (cs : List Char) : Option Json := do
  match ← (← tokens? cs).foldlM Builder.step (.value []) with
  | .after j [] => some j
  | _ => none

/-- Reads all of a text as one value. -/
def read? (s : String) : Option Json := readChars? s.toList

end TrafficControl.Json
