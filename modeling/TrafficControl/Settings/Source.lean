import TrafficControl.Json.Basic
import TrafficControl.Number.Numeral
import TrafficControl.Number.Shortest
import TrafficControl.Text.Case
import TrafficControl.Text.Match

/-!
# Sources of settings

A source gives settings as one tree of named values. `Setting.put` lays a value over what a tree
already has under its name : a group adds to a group, any other value takes the place of the old
one. `Setting.putAt` does so further down, at the end of a path such as `zones[2].name`, and
`Setting.path` reads the text of a path.

Values come from a JSON text (`Setting.ofJson?`) or from single texts, whose type has to be guessed
(`Setting.ofText`); the readers at the end undo wrong guesses as far as they can.
-/

namespace TrafficControl

/-- A value that a source gives. -/
inductive Setting where
  | absent
  | bool (b : Bool)
  | whole (n : Int)
  | real (x : Float)
  | text (s : String)
  | list (items : List Setting)
  | group (entries : List (String × Setting))

namespace Setting

instance : Inhabited Setting := ⟨absent⟩

/-! ## Trees -/

/-- The entries of a group. Any other value has none. -/
def entries : Setting → List (String × Setting)
  | group es => es
  | _ => []

/-- Give an entry its value, in its place if it has one, else at the end. -/
def replace (name : String) (value : Setting) : List (String × Setting) → List (String × Setting)
  | [] => [(name, value)]
  | (n, v) :: rest => if n = name then (name, value) :: rest else (n, v) :: replace name value rest

mutual

/-- Lay a value over what a tree has under a name. Names are in lower case. -/
def put (tree : Setting) (name : String) (value : Setting) : Setting :=
  let name := Text.lowercase name
  match value with
  | group es =>
    let old := (tree.entries.lookup name).getD (group [])
    group (replace name (putAll old es) tree.entries)
  | v => group (replace name v tree.entries)

/-- Lay entries over those of a tree, one after the other. -/
def putAll (tree : Setting) (es : List (String × Setting)) : Setting :=
  match es with
  | [] => tree
  | (name, value) :: rest => putAll (put tree name value) rest

end

/-- The items of a list. Any other value has none. -/
def items : Setting → List Setting
  | list xs => xs
  | _ => []

/-! ## Paths -/

/-- A step down a tree : to an entry of a group by its name, or to an item of a list by its index. A
negative index counts from the end of the list. -/
inductive Step where
  | entry (name : String)
  | item (index : Int)
deriving DecidableEq

/-- A list in which an index has a place, and that place. The items that the list lacks are put
behind it, or in front of it if the index is negative. -/
def withPlace (index : Int) (xs : List Setting) : List Setting × Nat :=
  let place := if index < 0 then xs.length + index else index
  if place < 0 then (List.replicate (-place).toNat absent ++ xs, 0)
  else (xs.rightpad (place.toNat + 1) absent, place.toNat)

/-- Lay a value over what a tree has under a path. What is in the way becomes a group or a list. -/
def putAt (tree : Setting) (path : List Step) (value : Setting) : Setting :=
  match path with
  | [] => value
  | [.entry name] => tree.put name value
  | .entry name :: path =>
    let old := (tree.entries.lookup name).getD absent
    group (replace name (old.putAt path value) tree.entries)
  | .item index :: path =>
    let (xs, place) := withPlace index tree.items
    list (xs.modify place fun old => old.putAt path value)

/-- Whether a text may be a name in a path. -/
def isName (s : String) : Bool :=
  s ≠ "" && s.toList.all fun c => c.isAlphanum || c = '_' || c = '-' || c = ' '

/-- Reads the rest of an index after its opening bracket : an integer without a plus, which may have
blanks and tabs around it, and the closing bracket. -/
def index? (s : String) : Option Int :=
  let inner (cs : List Char) := cs.dropWhile fun c => c = ' ' || c = '\t'
  match s.toList.reverse with
  | ']' :: cs =>
    match inner (inner cs).reverse with
    | '+' :: _ => none
    | cs => integerOfChars? cs
  | _ => none

/-- The steps of a part of a path : a name, then indices in brackets. -/
def partSteps? (part : String) : Option (List Step) :=
  match Text.parts '[' part with
  | name :: indices =>
    if isName name then return .entry name :: (← indices.mapM index?).map .item else none
  | [] => none

/-- The steps of a path, whose parts are divided by points. A text that is no path is one name. -/
def path (s : String) : List Step :=
  match (Text.parts '.' s).mapM partSteps? with
  | some parts => parts.flatten
  | none => [.entry s]

/-! ## Values of a JSON text -/

mutual

/-- The value of a JSON text with less than `depth` containers around one another. Whole numbers
that no signed word holds are doubles. -/
def ofJson? (depth : Nat) (j : Json) : Option Setting :=
  match j, depth with
  | .null, _ => some absent
  | .bool b, _ => some (bool b)
  | .number (.natural n), _ =>
    some (if n < 0x8000000000000000 then whole n else real (Float.ofNat n))
  | .number (.negative n), _ => some (whole (-n))
  | .number (.real x), _ => some (real x)
  | .number .huge, _ => none
  | .text s, _ => s.map text
  | .list items, depth + 1 => (ofItems? depth items).map list
  | .record members, depth + 1 => (ofMembers? depth members).map group
  | _, 0 => none

/-- The values of a list. -/
def ofItems? (depth : Nat) (js : List Json) : Option (List Setting) :=
  match js with
  | [] => some []
  | j :: rest => do return (← ofJson? depth j) :: (← ofItems? depth rest)

/-- The entries of a record, of which the last of one name stands. -/
def ofMembers? (depth : Nat) (ms : List (Option String × Json)) :
    Option (List (String × Setting)) :=
  match ms with
  | [] => some []
  | (some name, j) :: rest => do
    let value ← ofJson? depth j
    let rest ← ofMembers? depth rest
    return if rest.any (·.1 = name) then rest else (name, value) :: rest
  | (none, _) :: _ => none

end

/-! ## Values of single texts -/

/-- The value that a text is taken for : a truth value, an integer, a double, or else itself. -/
def ofText (s : String) : Setting :=
  match Text.lowercase s with
  | "true" => bool true
  | "false" => bool false
  | _ =>
    match integerOfChars? s.toList, doubleOfChars? s.toList with
    | some n, _ => whole n
    | none, some x => real x
    | none, none => text s

/-! ## Readers -/

/-- Reads a truth value. -/
def bool? : Setting → Option Bool
  | bool b => some b
  | whole n => some (n ≠ 0)
  | real x => some (x != 0)
  | text s =>
    match Text.lowercase s with
    | "1" | "true" | "on" | "yes" => some true
    | "0" | "false" | "off" | "no" => some false
    | _ => none
  | absent | list _ | group _ => none

/-- Reads a word of 64 bits. A double is rounded to the nearest one, halves away from zero. -/
def word64? : Setting → Option UInt64
  | bool b => some (if b then 1 else 0)
  | whole n => if 0 ≤ n ∧ n < UInt64.size then some (.ofNat n.toNat) else none
  | real x => some x.round.toUInt64
  | text s =>
    match Text.lowercase s with
    | "true" | "on" | "yes" => some 1
    | "false" | "off" | "no" => some 0
    | _ => (naturalOfChars? UInt64.size s.toList).map .ofNat
  | absent | list _ | group _ => none

/-- Reads a text. -/
def text? : Setting → Option String
  | bool b => some (if b then "true" else "false")
  | whole n => some s!"{n}"
  | real x => some (Shortest.text x)
  | text s => some s
  | absent | list _ | group _ => none

/-- Reads a value that may be absent. -/
def optional? {α : Type} (read? : Setting → Option α) : Setting → Option (Option α)
  | absent => some none
  | s => (read? s).map some

/-- Reads a member of a group by its name, or of a list by its place. Where it is missing it is
`default`. -/
def member? {α : Type} (s : Setting) (place : Nat) (name : String) (read? : Setting → Option α)
    (default : α) : Option α :=
  let given (v : Option Setting) : Option α := match v with
    | some v => read? v
    | none => some default
  match s with
  | group es => given (es.lookup name)
  | list items => given items[place]?
  | _ => none

end Setting

end TrafficControl
