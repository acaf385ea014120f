import TrafficControl.Json.Basic
import TrafficControl.Number.Single
import TrafficControl.Table

/-!
# Codecs

A `Codec α` writes values of `α` as JSON and reads them back. The codecs of this module follow the
rules of policy documents :

* a whole number is a numeral without fraction and exponent, in the range of its type;
* a floating-point number is any numeral in the range of a double, and an infinite one is written
  as `null`;
* an absent optional value is `null`;
* a name out of a fixed set is a text, or a record with this name alone and the value `null`;
* of a repeated name of a table the last value stands.

A record is described by its `Members`, in order, each with a name, a codec and perhaps a value
that stands for a missing member. It may be written as a record or as a list of the members'
values. In a record, names that are no members are passed over and a member that is given twice is
an error; in a list, missing values at the end are missing members and a surplus value is an error.
-/

namespace TrafficControl

/-- A way to write values as JSON and to read them back. -/
structure Codec (α : Type) where
  encode : α → Json
  decode : Json → Option α

namespace Codec

variable {α β : Type}

/-- A codec for a type that holds the same values under another form. -/
def imap (c : Codec α) (f : α → β) (g : β → α) : Codec β where
  encode b := c.encode (g b)
  decode j := (c.decode j).map f

/-! ## Simple values -/

/-- Truth values. -/
def bool : Codec Bool where
  encode := .bool
  decode
    | .bool b => some b
    | _ => none

/-- Texts. -/
def string : Codec String where
  encode := .string
  decode
    | .text s => s
    | _ => none

/-- Natural numbers below `bound`. -/
def natural (bound : Nat) : Codec Nat where
  encode n := .number (.natural n)
  decode
    | .number (.natural n) => if n < bound then some n else none
    | _ => none

/-- Words of 16 bits. -/
def word16 : Codec UInt16 := (natural UInt16.size).imap UInt16.ofNat UInt16.toNat

/-- Words of 32 bits. -/
def word32 : Codec UInt32 := (natural UInt32.size).imap UInt32.ofNat UInt32.toNat

/-- Words of 64 bits. -/
def word64 : Codec UInt64 := (natural UInt64.size).imap UInt64.ofNat UInt64.toNat

/-- Doubles. -/
def double : Codec Float where
  encode x := if x.isFinite then .number (.real x) else .null
  decode
    | .number n => n.toFloat?
    | _ => none

/-- Singles. A whole number is rounded once, any other numeral is read as a double first. -/
def single : Codec Float32 where
  encode x := if x.isFinite then .number (.real (widen x)) else .null
  decode
    | .number (.natural n) => some (.ofNat n)
    | .number (.negative n) => some (-.ofNat n)
    | .number (.real x) => some (narrow x)
    | _ => none

/-- A value out of a fixed set, each with a name. -/
def enumeration [DecidableEq α] (names : List (α × String)) : Codec α where
  encode a := .string ((names.lookup a).getD "")
  decode j :=
    let named (s : String) := (names.find? fun n => n.2 = s).map Prod.fst
    match j with
    | .text (some s) => named s
    | .record [(some s, .null)] => named s
    | _ => none

/-! ## Values made of values -/

/-- Values that may be absent. -/
def option (c : Codec α) : Codec (Option α) where
  encode
    | none => .null
    | some a => c.encode a
  decode
    | .null => some none
    | j => (c.decode j).map some

/-- Lists. -/
def list (c : Codec α) : Codec (List α) where
  encode as := .list (as.map c.encode)
  decode
    | .list items => items.mapM c.decode
    | _ => none

/-- A binding of a table. -/
def decodeBinding (c : Codec α) : Option String × Json → Option (String × α)
  | (some name, j) => (c.decode j).map (name, ·)
  | (none, _) => none

/-- Tables. -/
def table (c : Codec α) : Codec (Table α) where
  encode t := .object (t.bindings.map fun b => (b.1, c.encode b.2))
  decode
    | .record members => (members.mapM c.decodeBinding).map Table.ofList
    | _ => none

/-! ## Records -/

/-- A member of a record. -/
structure Field (α : Type) where
  name : String
  codec : Codec α
  /-- What stands for the member where it is missing. -/
  default : Option α

namespace Field

/-- A member that must be given. -/
def required (name : String) (c : Codec α) : Field α := ⟨name, c, none⟩

/-- A member that is `default` where it is missing. -/
def defaulted (name : String) (c : Codec α) (default : α) : Field α := ⟨name, c, some default⟩

/-- A member that may be absent. -/
def optional (name : String) (c : Codec α) : Field (Option α) := ⟨name, c.option, some none⟩

/-- Reads the value given for the member, if any. -/
def decode (f : Field α) : Option Json → Option α
  | some j => f.codec.decode j
  | none => f.default

end Field

/-- The members of a record, in order, whose values together are an `α`. -/
structure Members (α : Type) where
  names : List String
  encode : α → List Json
  /-- Reads what is given for each member. -/
  decode : List (Option Json) → Option α

namespace Members

/-- A single member. -/
def one (f : Field α) : Members α where
  names := [f.name]
  encode a := [f.codec.encode a]
  decode
    | [slot] => f.decode slot
    | _ => none

/-- A member before others. -/
def cons (f : Field α) (m : Members β) : Members (α × β) where
  names := f.name :: m.names
  encode p := f.codec.encode p.1 :: m.encode p.2
  decode
    | slot :: slots => do return (← f.decode slot, ← m.decode slots)
    | [] => none

end Members

/-- What the members of a record give for `name`, if they give it at most once. -/
def given? (members : List (Option String × Json)) (name : String) : Option (Option Json) :=
  match members.filter fun m => m.1 = some name with
  | [] => some none
  | [m] => some (some m.2)
  | _ => none

/-- What is given for each of the members named. -/
def slots? (names : List String) : Json → Option (List (Option Json))
  | .record members =>
    if members.all fun m => m.1.isSome then names.mapM (given? members) else none
  | .list items =>
    if items.length ≤ names.length then
      some (items.map some ++ List.replicate (names.length - items.length) none)
    else none
  | _ => none

/-- Records with the members given. -/
def record (m : Members α) : Codec α where
  encode a := .object (m.names.zip (m.encode a))
  decode j := (slots? m.names j).bind m.decode

end Codec

end TrafficControl
