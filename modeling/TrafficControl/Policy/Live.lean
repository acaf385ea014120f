import TrafficControl.Number.Numeral
import TrafficControl.Policy.Access

/-!
# Live spaces

A live space spreads an application over units, and each unit over cells. A request belongs to the
unit that owns its routing variable under a `UnitRule`. A rule names variables outright or divides
the slots `0 … modulo - 1` among its routes; the slot of a variable is its value, where it is a
number, or else its hash, modulo the number of slots (`UnitRule.slot`). `UnitRule.route?` finds the
route of a variable.
-/

namespace TrafficControl

/-! ## Units and cells -/

/-- A cell of a unit. -/
structure Cell where
  code : String
  name : Option String := none
  accessMode : AccessMode := .readWrite
deriving DecidableEq, Inhabited

/-- The cell as a document writes it. -/
def Cell.codec : Codec Cell :=
  (Codec.record (.cons (.required "code" .string) (.cons (.optional "name" .string)
    (.one (.defaulted "accessMode" AccessMode.codec .readWrite))))).imap
    (fun (code, name, accessMode) => { code, name, accessMode })
    (fun c => (c.code, c.name, c.accessMode))

/-- A unit of a live space. -/
structure LiveUnit where
  code : String
  name : Option String := none
  accessMode : AccessMode := .readWrite
  cells : List Cell := []
deriving DecidableEq, Inhabited

namespace LiveUnit

/-- The unit as a document writes it. -/
def codec : Codec LiveUnit :=
  (Codec.record (.cons (.required "code" .string) (.cons (.optional "name" .string)
    (.cons (.defaulted "accessMode" AccessMode.codec .readWrite)
    (.one (.defaulted "cells" (.list Cell.codec) [])))))).imap
    (fun (code, name, accessMode, cells) => { code, name, accessMode, cells })
    (fun u => (u.code, u.name, u.accessMode, u.cells))

/-- The first cell of the code given. -/
def cell? (u : LiveUnit) (code : String) : Option Cell := u.cells.find? (·.code = code)

end LiveUnit

/-! ## Rules -/

/-- What happens to a request without a routing variable. -/
inductive MissingVariable where
  /-- It goes to the center unit. -/
  | center
  /-- It is refused. -/
  | reject
deriving DecidableEq, Inhabited

/-- The action as a document writes it. -/
def MissingVariable.codec : Codec MissingVariable :=
  .enumeration [(center, "CENTER"), (reject, "REJECT")]

/-- Slots from one to another, both included. -/
structure SlotRange where
  first : UInt64
  last : UInt64
deriving DecidableEq, Inhabited

namespace SlotRange

/-- The range as a document writes it. -/
def codec : Codec SlotRange :=
  (Codec.record (.cons (.required "from" .word64) (.one (.required "to" .word64)))).imap
    (fun (first, last) => { first, last }) (fun r => (r.first, r.last))

/-- Whether the range holds a slot. -/
def contains (r : SlotRange) (slot : Nat) : Bool := r.first.toNat ≤ slot && slot ≤ r.last.toNat

end SlotRange

/-- The variables that belong to a unit : some by name, others by their slots. -/
structure UnitRoute where
  unit : String
  allows : List String := []
  ranges : List SlotRange := []
deriving DecidableEq, Inhabited

namespace UnitRoute

/-- The route as a document writes it. -/
def codec : Codec UnitRoute :=
  (Codec.record (.cons (.required "unit" .string)
    (.cons (.defaulted "allows" (.list .string) [])
    (.one (.defaulted "ranges" (.list SlotRange.codec) []))))).imap
    (fun (unit, allows, ranges) => { unit, allows, ranges })
    (fun r => (r.unit, r.allows, r.ranges))

/-- Whether the route names a variable. -/
def names (r : UnitRoute) (variable_ : String) : Bool := r.allows.contains variable_

/-- Whether the route has a slot. -/
def holds (r : UnitRoute) (slot : Nat) : Bool := r.ranges.any (·.contains slot)

end UnitRoute

/-- The hash of a text : FNV-1a of 64 bits over its UTF-8 bytes. -/
def hash64 (s : String) : UInt64 :=
  s.toUTF8.toList.foldl (fun h b => (h ^^^ b.toUInt64) * 0x100000001b3) 0xcbf29ce484222325

/-- A mapping of routing variables to units. -/
structure UnitRule where
  id : String
  name : Option String := none
  /-- The number of slots. Without slots only named variables are routed. -/
  modulo : UInt64 := 0
  missingVariable : MissingVariable := .center
  routes : List UnitRoute := []
deriving DecidableEq, Inhabited

namespace UnitRule

/-- The rule as a document writes it. -/
def codec : Codec UnitRule :=
  (Codec.record (.cons (.required "id" .string) (.cons (.optional "name" .string)
    (.cons (.defaulted "modulo" .word64 0)
    (.cons (.defaulted "variableMissingAction" MissingVariable.codec .center)
    (.one (.defaulted "routes" (.list UnitRoute.codec) []))))))).imap
    (fun (id, name, modulo, missingVariable, routes) =>
      { id, name, modulo, missingVariable, routes })
    (fun r => (r.id, r.name, r.modulo, r.missingVariable, r.routes))

/-- The number that decides the slot of a variable : its value, where it is a natural number of 64
bits, or else its hash. -/
def seed (text : String) : Nat :=
  (naturalOfChars? UInt64.size text.toList).getD (hash64 text).toNat

/-- The slot of a variable. -/
def slot (r : UnitRule) (text : String) : Nat := seed text % r.modulo.toNat

/-- The route that owns a variable : the first that names it, or else, where the rule has slots, the
first that has its slot. -/
def route? (r : UnitRule) (text : String) : Option UnitRoute :=
  match r.routes.find? (·.names text) with
  | some route => some route
  | none => if r.modulo = 0 then none else r.routes.find? (·.holds (r.slot text))

end UnitRule

/-! ## Hosts and spaces -/

/-- A host of one unit. -/
structure UnitHost where
  host : String
  unit : String
deriving DecidableEq, Inhabited

/-- The host as a document writes it. -/
def UnitHost.codec : Codec UnitHost :=
  (Codec.record (.cons (.required "host" .string) (.one (.required "unit" .string)))).imap
    (fun (host, unit) => { host, unit }) (fun h => (h.host, h.unit))

/-- A host of a live space, with the hosts of its units. -/
structure LiveHost where
  host : String
  unitHosts : List UnitHost := []
deriving DecidableEq, Inhabited

/-- The host as a document writes it. -/
def LiveHost.codec : Codec LiveHost :=
  (Codec.record (.cons (.required "host" .string)
    (.one (.defaulted "unitDomains" (.list UnitHost.codec) [])))).imap
    (fun (host, unitHosts) => { host, unitHosts }) (fun h => (h.host, h.unitHosts))

/-- The contents of a live space. -/
structure LiveSpec where
  units : List LiveUnit := []
  rules : List UnitRule := []
  hosts : List LiveHost := []
  center : Option String := none
deriving DecidableEq, Inhabited

/-- The contents as a document writes them. -/
def LiveSpec.codec : Codec LiveSpec :=
  (Codec.record (.cons (.defaulted "units" (.list LiveUnit.codec) [])
    (.cons (.defaulted "unitRules" (.list UnitRule.codec) [])
    (.cons (.defaulted "domains" (.list LiveHost.codec) [])
    (.one (.optional "centerUnit" .string)))))).imap
    (fun (units, rules, hosts, center) => { units, rules, hosts, center })
    (fun s => (s.units, s.rules, s.hosts, s.center))

/-- An application spread over units. -/
structure LiveSpace where
  id : String
  name : Option String := none
  spec : LiveSpec := {}
deriving DecidableEq, Inhabited

namespace LiveSpace

/-- The space as a document writes it. -/
def codec : Codec LiveSpace :=
  (Codec.record (.cons (.required "id" .string) (.cons (.optional "name" .string)
    (.one (.defaulted "spec" LiveSpec.codec {}))))).imap
    (fun (id, name, spec) => { id, name, spec }) (fun s => (s.id, s.name, s.spec))

/-- The first unit of the code given. -/
def unit? (s : LiveSpace) (code : String) : Option LiveUnit := s.spec.units.find? (·.code = code)

/-- The first rule of the id given. -/
def rule? (s : LiveSpace) (id : String) : Option UnitRule := s.spec.rules.find? (·.id = id)

/-- The center unit, if one is named and exists. -/
def center? (s : LiveSpace) : Option LiveUnit := s.spec.center.bind s.unit?

/-- The unit that owns a variable under the rule of the id given. -/
def unitFor? (s : LiveSpace) (rule text : String) : Option LiveUnit := do
  s.unit? (← (← s.rule? rule).route? text).unit

end LiveSpace

end TrafficControl
