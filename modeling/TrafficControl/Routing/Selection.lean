import TrafficControl.Routing.Endpoint

/-!
# Selections

The endpoints that a call may still go to. Filters narrow them, keeping their order
(`Selection.filter`), until one is chosen.
-/

namespace TrafficControl

/-- The chosen endpoint and its place among those that were left. -/
structure Choice where
  endpoint : Endpoint
  index : Nat
deriving DecidableEq

/-- What is left of the endpoints of a call. -/
structure Selection where
  endpoints : List Endpoint := []
  /-- The unit to which the selection was narrowed. -/
  unit : Option String := none
  /-- The cell to which the selection was narrowed. -/
  cell : Option String := none
  choice : Option Choice := none
deriving DecidableEq

namespace Selection

/-- The selection with other endpoints, none of which is chosen. -/
def withEndpoints (s : Selection) (endpoints : List Endpoint) : Selection :=
  { s with endpoints, choice := none }

/-- The endpoints that satisfy `p`, at most `limit` of them. -/
def matching (s : Selection) (p : Endpoint → Bool) (limit : Option Nat) : List Endpoint :=
  let found := s.endpoints.filter p
  match limit with
  | some n => found.take n
  | none => found

/-- Keep the endpoints that satisfy `p`, at most `limit` of them. If there is none, the endpoints
stay as they are unless `nullable` is set. The result is the number found. -/
def filter (s : Selection) (p : Endpoint → Bool) (nullable : Bool) (limit : Option Nat := none) :
    Nat × Selection :=
  let found := s.matching p limit
  (found.length, if found ≠ [] ∨ nullable then { s with endpoints := found } else s)

/-- Choose the endpoint at a place. A place that does not exist chooses nothing. -/
def choose (s : Selection) (index : Nat) : Selection :=
  match s.endpoints[index]? with
  | some endpoint => { s with choice := some ⟨endpoint, index⟩ }
  | none => s

end Selection

end TrafficControl
