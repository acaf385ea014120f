import TrafficControl.Policy.Bundle
import TrafficControl.Text.Case

/-!
# Load balancing

Choosing one of several endpoints by their weights. Round robin counts the choices made for each key
and takes turns. The random ways take a number `draw` and look at it modulo the size of their range,
so that every point of the range is drawn by some number; the weighted one walks along the weights
until it has used up the point (`walk`).
-/

namespace TrafficControl

/-- An error in setting up routing. -/
inductive RouteError where
  | duplicateMatcher (kind : String)
  | unknownBalancing (name : String)
deriving DecidableEq

/-- The text of an error. -/
def RouteError.message : RouteError → String
  | duplicateMatcher kind => s!"tag matcher already registered: {kind}"
  | unknownBalancing name => s!"unknown load balancer: {name}"

/-- The number of choices made for each key, as a word that starts again at zero. -/
structure RoundRobin where
  counters : Table UInt64 := {}
deriving DecidableEq

namespace RoundRobin

/-- The number of choices made for a key. -/
def count (r : RoundRobin) (key : String) : UInt64 := (r.counters.find? key).getD 0

/-- Choose among `size` endpoints for a key. Nothing is counted where there is nothing to choose. -/
def choose (r : RoundRobin) (key : String) (size : Nat) : Option Nat × RoundRobin :=
  if size = 0 then (none, r)
  else (some ((r.count key).toNat % size), ⟨r.counters.insert key (r.count key + 1)⟩)

end RoundRobin

namespace Balancing

/-- Reads the name of a way to choose, without regard to case, hyphens for underscores. -/
def ofName (name : String) : Except RouteError Balancing :=
  let chars := name.toList.map fun c => if c = '-' then '_' else c.toLower
  match String.ofList chars with
  | "round_robin" | "roundrobin" => .ok roundRobin
  | "random" => .ok random
  | "weighted_random" | "weightedrandom" => .ok weightedRandom
  | _ => .error (.unknownBalancing name)

/-- The place at which the walk along the weights has used up `point`. -/
def walk : List Nat → Nat → Option Nat
  | [], _ => none
  | w :: ws, point => if point < w then some 0 else (walk ws (point - w)).map (· + 1)

/-- Choose one of `size` endpoints evenly. -/
def chooseEvenly (size draw : Nat) : Option Nat := if size = 0 then none else some (draw % size)

/-- The sum of the weights. -/
def total (weights : List Nat) : Nat := weights.foldr (· + ·) 0

/-- Choose an endpoint in proportion to the weights, or evenly where all are zero. -/
def chooseWeighted (weights : List Nat) (draw : Nat) : Option Nat :=
  if total weights = 0 then chooseEvenly weights.length draw
  else walk weights (draw % total weights)

/-- Choose one of the endpoints of the weights given. -/
def choose (b : Balancing) (r : RoundRobin) (key : String) (weights : List Nat) (draw : Nat) :
    Option Nat × RoundRobin :=
  match b with
  | roundRobin => r.choose key weights.length
  | random => (chooseEvenly weights.length draw, r)
  | weightedRandom => (chooseWeighted weights draw, r)

/-- The places that some draw of a random way chooses, in order : all, or those of positive weight
where there are some. -/
def possible (b : Balancing) (weights : List Nat) : List Nat :=
  let places := List.range weights.length
  if b = weightedRandom ∧ total weights ≠ 0 then places.filter fun i => 0 < weights[i]?.getD 0
  else places

end Balancing

end TrafficControl
