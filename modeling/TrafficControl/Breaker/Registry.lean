import TrafficControl.Breaker.Basic

/-!
# Breaker registry

Breakers are made when they are first needed and registered by URI, one for a service and a policy
(`serviceUri`) or for one instance of the service (`instanceUri`). A policy of another version makes
a new breaker under the same URI. As a replaced or dropped breaker may still be held by calls that
are under way, the registry numbers all breakers it ever made, and an entry holds the number of its
breaker.

Listeners hear the changes of state of the breakers made after they were added. The registry logs
every delivery of a change to a listener. A listener may fail at a delivery : then the later
listeners are not told, and the operation that announced the change ends there
(`Attempt.interrupted`, or `false` of `complete`).
-/

namespace TrafficControl

/-- The URI of the breaker of a service and a policy. -/
def serviceUri (service policy : String) : String := s!"breaker://{service}/{policy}"

/-- The URI of the breaker of one instance of a service. -/
def instanceUri (service policy endpoint : String) : String :=
  s!"breaker://{service}/{policy}?instance={endpoint}"

/-- What is wrong with a circuit break policy. -/
inductive BreakError where
  | unnamed
  | invalidRates (policy : String)
deriving DecidableEq

/-- The text of an error. -/
def BreakError.message : BreakError → String
  | unnamed => "circuit breaker policy has no name"
  | invalidRates policy =>
    s!"invalid circuit breaker policy {policy}: rate thresholds must be within (0, 100]"

/-- Whether a rate may be a threshold. -/
def isThreshold (rate : Float32) : Bool := 0 < rate && rate ≤ 100

/-- Refuses policies without name and rates that are no thresholds. -/
def BreakPolicy.check (p : BreakPolicy) : Except BreakError Unit :=
  if p.name = "" then .error .unnamed
  else if isThreshold p.failureRate && isThreshold p.slowRate then .ok ()
  else .error (.invalidRates p.name)

/-- Someone who hears of changes of state. -/
structure StateListener where
  /-- Whether it fails at the change that it hears after so many others. -/
  fails : Nat → Bool := fun _ => false

/-- A change of state told to a listener. -/
structure Delivery where
  /-- The number of the listener. -/
  listener : Nat
  change : StateChange
deriving DecidableEq

/-- A registered breaker and the service it was made for. -/
structure BreakerEntry where
  service : String
  /-- The number of the breaker. -/
  breaker : Nat
deriving DecidableEq

/-- A breaker with the number of the listeners that it has. They are the first ones that were
added. -/
structure WatchedBreaker where
  breaker : Breaker
  listeners : Nat

/-- Breakers by URI. -/
structure BreakerRegistry where
  entries : Table BreakerEntry := {}
  /-- All breakers ever made, by their numbers. -/
  breakers : List WatchedBreaker := []
  /-- The listeners, by their numbers. -/
  listeners : List StateListener := []
  /-- What listeners were told, in order. -/
  deliveries : List Delivery := []

/-- What a request for a permit comes to. -/
inductive Attempt where
  | granted (p : Permit)
  | refused
  /-- A listener failed. -/
  | interrupted
deriving DecidableEq

namespace BreakerRegistry

/-- The number of breakers registered. -/
def size (r : BreakerRegistry) : Nat := r.entries.size

/-- The breaker of a number. -/
def breaker? (r : BreakerRegistry) (n : Nat) : Option Breaker := r.breakers[n]?.map (·.breaker)

/-- The number of the breaker registered under a URI. -/
def number? (r : BreakerRegistry) (uri : String) : Option Nat :=
  (r.entries.find? uri).map (·.breaker)

/-- The breaker registered under a URI. -/
def find? (r : BreakerRegistry) (uri : String) : Option Breaker := (r.number? uri).bind r.breaker?

/-- Whether a call to what a URI stands for would be let through, which it is where no breaker is
registered. -/
def isAvailable (r : BreakerRegistry) (now : Nat) (uri : String) : Bool :=
  (r.find? uri).all (·.isAvailable now)

/-- Add a listener for the breakers to come. -/
def addListener (r : BreakerRegistry) (l : StateListener) : BreakerRegistry :=
  { r with listeners := r.listeners ++ [l] }

/-- Register a new breaker under a URI. -/
def register (r : BreakerRegistry) (uri service : String) (p : BreakPolicy) (now : Nat) :
    BreakerRegistry :=
  { r with
    entries := r.entries.insert uri { service, breaker := r.breakers.length }
    breakers := r.breakers ++ [⟨.create uri p now, r.listeners.length⟩] }

/-- The number of the breaker for a URI, which is made if there is none of this version. An entry
that gets a new breaker remains with the service it was first made for. -/
def getOrCreate (r : BreakerRegistry) (service uri : String) (p : BreakPolicy) (now : Nat) :
    Except BreakError (Nat × BreakerRegistry) := do
  p.check
  match r.entries.find? uri with
  | some entry =>
    if (r.breaker? entry.breaker).any fun b => b.policy.version = p.version then
      return (entry.breaker, r)
    else return (r.breakers.length, r.register uri entry.service p now)
  | none => return (r.breakers.length, r.register uri service p now)

/-- Drop the entries that `keep` does not want, by service and policy, with their number. -/
def recycle (r : BreakerRegistry) (keep : String → BreakPolicy → Bool) : Nat × BreakerRegistry :=
  let entries := r.entries.retain fun _ e =>
    (r.breaker? e.breaker).all fun b => keep e.service b.policy
  (r.entries.size - entries.size, { r with entries })

/-! ## Operations of one breaker -/

/-- Put a breaker in its changed state. -/
def update (r : BreakerRegistry) (n : Nat) (b : Breaker) : BreakerRegistry :=
  { r with breakers := r.breakers.modify n fun w => { w with breaker := b } }

/-- The number of changes that a listener has been told. -/
def heard (r : BreakerRegistry) (listener : Nat) : Nat :=
  r.deliveries.countP (·.listener = listener)

/-- Tell a change to the listeners given, in order, up to the first that fails. The result is
whether none failed. -/
def tell (r : BreakerRegistry) (change : StateChange) : List Nat → Bool × BreakerRegistry
  | [] => (true, r)
  | l :: ls =>
    let failed := r.listeners[l]?.any fun s => s.fails (r.heard l)
    let r := { r with deliveries := r.deliveries ++ [⟨l, change⟩] }
    if failed then (false, r) else r.tell change ls

/-- Tell a change, if there is one, to the listeners of a breaker. -/
def announce (r : BreakerRegistry) (n : Nat) : Option StateChange → Bool × BreakerRegistry
  | none => (true, r)
  | some change => r.tell change (List.range ((r.breakers[n]?.map (·.listeners)).getD 0))

/-- Ask a breaker for a permit. -/
def acquire (r : BreakerRegistry) (n : Nat) (now : Nat) : Attempt × BreakerRegistry :=
  match r.breaker? n with
  | none => (.refused, r)
  | some b =>
    let (change, b) := b.wake now
    match (r.update n b).announce n change with
    | (false, r) => (.interrupted, r)
    | (true, r) =>
      match b.take now with
      | (some p, b) => (.granted p, r.update n b)
      | (none, b) => (.refused, r.update n b)

/-- Give a permit back to a breaker. -/
def releasePermit (r : BreakerRegistry) (n : Nat) (p : Permit) : BreakerRegistry :=
  match r.breaker? n with
  | none => r
  | some b => r.update n (b.releasePermit p)

/-- Give a trial permit back to a breaker, whichever it is. -/
def release (r : BreakerRegistry) (n : Nat) : BreakerRegistry :=
  match r.breaker? n with
  | none => r
  | some b => r.update n b.release

/-- Record the end of a call, which failed if it has a cause. The result is whether no listener
failed. -/
def complete (r : BreakerRegistry) (n : Nat) (micros : Nat) (cause : Option String) (now : Nat) :
    Bool × BreakerRegistry :=
  match r.breaker? n with
  | none => (true, r)
  | some b =>
    let (change, b) := b.complete micros cause now
    (r.update n b).announce n change

end BreakerRegistry

end TrafficControl
