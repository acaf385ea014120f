import TrafficControl.Limit.Limiter
import TrafficControl.Table

/-!
# Limiter registry

Limiters are shared : there is one per service and policy name, registered under the two joined by
a slash (`limiterKey`). A limiter stays as long as its policy keeps its version, so that its credit
outlives changes of other policies; another version makes a new limiter under the same key.

Whoever was given a limiter may go on using it after it has been replaced or dropped. The registry
therefore numbers all limiters it ever made, and an entry holds the number of its limiter.
-/

namespace TrafficControl

/-- The key of the limiter of a service and a policy. -/
def limiterKey (service policy : String) : String := s!"{service}/{policy}"

/-- A registered limiter and the service it was made for. -/
structure LimiterEntry where
  service : String
  /-- The number of the limiter. -/
  limiter : Nat
deriving DecidableEq

/-- Limiters by key. -/
structure LimiterRegistry where
  entries : Table LimiterEntry := {}
  /-- All limiters ever made, by their numbers. -/
  limiters : List Limiter := []
deriving DecidableEq

namespace LimiterRegistry

/-- The number of limiters registered. -/
def size (r : LimiterRegistry) : Nat := r.entries.size

/-- The limiter of a number. -/
def limiter? (r : LimiterRegistry) (n : Nat) : Option Limiter := r.limiters[n]?

/-- The limiter registered under a key, with its entry. -/
def find? (r : LimiterRegistry) (key : String) : Option (LimiterEntry × Limiter) := do
  let entry ← r.entries.find? key
  return (entry, ← r.limiter? entry.limiter)

/-- Register a new limiter under a key. -/
def register (r : LimiterRegistry) (key service : String) (l : Limiter) : LimiterRegistry :=
  { entries := r.entries.insert key { service, limiter := r.limiters.length },
    limiters := r.limiters ++ [l] }

/-- The number of the limiter for a service and a policy, which is made if there is none of this
version. An entry that gets a new limiter remains with the service it was first made for. -/
def getOrCreate (r : LimiterRegistry) (service : String) (p : RatePolicy) (now : Nat) :
    Except RateError (Nat × LimiterRegistry) :=
  let key := limiterKey service p.name
  match r.find? key with
  | some (entry, l) =>
    if l.policy.version = p.version then .ok (entry.limiter, r)
    else (Limiter.create p now).map fun l => (r.limiters.length, r.register key entry.service l)
  | none => (Limiter.create p now).map fun l => (r.limiters.length, r.register key service l)

/-- Put a limiter in its changed state. -/
def update (r : LimiterRegistry) (n : Nat) (l : Limiter) : LimiterRegistry :=
  { r with limiters := r.limiters.set n l }

/-- Drop the entries that `keep` does not want, by service and policy, with their number. -/
def recycle (r : LimiterRegistry) (keep : String → RatePolicy → Bool) : Nat × LimiterRegistry :=
  let entries := r.entries.retain fun _ e =>
    (r.limiter? e.limiter).all fun l => keep e.service l.policy
  (r.entries.size - entries.size, { r with entries })

end LimiterRegistry

end TrafficControl
