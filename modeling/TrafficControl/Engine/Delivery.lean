import TrafficControl.Engine.Basic

/-!
# Deliveries of policy

A change of services may leave breakers and limiters behind whose policy is gone. `Engine.recycle`
drops them; `Engine.apply` does so after every change that brings other services. A store can also
be changed directly : then a `Recycler`, which watches the store, drops them when it gets to act.
-/

namespace TrafficControl

/-- Whether a snapshot has a circuit break policy of this name, anywhere in the service. -/
def Snapshot.keepsBreak (s : Snapshot) (service : String) (p : BreakPolicy) : Bool :=
  (s.service? service).any fun v => v.bundles.any fun b => b.breaks.any (·.name = p.name)

/-- Whether a snapshot has a rate limit policy of this name, anywhere in the service. -/
def Snapshot.keepsRate (s : Snapshot) (service : String) (p : RatePolicy) : Bool :=
  (s.service? service).any fun v => v.bundles.any fun b => b.rates.any (·.name = p.name)

/-- Whether a change may bring other services. -/
def StoreChange.bringsServices : StoreChange → Bool
  | merge .. | publish .. => true
  | liveSpaces .. | laneSpaces .. | databases .. => false

namespace Engine

/-- Drop the breakers and limiters whose policy is gone from a snapshot, with their number. -/
def recycle (e : Engine) (s : Snapshot) : Nat × Engine :=
  let (goneBreakers, breakers) := e.breakers.recycle s.keepsBreak
  let (goneLimiters, limiters) := e.limiters.recycle s.keepsRate
  (goneBreakers + goneLimiters, { e with breakers, limiters })

/-- Make a change of policy, or refuse it. -/
def apply (e : Engine) (c : StoreChange) : Except EngineError Engine :=
  match e.store.apply c with
  | .error error => .error (.policy error)
  | .ok store =>
    let e := { e with store }
    .ok (if c.bringsServices then (e.recycle store.current).2 else e)

end Engine

/-- Watches the store of an engine. -/
structure Recycler where
  /-- The version that was in force when the recycler last looked. -/
  seen : Nat
deriving DecidableEq

namespace Recycler

/-- A recycler that knows the version in force. -/
def start (e : Engine) : Recycler := ⟨e.store.watched⟩

/-- Drop what is left behind, if another version is in force. -/
def act (r : Recycler) (e : Engine) : Recycler × Engine :=
  if e.store.watched = r.seen then (r, e) else (⟨e.store.watched⟩, (e.recycle e.store.current).2)

end Recycler

end TrafficControl
