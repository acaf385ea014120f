import TrafficControl.Breaker.Registry
import TrafficControl.Routing.LanePlan
import TrafficControl.Routing.UnitDecision

/-!
# Outbound filters

The filters of a call that is about to be sent, apart from those for units and lanes : healthy
endpoints are preferred, endpoints behind an open breaker are left out, and at last one endpoint is
chosen. The state that the filters share are the turns of round robin.
-/

namespace TrafficControl

/-! ## Health -/

/-- Prefers healthy endpoints. -/
def Filter.healthy {σ : Type} : Filter σ := .ofUpdate "healthy" fun i =>
  { i with selection := (i.selection.filter (·.healthy) false).2 }

/-! ## Circuit breakers -/

namespace Invocation

/-- The circuit break policies of the call at a level. -/
def breaksAt (i : Invocation) (level : BreakLevel) : List BreakPolicy :=
  match i.service.bundle? with
  | some b => b.breaksAt level
  | none => []

/-- Stop a call because of a breaker, with a prepared response if there is one. -/
def breakOff (i : Invocation) (response : Option Degrade) : Fault × Invocation :=
  let reason := i.reason Reason.breakerOpen
  match response with
  | some response => i.degrade .circuitBreak reason response
  | none => i.reject .circuitBreak reason

end Invocation

namespace BreakerRegistry

/-- Whether all breakers of an endpoint would let a call through. -/
def lets (r : BreakerRegistry) (now : Nat) (service : String) (policies : List BreakPolicy)
    (e : Endpoint) : Bool :=
  policies.all fun p => r.isAvailable now (instanceUri service p.name e.id)

end BreakerRegistry

/-- Leaves out endpoints whose breakers would refuse the call. If none is left the call ends. -/
def Filter.breaker {σ : Type} (breakers : BreakerRegistry) (now : Nat) : Filter σ :=
  .ofInvocation "circuit-breaker" fun i =>
    let policies := i.breaksAt .endpoint
    if policies = [] ∨ i.selection.endpoints = [] then (.proceed, i)
    else
      let (found, selection) := i.selection.filter (breakers.lets now i.service.name policies) true
      let i := { i with selection }
      if 0 < found then (.proceed, i)
      else Verdict.ofFault (i.breakOff (policies.findSome? (·.degrade)))

/-! ## Choice -/

namespace Invocation

/-- Refuse a call for which there is no endpoint. -/
def refuseUnready (i : Invocation) : Fault × Invocation :=
  i.reject .unready (i.reason Reason.noInstance)

/-- The way to choose an endpoint for the call. -/
def balancing (i : Invocation) (default : Balancing) : Balancing :=
  match i.service.bundle?.bind (·.balance) with
  | some p => p.balancing
  | none => default

end Invocation

/-- Chooses one of the endpoints that are left, where the service has no other way in the way
`default`. The random ways draw `draw`. -/
def Filter.balance (default : Balancing) (draw : Nat) : Filter RoundRobin where
  name := "load-balance"
  apply turns i :=
    if i.selection.endpoints = [] then
      let (v, i) := Verdict.ofFault i.refuseUnready
      (v, turns, i)
    else
      let weights := i.selection.endpoints.map (·.weight.toNat)
      let (index, turns) := (i.balancing default).choose turns i.service.name weights draw
      let selection := match index with
        | some index => i.selection.choose index
        | none => i.selection
      (.proceed, turns, { i with selection })

end TrafficControl
