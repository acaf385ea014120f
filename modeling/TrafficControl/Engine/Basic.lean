import TrafficControl.Limit.Registry
import TrafficControl.Policy.Store
import TrafficControl.Routing.Inbound
import TrafficControl.Routing.Outbound
import TrafficControl.Settings.Basic

/-!
# The engine

An `Engine` holds the policy in force, the breakers and limiters, and the turns of round robin. For
every call it makes an invocation (`Engine.invocation`) and decides about it : `Engine.route` finds
an endpoint for a call to be sent, `Engine.inbound` checks a call that was received.
-/

namespace TrafficControl

/-- An error in setting up or feeding an engine. -/
inductive EngineError where
  | policy (e : PolicyError)
  | routing (e : RouteError)
deriving DecidableEq

/-- The text of an error. -/
def EngineError.message : EngineError → String
  | policy e => s!"policy error: {e.message}"
  | routing e => s!"invocation error: {e.message}"

/-- Decides about calls. -/
structure Engine where
  settings : Settings
  context : Context
  store : Store
  /-- The way to choose an endpoint for services that have none. -/
  balancing : Balancing
  breakers : BreakerRegistry := {}
  limiters : LimiterRegistry := {}
  /-- The listeners of the invocations to come. -/
  listeners : List RequestListener := []
  turns : RoundRobin := {}

/-- The context that settings ask for. -/
def Context.ofSettings (s : Settings) : Context where
  application := s.application
  liveEnabled := s.live.enabled
  laneEnabled := s.lane.enabled

namespace Engine

/-- An engine for a context, which starts with a snapshot. -/
def create (settings : Settings) (context : Context) (s : Snapshot) : Except EngineError Engine :=
  match Balancing.ofName settings.balance.default with
  | .ok balancing => .ok { settings, context, store := .start s, balancing }
  | .error e => .error (.routing e)

/-- Add a listener for the invocations to come. -/
def addListener (e : Engine) (l : RequestListener) : Engine :=
  { e with listeners := e.listeners ++ [l] }

/-- Add a listener for the breakers to come. -/
def addStateListener (e : Engine) (l : StateListener) : Engine :=
  { e with breakers := e.breakers.addListener l }

/-- The invocation of a request. -/
def invocation (e : Engine) (r : Request) (endpoints : List Endpoint) : Invocation :=
  .resolve e.context e.store.current r endpoints e.listeners

/-! ## Calls to be sent -/

/-- The filters of a call to be sent. -/
def outboundFilters (e : Engine) (now draw : Nat) : List (Filter RoundRobin) :=
  let guard : List (Filter RoundRobin) :=
    if e.settings.breakers.enabled then [.breaker e.breakers now] else []
  [.healthy, .unit, .lane] ++ guard ++ [.balance e.balancing draw]

/-- Find an endpoint for a call. Where the choice is left to chance, `draw` is drawn. -/
def route (e : Engine) (i : Invocation) (now draw : Nat) :
    Except Fault Choice × Engine × Invocation :=
  let (fault, turns, i) := Filter.run (e.outboundFilters now draw) e.turns i
  let e := { e with turns }
  match fault, i.selection.choice with
  | some fault, _ => (.error fault, e, i)
  | none, some choice => (.ok choice, e, i)
  | none, none =>
    let (fault, i) := i.refuseUnready
    (.error fault, e, i)

/-! ## Calls that were received -/

/-- The filters of a call that was received. -/
def inboundFilters : List (Filter Unit) := [.unitInbound, .cellInbound]

/-- Check a call that was received. -/
def inbound (i : Invocation) : Option Fault × Invocation :=
  let (fault, _, i) := Filter.run inboundFilters () i
  (fault, i)

end Engine

end TrafficControl
