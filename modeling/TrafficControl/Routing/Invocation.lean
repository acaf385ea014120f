import TrafficControl.Routing.Balance
import TrafficControl.Routing.Facts
import TrafficControl.Routing.Selection

/-!
# Invocations

An `Invocation` is one call on its way : the request, what is known about it, and the endpoints
that are left for it. `Invocation.resolve` settles what is known once, against one snapshot. After
that the request may be stopped by a fault (`reject`, `failover`, `degrade`), its selection of
endpoints is narrowed, and in the end its listeners are told how it went (`finish`).
-/

namespace TrafficControl

/-! ## Context -/

/-- Decides a condition for a request. -/
def Matcher := Condition → Request → Bool

/-- Decides a condition by the one value that a request has for it, if it has one. -/
def Matcher.ofValue (value? : Condition → Request → Option String) : Matcher :=
  fun c r => c.test (value? c r).toList

/-- What all invocations of one process have in common. -/
structure Context where
  application : Application := {}
  /-- Whether calls are routed to units. -/
  liveEnabled : Bool := true
  /-- Whether calls are routed to lanes. -/
  laneEnabled : Bool := true
  /-- Matchers by the kind of condition they decide, in lower case. -/
  matchers : Table Matcher := .ofList [
    ("header", .ofValue fun c r => r.header? c.key), ("query", .ofValue fun c r => r.query? c.key)]

namespace Context

/-- The matcher for a kind of condition, whatever its case. -/
def matcher? (c : Context) (kind : String) : Option Matcher :=
  c.matchers.find? (Text.lowercase kind)

/-- Add a matcher for a kind of condition that has none. -/
def addMatcher (c : Context) (kind : String) (m : Matcher) : Except RouteError Context :=
  let kind := Text.lowercase kind
  if c.matchers.contains kind then .error (.duplicateMatcher kind)
  else .ok { c with matchers := c.matchers.insert kind m }

end Context

/-! ## Listeners -/

/-- How a call ended, and after how many microseconds. -/
inductive Ending where
  | success (micros : Nat)
  | failure (micros : Nat) (cause : String)
deriving DecidableEq

/-- Someone who hears how a call ended. -/
structure RequestListener where
  /-- Whether it fails when it hears of an ending. -/
  fails : Ending → Bool := fun _ => false

/-- An ending told to a listener. -/
structure Notice where
  /-- The number of the listener. -/
  listener : Nat
  ending : Ending
  /-- Whether the listener failed at it. -/
  failed : Bool
deriving DecidableEq

/-! ## Invocations -/

/-- A call on its way. -/
structure Invocation where
  context : Context
  snapshot : Snapshot
  request : Request
  service : ServiceFacts
  live : LiveFacts
  lane : LaneFacts
  selection : Selection
  listeners : List RequestListener
  /-- The latest fault. -/
  fault : Option Fault := none
  /-- Whether the listeners have been told how the call ended. -/
  isFinished : Bool := false

namespace Invocation

/-- The invocation of a request. The unit rule decides which live policy of the service applies, and
where the request names no rule the service does. -/
def resolve (context : Context) (snapshot : Snapshot) (request : Request)
    (endpoints : List Endpoint) (listeners : List RequestListener) : Invocation :=
  let live := LiveFacts.resolve request snapshot context.application
  let service := (ServiceFacts.resolve request snapshot).withRule live.rule?
  { context, snapshot, request, service, listeners
    live := live.settle service.bundle?
    lane := .resolve request snapshot context.application
    selection := { endpoints } }

/-- Whether a place of the mode given may serve the request. Where there is no place, none may. -/
def isAccessible (i : Invocation) (mode : Option AccessMode) : Bool :=
  mode.any (·.serves i.service.isWrite)

/-- Whether the request satisfies a condition. Without a condition it does, and without a matcher
for the kind of the condition it does not. -/
def satisfies (i : Invocation) : Option Condition → Bool
  | none => true
  | some c => (i.context.matcher? c.kind).any fun m => m c i.request

/-! ## Reasons -/

/-- A reason with the circumstances of the call, as seen from a unit and a cell. -/
def reasonAt (i : Invocation) (text : String) (unit cell : Option String) : String :=
  let text := Text.trimEnd '.' text
  let orNull (s : Option String) : String := s.getD "null"
  let space := orNull (i.live.space.map (·.id))
  let rule := orNull i.live.ruleId
  let place := s!"unit={orNull unit}, cell={orNull cell}"
  let call := s!"service={i.service.name}, group={orNull i.service.group}"
  let details := s!"path={orNull i.service.path}, variable={orNull i.live.routingVariable?}"
  s!"{text}. liveSpaceId={space}, ruleId={rule}, {place}, application={i.context.application.name}"
    ++ s!", {call}, {details}"

/-- A reason with the circumstances of the call, as seen from a unit. -/
def reasonAtUnit (i : Invocation) (text : String) (unit : Option String) : String :=
  i.reasonAt text unit none

/-- A reason with the circumstances of the call, as seen from the place of the application. -/
def reason (i : Invocation) (text : String) : String :=
  i.reasonAt text i.context.application.location.unit i.context.application.location.cell

/-! ## Faults -/

/-- Stop the request, with the response of a degraded call. -/
def stop (i : Invocation) (f : Fault) (degrade : Option Degrade) : Invocation :=
  { i with request := { i.request with signal := some ⟨f, degrade⟩ }, fault := some f }

/-- Refuse the request. -/
def reject (i : Invocation) (type : FaultType) (reason : String) : Fault × Invocation :=
  let f := ⟨.reject, type, reason⟩
  (f, i.stop f none)

/-- Send the request elsewhere. -/
def failover (i : Invocation) (type : FaultType) (reason : String) : Fault × Invocation :=
  let f := ⟨.failover, type, reason⟩
  (f, i.stop f none)

/-- Answer the request with a prepared response. -/
def degrade (i : Invocation) (type : FaultType) (reason : String) (response : Degrade) :
    Fault × Invocation :=
  let f := ⟨.degrade, type, reason⟩
  (f, i.stop f (some response))

/-! ## The end of a call -/

/-- Tell all listeners how the call ended, unless they have been told before. A listener that fails
does not keep the others from being told. -/
def finish (i : Invocation) (e : Ending) : List Notice × Invocation :=
  if i.isFinished then ([], i)
  else (i.listeners.zipIdx.map fun (l, n) => ⟨n, e, l.fails e⟩, { i with isFinished := true })

/-! ## Headers -/

/-- What the next hop is told about the call, by header. -/
def headers (i : Invocation) : List (String × String) :=
  let place := i.context.application.location
  let known : List (String × Option String) := [
    (Header.liveSpace, i.live.space.map (·.id)), (Header.unitRule, i.live.ruleId),
    (Header.routingVariable, i.live.routingVariable?), (Header.unit, place.unit),
    (Header.cell, place.cell), (Header.laneSpace, i.lane.space.map (·.id)),
    (Header.lane, i.lane.currentLaneId)]
  known.filterMap fun (name, value) => value.map (name, ·)

/-- Write what the next hop is told about the call into the headers of a request to it. -/
def inject (i : Invocation) (carrier : Table String) : Table String :=
  i.headers.foldl (fun t (name, value) => t.insert name value) carrier

end Invocation

end TrafficControl
