import TrafficControl.Engine.Admission
import TrafficControl.Engine.Delivery

/-!
# Sessions

A `Session` is an engine in use : it knows the time and the calls that are under way, and it keeps a
`Report` of every outcome that a breaker was told. `Session.step` goes on by one event : a request
for admission, the end of a call, a change of policy, a new listener of breakers, or nothing but
time. A call that was not admitted leaves nothing behind, and one that has ended is not under way
any more.
-/

namespace TrafficControl

namespace Ending

/-- After how many microseconds the call ended. -/
def micros : Ending → Nat
  | success micros | failure micros _ => micros

/-- Why the call failed, if it did. -/
def cause? : Ending → Option String
  | success _ => none
  | failure _ cause => some cause

end Ending

/-! ## Reports -/

/-- What a breaker was told of the end of a call. -/
structure Report where
  /-- The number of the call. -/
  call : Nat
  /-- The number of the breaker. -/
  breaker : Nat
  /-- The permit of the breaker that the call held. -/
  permit : Permit
  micros : Nat
  cause : Option String
  /-- The instant of the end. -/
  now : Nat
  /-- The breaker before it was told. -/
  before : Breaker

namespace Report

/-- The breaker after it was told. -/
def after (r : Report) : Breaker := (r.before.complete r.micros r.cause r.now).2

/-- The outcome of the call, unless the policy ignores its cause. -/
def outcome? (r : Report) : Option Outcome := Breaker.outcome? r.before.policy r.micros r.cause

end Report

/-- The reports to breakers of the end of a call that holds the permits given, up to the first at
which a listener fails. -/
def BreakerRegistry.reports (r : BreakerRegistry) (call : Nat) (ending : Ending) (now : Nat) :
    List (Nat × Permit) → List Report
  | [] => []
  | (n, permit) :: rest =>
    let report := (r.breaker? n).map fun b =>
      Report.mk call n permit ending.micros ending.cause? now b
    match r.complete n ending.micros ending.cause? now with
    | (true, r) => report.toList ++ r.reports call ending now rest
    | (false, _) => report.toList

/-! ## Sessions -/

/-- An admitted call that is under way. -/
structure LiveCall where
  number : Nat
  admission : Admission
  invocation : Invocation

/-- Something that happens to an engine. -/
inductive Event where
  /-- A call asks for admission. -/
  | ask (i : Invocation) (pacing : Pacing)
  /-- The call of a number ends with an outcome. -/
  | complete (number : Nat) (ending : Ending)
  /-- The call of a number ends without one. -/
  | drop (number : Nat)
  | change (c : StoreChange)
  /-- What policy has left behind is dropped. -/
  | recycle (s : Snapshot)
  /-- A listener is added for the breakers to come. -/
  | listen (l : StateListener)
  | advance (micros : Nat)

/-- An engine in use. -/
structure Session where
  engine : Engine
  now : Nat
  /-- How many calls were admitted so far. They are numbered in order. -/
  admitted : Nat := 0
  /-- The calls that are under way. -/
  live : List LiveCall := []
  /-- What breakers were told of the ends of calls, in order. -/
  reports : List Report := []

namespace Session

/-- The session of a new engine. -/
def start (settings : Settings) (context : Context) (snapshot : Snapshot) (balancing : Balancing)
    (now : Nat) : Session where
  engine := { settings, context, store := .start snapshot, balancing }
  now

/-- The call of a number, if it is under way. -/
def call? (s : Session) (number : Nat) : Option LiveCall := s.live.find? (·.number = number)

/-- The calls under way without the one of the number given. -/
def without (s : Session) (number : Nat) : List LiveCall := s.live.eraseP (·.number = number)

/-- The permits that the calls under way hold, each with the number of its breaker. -/
def held (s : Session) : List (Nat × Permit) := s.live.flatMap (·.admission.held)

/-- The breaker of a number. -/
def breaker? (s : Session) (n : Nat) : Option Breaker := s.engine.breakers.breaker? n

/-- The session after an event. -/
def step (s : Session) : Event → Session
  | .ask i pacing =>
    match s.engine.admission i pacing s.now with
    | (.admitted a, now, engine, i) =>
      { s with engine, now, admitted := s.admitted + 1, live := s.live ++ [⟨s.admitted, a, i⟩] }
    | (_, now, engine, _) => { s with engine, now }
  | .complete number ending =>
    match s.call? number with
    | none => s
    | some c =>
      let (_, engine, _) := s.engine.complete c.admission c.invocation ending s.now
      let reports := s.engine.breakers.reports number ending s.now c.admission.held
      { s with engine, live := s.without number, reports := s.reports ++ reports }
  | .drop number =>
    match s.call? number with
    | none => s
    | some c => { s with engine := s.engine.abandon c.admission, live := s.without number }
  | .change c =>
    match s.engine.apply c with
    | .ok engine => { s with engine }
    | .error _ => s
  | .recycle snapshot => { s with engine := (s.engine.recycle snapshot).2 }
  | .listen l => { s with engine := s.engine.addStateListener l }
  | .advance micros => { s with now := s.now + micros }

/-- The session after events. -/
def run (s : Session) (events : List Event) : Session := events.foldl step s

/-- Every engine that can be made is one that a session starts with. -/
theorem engine_start {settings : Settings} {context : Context} {snapshot : Snapshot} {e : Engine}
    (h : Engine.create settings context snapshot = .ok e) (now : Nat) :
    (start settings context snapshot e.balancing now).engine = e := by
  unfold Engine.create at h
  split at h
  · obtain rfl := Except.ok.inj h
    rfl
  · exact nomatch h

end Session

end TrafficControl
