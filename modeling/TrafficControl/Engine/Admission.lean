import TrafficControl.Engine.Basic

/-!
# Admission

Before a call is sent it needs a permit of every breaker that guards it, and then of every limiter
that applies to it (`Engine.admission`). If one refuses, the permits of breakers that it already has
are given back and the call is stopped. An admitted call holds its permits until it ends, with an
outcome that all its breakers record (`Engine.complete`), or without one (`Engine.abandon`).

A listener of a breaker may fail. An admission is then interrupted, and a completion ends before the
listeners of the call are told; in both cases the permits are given back.

An admission is one step : what other callers do while it waits comes before it or after it.
-/

namespace TrafficControl

/-- The permits that an admitted call holds, each with the number of its breaker. -/
structure Admission where
  held : List (Nat × Permit) := []
deriving DecidableEq

/-- What a request for admission comes to. -/
inductive AdmitResult where
  | admitted (a : Admission)
  | refused (f : Fault)
  /-- A listener of a breaker failed. -/
  | interrupted
deriving DecidableEq

/-- How a call waits for the permits of a limiter. -/
inductive Pacing where
  /-- The caller sleeps by the clock of the engine, which goes on by just the wait. -/
  | blocking
  /-- A timer wakes the caller. How far the clock of the engine has gone on by then, at an instant
  and after a wait, depends on both clocks : it is the wait if they are one and the timer is exact,
  and more if the timer is late. A clock that is only moved by hand stands still. -/
  | suspending (elapsed : Nat → Nat → Nat := fun _ _ => 0)
deriving Inhabited

/-- How far the clock of the engine goes on while a call waits. -/
def Pacing.elapsed : Pacing → Nat → Nat → Nat
  | blocking, _, wait => wait
  | suspending elapsed, now, wait => elapsed now wait

namespace Engine

/-! ## Breakers -/

/-- The breakers that guard a call, with their policies : those of the service first, then those of
the chosen endpoint. -/
def guards (i : Invocation) : List (String × BreakPolicy) :=
  let service := i.service.name
  (i.breaksAt .service).map (fun p => (serviceUri service p.name, p)) ++
    match i.selection.choice with
    | some c => (i.breaksAt .endpoint).map fun p => (instanceUri service p.name c.endpoint.id, p)
    | none => []

/-- Give all permits of an admission back. -/
def abandon (e : Engine) (a : Admission) : Engine :=
  { e with breakers := a.held.foldl (fun r (n, p) => r.releasePermit n p) e.breakers }

/-- Get a permit of every breaker in turn, in addition to those held. Policies that are not valid
are passed over. -/
def breakerPermits (e : Engine) (i : Invocation) (now : Nat) (held : Admission) :
    List (String × BreakPolicy) → AdmitResult × Engine × Invocation
  | [] => (.admitted held, e, i)
  | (uri, p) :: rest =>
    match e.breakers.getOrCreate i.service.name uri p now with
    | .error _ => e.breakerPermits i now held rest
    | .ok (n, breakers) =>
      match breakers.acquire n now with
      | (.granted permit, breakers) =>
        { e with breakers }.breakerPermits i now ⟨held.held ++ [(n, permit)]⟩ rest
      | (.refused, breakers) =>
        let (fault, i) := i.breakOff p.degrade
        (.refused fault, { e with breakers }.abandon held, i)
      | (.interrupted, breakers) => (.interrupted, { e with breakers }.abandon held, i)

/-! ## Limiters -/

/-- The rate limit policies that apply to a call. -/
def limits (i : Invocation) : List RatePolicy :=
  match i.service.bundle? with
  | some b => b.rates.filter fun p => p.conditions.all fun c => i.satisfies (some c)
  | none => []

/-- The microseconds for which a call may wait under a policy. -/
def waitLimit (e : Engine) (p : RatePolicy) : Int :=
  let millis := if 0 < p.maxWaitMillis then p.maxWaitMillis else e.settings.limits.defaultWaitMillis
  timeoutMicros 0 (millis.toNat * 1000)

/-- The limiters for policies, by their numbers, with the time that a call may wait for each.
Policies that are not valid are passed over. -/
def limitersFor (e : Engine) (service : String) (now : Nat) :
    List RatePolicy → List (Nat × Int) × Engine
  | [] => ([], e)
  | p :: rest =>
    match e.limiters.getOrCreate service p now with
    | .error _ => e.limitersFor service now rest
    | .ok (n, limiters) =>
      let wait := e.waitLimit p
      let (found, e) := { e with limiters }.limitersFor service now rest
      ((n, wait) :: found, e)

/-- Get a permit of every limiter in turn. The result is whether all granted one, and the instant at
which the last decision was made and waited for. -/
def limiterPermits (e : Engine) (pacing : Pacing) (now : Nat) :
    List (Nat × Int) → Bool × Nat × Engine
  | [] => (true, now, e)
  | (n, timeout) :: rest =>
    match e.limiters.limiter? n with
    | none => e.limiterPermits pacing now rest
    | some l =>
      let (wait, l) := l.acquire 1 now timeout
      let e := { e with limiters := e.limiters.update n l }
      match wait with
      | none => (false, now, e)
      | some wait =>
        e.limiterPermits pacing (now + pacing.elapsed now wait) rest

/-! ## Admission -/

/-- Ask for the admission of a call. The result also tells the instant at which the answer is
given. -/
def admission (e : Engine) (i : Invocation) (pacing : Pacing) (now : Nat) :
    AdmitResult × Nat × Engine × Invocation :=
  let guards := if e.settings.breakers.enabled then guards i else []
  match e.breakerPermits i now {} guards with
  | (.admitted a, e, i) =>
    let limits := if e.settings.limits.enabled then limits i else []
    let (limiters, e) := e.limitersFor i.service.name now limits
    match e.limiterPermits pacing now limiters with
    | (true, now, e) => (.admitted a, now, e, i)
    | (false, now, e) =>
      let (fault, i) := i.reject .limit (i.reason Reason.limitExceeded)
      (.refused fault, now, e.abandon a, i)
  | (r, e, i) => (r, now, e, i)

/-- The URIs of the breakers that an admission has permits of. -/
def uris (e : Engine) (a : Admission) : List String :=
  a.held.filterMap fun (n, _) => (e.breakers.breaker? n).map (·.uri)

/-! ## Completion -/

/-- Tell breakers, by their numbers, how a call ended, up to the first whose listener fails. The
result is whether none failed. -/
def record (e : Engine) (ending : Ending) (now : Nat) : List Nat → Bool × Engine
  | [] => (true, e)
  | n :: rest =>
    let result := match ending with
      | .success micros => e.breakers.complete n micros none now
      | .failure micros cause => e.breakers.complete n micros (some cause) now
    match result with
    | (true, breakers) => { e with breakers }.record ending now rest
    | (false, breakers) => (false, { e with breakers })

/-- End an admitted call : its breakers record how, its permits are given back and its listeners are
told. -/
def complete (e : Engine) (a : Admission) (i : Invocation) (ending : Ending) (now : Nat) :
    List Notice × Engine × Invocation :=
  let (whole, e) := e.record ending now (a.held.map (·.1))
  let e := e.abandon a
  if whole then
    let (notices, i) := i.finish ending
    (notices, e, i)
  else ([], e, i)

end Engine

end TrafficControl
