import TrafficControl.Breaker.Window
import TrafficControl.Number.Word
import TrafficControl.Text.Match

/-!
# Circuit breakers

A breaker is closed while calls go well. When the rate of failed or slow calls reaches a threshold
it opens and refuses calls. After a wait it is half-open : it grants a number of trial permits, and
their outcomes close it or open it again. `generation` counts the changes of state, so that a trial
permit is good only for the round in which it was granted.

All operations take the instant in microseconds and tell the change of state that they make, if
any. An acquisition has two parts, because a change is announced between them : `Breaker.wake` ends
the wait of an open breaker, `Breaker.take` grants or refuses. `Breaker.acquire` is both.
-/

namespace TrafficControl

/-- The state of a breaker. -/
inductive BreakerState where
  | closed
  | opened
  | halfOpen
deriving DecidableEq, Inhabited

/-- The name of a state. -/
def BreakerState.name : BreakerState → String
  | closed => "closed"
  | opened => "open"
  | halfOpen => "half-open"

/-- A change of state of one breaker. -/
structure StateChange where
  uri : String
  before : BreakerState
  after : BreakerState
deriving DecidableEq

/-- A permission to call. -/
structure Permit where
  /-- Whether it is one of the permits of a half-open breaker. -/
  trial : Bool := false
  /-- The generation in which it was granted. -/
  generation : Nat := 0
deriving DecidableEq

/-- A breaker. -/
structure Breaker where
  uri : String
  policy : BreakPolicy
  /-- The instant at which the breaker was made. -/
  epoch : Nat
  window : Window
  state : BreakerState := .closed
  /-- The millisecond, counted from `epoch`, from which on an open breaker wakes. -/
  retryAt : Int := 0
  /-- The trial permits that are out. -/
  trials : Nat := 0
  /-- The successful trials of this round. -/
  successes : Nat := 0
  /-- The number of changes of state. A word of 64 bits is taken to be enough for it. -/
  generation : Nat := 0
  /-- The instant of the last permit. -/
  lastAcquired : Option Nat := none
deriving DecidableEq

namespace Breaker

/-- A closed breaker for a policy, made at the instant given. -/
def create (uri : String) (policy : BreakPolicy) (now : Nat) : Breaker :=
  { uri, policy, epoch := now, window := .ofPolicy policy }

/-- The milliseconds since the breaker was made. -/
def elapsedMillis (b : Breaker) (now : Nat) : Int :=
  Word.clamp (((now - b.epoch) / 1000 : Nat) : Int)

/-- The seconds since the breaker was made. -/
def elapsedSeconds (b : Breaker) (now : Nat) : Nat := (now - b.epoch) / 1000000

/-- The number of trial permits, one at least. -/
def trialLimit (b : Breaker) : Nat := max b.policy.trialCalls.toNat 1

/-- Whether the wait of an open breaker is over. -/
def isDue (b : Breaker) (now : Nat) : Bool := b.retryAt ≤ b.elapsedMillis now

/-- Whether the breaker is open. -/
def isOpen (b : Breaker) : Bool := b.state = .opened

/-- Whether a permit would be granted. -/
def isAvailable (b : Breaker) (now : Nat) : Bool :=
  match b.state with
  | .closed => true
  | .halfOpen => b.trials < b.trialLimit
  | .opened => b.isDue now

/-! ## Changes of state -/

/-- What the breaker keeps of its counters when it enters a state. -/
def enter (b : Breaker) (after : BreakerState) (now : Nat) : Breaker :=
  match after with
  | .opened =>
    let wait := Word.clamp b.policy.waitMillis.toNat
    { b with retryAt := Word.saturatingAdd (b.elapsedMillis now) wait, trials := 0 }
  | .halfOpen => { b with successes := 0, trials := 0 }
  | .closed => { b with successes := 0, window := b.window.reset }

/-- Change to another state. -/
def change (b : Breaker) (after : BreakerState) (now : Nat) : StateChange × Breaker :=
  (⟨b.uri, b.state, after⟩,
    { b.enter after now with state := after, generation := b.generation + 1 })

/-! ## Permits -/

/-- Make an open breaker half-open when its wait is over. -/
def wake (b : Breaker) (now : Nat) : Option StateChange × Breaker :=
  if b.state = .opened ∧ b.isDue now then
    let (change, b) := b.change .halfOpen now
    (some change, b)
  else (none, b)

/-- Grant a permit in the state the breaker is in. -/
def take (b : Breaker) (now : Nat) : Option Permit × Breaker :=
  match b.state with
  | .closed => (some ⟨false, b.generation⟩, { b with lastAcquired := some now })
  | .halfOpen =>
    if b.trials < b.trialLimit then
      (some ⟨true, b.generation⟩, { b with trials := b.trials + 1, lastAcquired := some now })
    else (none, b)
  | .opened => (none, b)

/-- Ask for a permit. -/
def acquire (b : Breaker) (now : Nat) : Option Permit × Option StateChange × Breaker :=
  let (change, b) := b.wake now
  let (permit, b) := b.take now
  (permit, change, b)

/-- Give a trial permit back, whichever it is. -/
def release (b : Breaker) : Breaker :=
  if b.state = .halfOpen then { b with trials := b.trials - 1 } else b

/-- Give a permit back. Only a trial permit of the round in progress frees anything. -/
def releasePermit (b : Breaker) (p : Permit) : Breaker :=
  if p.trial ∧ p.generation = b.generation then b.release else b

/-! ## Outcomes -/

/-- The outcome of a call, which failed if it has a cause. The causes that the policy ignores have
none. -/
def outcome? (p : BreakPolicy) (micros : Nat) (cause : Option String) : Option Outcome :=
  let slow : Bool := p.slowMillis.toNat * 1000 ≤ micros
  match cause with
  | none => some ⟨false, slow⟩
  | some cause =>
    if p.ignoreErrors.any (Text.occursIn · cause) then none
    else some ⟨p.recordErrors.isEmpty || p.recordErrors.any (Text.occursIn · cause), slow⟩

/-- Whether counts reach a threshold. -/
def exceeds (p : BreakPolicy) (c : Counts) : Bool :=
  max p.minimumCalls.toNat 1 ≤ c.calls &&
    (p.failureRate ≤ c.failureRate || p.slowRate ≤ c.slowRate)

/-- Record an outcome. -/
def record (b : Breaker) (o : Outcome) (now : Nat) : Option StateChange × Breaker :=
  let changed (b : Breaker) (after : BreakerState) :=
    let (change, b) := b.change after now
    (some change, b)
  match b.state with
  | .closed =>
    let (counts, window) := b.window.record o (b.elapsedSeconds now)
    let b := { b with window }
    if exceeds b.policy counts then changed b .opened else (none, b)
  | .halfOpen =>
    if o.failed || o.slow then changed b .opened
    else
      let b := { b with successes := b.successes + 1 }
      if b.trialLimit ≤ b.successes then changed b .closed else (none, b)
  | .opened => (none, b)

/-- Record the end of a call, which failed if it has a cause. -/
def complete (b : Breaker) (micros : Nat) (cause : Option String) (now : Nat) :
    Option StateChange × Breaker :=
  match outcome? b.policy micros cause with
  | some o => b.record o now
  | none => (none, b)

/-- The counts of the window. -/
def counts (b : Breaker) (now : Nat) : Counts × Breaker :=
  let (counts, window) := b.window.counts (b.elapsedSeconds now)
  (counts, { b with window })

end Breaker

/-- A breaker that guards nothing : it grants every permit and records no outcome. -/
structure PassiveBreaker where
  isOpen : Bool

namespace PassiveBreaker

/-- Ask for a permit. -/
def acquire (_ : PassiveBreaker) : Option Permit := some {}

/-- Whether the breaker says that a permit would be granted. -/
def isAvailable (b : PassiveBreaker) : Bool := !b.isOpen

end PassiveBreaker

end TrafficControl
