import TrafficControl.Policy.Break

/-!
# Windows of outcomes

A breaker decides by the outcomes that its `Window` holds : those of the latest calls, or those of
the latest seconds, this one included. `Window.counts` sums them up.
-/

namespace TrafficControl

/-- What a call came to. -/
structure Outcome where
  failed : Bool
  slow : Bool
deriving DecidableEq

/-- Numbers of calls. -/
structure Counts where
  calls : Nat := 0
  failures : Nat := 0
  slow : Nat := 0
deriving DecidableEq

namespace Counts

/-- Both numbers together. -/
def add (a b : Counts) : Counts := ⟨a.calls + b.calls, a.failures + b.failures, a.slow + b.slow⟩

/-- A single call. -/
def ofOutcome (o : Outcome) : Counts := ⟨1, o.failed.toNat, o.slow.toNat⟩

/-- The sum of all. -/
def sum (l : List Counts) : Counts := l.foldr add {}

/-- The percentage that `part` is of `calls`, zero where there are no calls. -/
def rate (part calls : Nat) : Float32 :=
  if calls = 0 then 0 else .ofNat part * 100 / .ofNat calls

/-- The percentage of failed calls. -/
def failureRate (c : Counts) : Float32 := rate c.failures c.calls

/-- The percentage of slow calls. -/
def slowRate (c : Counts) : Float32 := rate c.slow c.calls

end Counts

/-- The calls of one second. -/
structure SecondCounts where
  second : Nat
  counts : Counts
deriving DecidableEq

/-- The outcomes that a breaker looks back on, latest first. -/
inductive Window where
  /-- The latest `size` outcomes. -/
  | count (size : Nat) (outcomes : List Outcome)
  /-- The outcomes of the latest `size` seconds. -/
  | time (size : Nat) (seconds : List SecondCounts)
deriving DecidableEq

namespace Window

/-- The empty window of a policy, of size one at least. -/
def ofPolicy (p : BreakPolicy) : Window :=
  let size := max p.windowSize.toNat 1
  match p.windowKind with
  | .count => count size []
  | .time => time size []

/-- The window without outcomes. -/
def reset : Window → Window
  | count size _ => count size []
  | time size _ => time size []

/-- Drop what is too old at a second. -/
def prune (w : Window) (now : Nat) : Window :=
  match w with
  | count size outcomes => count size outcomes
  | time size seconds => time size (seconds.filter fun s => now - (size - 1) ≤ s.second)

/-- The sum of the outcomes held. -/
def held : Window → Counts
  | count _ outcomes => Counts.sum (outcomes.map .ofOutcome)
  | time _ seconds => Counts.sum (seconds.map (·.counts))

/-- The counts at a second, and the window without what is too old. -/
def counts (w : Window) (now : Nat) : Counts × Window := ((w.prune now).held, w.prune now)

/-- Add an outcome of a second. -/
def add (w : Window) (o : Outcome) (now : Nat) : Window :=
  match w with
  | count size outcomes => count size ((o :: outcomes).take size)
  | time size (s :: seconds) =>
    if s.second = now then time size (⟨now, s.counts.add (.ofOutcome o)⟩ :: seconds)
    else time size (⟨now, .ofOutcome o⟩ :: s :: seconds)
  | time size [] => time size [⟨now, .ofOutcome o⟩]

/-- Record an outcome of a second. The result counts it already. -/
def record (w : Window) (o : Outcome) (now : Nat) : Counts × Window := (w.add o now).counts now

end Window

end TrafficControl
