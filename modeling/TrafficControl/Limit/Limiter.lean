import TrafficControl.Limit.Bucket

/-!
# Limiters

A `Limiter` is the bucket of a policy with a clock that started when the limiter was made.
-/

namespace TrafficControl

/-- A span of `seconds` and `micros` as a signed word of microseconds. -/
def timeoutMicros (seconds micros : Nat) : Int := Word.clamp (seconds * 1000000 + micros : Nat)

/-- A bucket and its policy. -/
structure Limiter where
  policy : RatePolicy
  bucket : Bucket Float
  /-- The instant at which the limiter was made. -/
  start : Nat
deriving DecidableEq

namespace Limiter

/-- A limiter for a policy, made at the instant given. -/
def create (p : RatePolicy) (now : Nat) : Except RateError Limiter :=
  (Bucket.ofPolicy p 0).map fun bucket => { policy := p, bucket, start := now }

/-- The reading of the limiter's clock. -/
def reading (l : Limiter) (now : Nat) : Int := Word.clamp ((now - l.start : Nat) : Int)

/-- Ask for permits. The result is the time to wait for them, or nothing where they are refused. -/
def acquire (l : Limiter) (permits : Nat) (now : Nat) (timeout : Int) : Option Nat × Limiter :=
  let (wait, bucket) := l.bucket.acquire permits (l.reading now) timeout
  (wait.map Int.toNat, { l with bucket })

/-- Bank the credit earned up to now. -/
def resync (l : Limiter) (now : Nat) : Limiter :=
  { l with bucket := l.bucket.resync (l.reading now) }

end Limiter

end TrafficControl
