import TrafficControl.Limit.Bucket

/-!
# Calls of a limiter

What a limiter is asked for, each call at a reading of its stopwatch (`Bucket.call`). A call that
takes permits learns how long it has to wait for them. The stopwatch sleeps for that time where the
caller is blocked (`LimiterCall.sleep?`); a caller that is suspended waits without it.
-/

namespace TrafficControl

/-- What a limiter is asked for. Timeouts are in microseconds. -/
inductive LimiterCall where
  /-- Take permits, and block until they are paid for. -/
  | acquire (permits : UInt32) (timeout : Nat)
  /-- Take permits, and be suspended until they are paid for. -/
  | acquireAsync (permits : UInt32) (timeout : Nat)
  /-- Take a permit that is there at once. -/
  | tryAcquire
  /-- Read the number of stored permits. -/
  | storedPermits
deriving DecidableEq

/-- What a call comes to. -/
inductive LimiterAnswer (α : Type) where
  /-- Permits, after a wait. -/
  | granted (wait : Int)
  | refused
  | stored (permits : α)
deriving DecidableEq

variable {α : Type}

/-- The time that a call has the stopwatch sleep. -/
def LimiterCall.sleep? (c : LimiterCall) (answer : LimiterAnswer α) : Option Int :=
  match c, answer with
  | .acquire .., .granted wait | .tryAcquire, .granted wait => some wait
  | _, _ => none

namespace Bucket

variable [Scalar α]

/-- Ask for permits that are paid for within a timeout. -/
def request (b : Bucket α) (permits : UInt32) (timeout : Nat) (now : Int) :
    LimiterAnswer α × Bucket α :=
  match b.acquire permits.toNat now (Word.clamp timeout) with
  | (some wait, b) => (.granted wait, b)
  | (none, b) => (.refused, b)

/-- A call at a reading of the stopwatch. -/
def call (b : Bucket α) (now : Int) : LimiterCall → LimiterAnswer α × Bucket α
  | .acquire permits timeout | .acquireAsync permits timeout => b.request permits timeout now
  | .tryAcquire => b.request 1 0 now
  | .storedPermits => (.stored (b.resync now).stored, b.resync now)

/-- The bucket after calls, each with the reading of the stopwatch at which it is made. -/
def run (b : Bucket α) (calls : List (Int × LimiterCall)) : Bucket α :=
  calls.foldl (fun b c => (b.call c.1 c.2).2) b

end Bucket

end TrafficControl
