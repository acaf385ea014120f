import TrafficControl.Limit.Scalar
import TrafficControl.Policy.Rate

/-!
# Token buckets

Permits are laid out on one line of time, in microseconds. `nextFree` is the instant up to which the
line is paid for. The time before it that nobody used is banked as stored permits, up to the
capacity (`Bucket.resync`). A reservation spends stored permits first and pays for the others by
moving `nextFree` one interval per permit; the caller waits until its own permits are paid for
(`Bucket.reserve`). If that instant is too far away the reservation is refused, and of the bucket
only the banked credit changes.
-/

namespace TrafficControl

/-- Why a policy gives no bucket. -/
inductive RateError where
  | noWindow (policy : String)
  | invalidWindow (policy : String)
deriving DecidableEq

/-- The text of an error. -/
def RateError.message : RateError → String
  | noWindow policy => s!"rate limit policy {policy} has no sliding window"
  | invalidWindow policy =>
    s!"rate limit policy {policy} has an invalid window: threshold and time window must be positive"

/-- The state of a token bucket. -/
structure Bucket (α : Type) where
  stored : α
  capacity : α
  /-- The microseconds from one permit to the next. -/
  interval : α
  nextFree : Int
deriving DecidableEq

namespace Bucket

open Word (saturatingAdd wrappingSub wrap)

variable {α : Type} [Scalar α]

/-- A full bucket for a window, from the instant given. It holds at least one permit, since
otherwise nothing would be granted without waiting. -/
def full (w : RateWindow) (burstSeconds : Float) (now : Int) : Bucket α :=
  let interval : α :=
    Scalar.ofInt w.millis.toNat * Scalar.ofInt 1000 / Scalar.ofInt w.threshold.toNat
  let perSecond := Scalar.ofInt 1000000 / interval
  let burst := Scalar.max (Scalar.ofFloat burstSeconds) (Scalar.ofInt 0)
  let capacity := Scalar.max (burst * perSecond) (Scalar.ofInt 1)
  { stored := capacity, capacity, interval, nextFree := now }

/-- The bucket of a policy, from the instant given. -/
def ofPolicy (p : RatePolicy) (now : Int) : Except RateError (Bucket α) :=
  match p.primary? with
  | none => .error (.noWindow p.name)
  | some w =>
    if w.threshold = 0 ∨ w.millis = 0 then .error (.invalidWindow p.name)
    else .ok (full w p.burstSeconds now)

/-- Bank the credit earned since `nextFree`. -/
def resync (b : Bucket α) (now : Int) : Bucket α :=
  if b.nextFree < now then
    let earned := Scalar.ofInt (wrappingSub now b.nextFree) / b.interval
    { b with stored := Scalar.min b.capacity (b.stored + earned), nextFree := now }
  else b

/-- Reserve permits. The result is the instant at which they are paid for, unless that is more than
`timeout` away. -/
def reserve (b : Bucket α) (permits : α) (now timeout : Int) : Option Int × Bucket α :=
  let b := b.resync now
  let spent := Scalar.min permits b.stored
  let cost := Scalar.truncate ((permits - spent) * b.interval)
  let ready := saturatingAdd b.nextFree cost
  if timeout < saturatingAdd ready (wrap (-now)) then (none, b)
  else (some ready, { b with nextFree := ready, stored := b.stored - spent })

/-- Ask for permits. The result is the time to wait for them, or nothing where they are refused. -/
def acquire (b : Bucket α) (permits : Nat) (now timeout : Int) : Option Int × Bucket α :=
  let (ready, b) := b.reserve (Scalar.ofInt permits) now timeout
  (ready.map fun r => max (wrappingSub r now) 0, b)

end Bucket

end TrafficControl
