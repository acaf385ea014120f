/-!
# Faults

A `Fault` is a decision that stops a request : not to send it, to try it elsewhere, or to answer it
with a prepared response. Its reason begins with one of the fixed texts of `Reason`.
-/

namespace TrafficControl

/-- What the caller is to do with a request. -/
inductive FaultKind where
  /-- Do not send it. -/
  | reject
  /-- Try it in another unit or cell. -/
  | failover
  /-- Answer it with a prepared response. -/
  | degrade
deriving DecidableEq, Inhabited

/-- The name of a kind. -/
def FaultKind.name : FaultKind → String
  | reject => "reject"
  | failover => "failover"
  | degrade => "degrade"

/-- What a fault is about. -/
inductive FaultType where
  | unit | cell | lane | limit | circuitBreak | unready | permission
deriving DecidableEq, Inhabited

/-- The name of a type. -/
def FaultType.name : FaultType → String
  | unit => "unit"
  | cell => "cell"
  | lane => "lane"
  | limit => "limit"
  | circuitBreak => "circuit-break"
  | unready => "unready"
  | permission => "permission"

/-- A decision that stops a request. -/
structure Fault where
  kind : FaultKind
  type : FaultType
  reason : String
deriving DecidableEq

namespace Fault

/-- The text of a fault. -/
def message (f : Fault) : String := s!"{f.kind.name} by {f.type.name}: {f.reason}"

/-- Whether the same request may succeed later. Only a refusal by a limiter is of this sort. -/
def isTransient (f : Fault) : Bool := f.type = .limit

end Fault

/-! ## Reasons -/

namespace Reason

def unitNotAccessibleFailover := "failover when unit is not accessible."
def noLocalUnit := "reject when local unit is not found."
def unitNotCenter := "reject when unit is not center."
def noCenter := "reject when center unit is not found."
def unitNotAccessible := "reject when unit is not accessible."
def noVariable := "reject when unit variable is not found."
def noUnitRoute := "reject when unit route is not found."
def noInstance := "reject when instance is not found."
def noVariableFailover := "failover center unit when unit variable is not found."
def otherUnit := "failover unit when variable is not belong to this unit."
def cellNotAccessible := "failover other cell when local cell is not accessible."
def breakerOpen := "reject when circuit breaker is open."
def limitExceeded := "reject when rate limit is exceeded."

end Reason

end TrafficControl
