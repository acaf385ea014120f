import TrafficControl.Policy.Break
import TrafficControl.Policy.Rate

/-!
# Policy bundles

A `Bundle` holds everything that applies to a service, to one of its paths or to one of its
methods : unit routing, lanes, circuit breakers, rate limits, load balancing and retries.
-/

namespace TrafficControl

/-! ## Lanes -/

/-- Where a request goes when its lane has no instance. -/
inductive LaneFallback where
  /-- To the default lane of the space. -/
  | defaultLane
  /-- Nowhere. -/
  | none
  /-- To a lane that the policy names. -/
  | custom
deriving DecidableEq, Inhabited

/-- The fallback as a document writes it. -/
def LaneFallback.codec : Codec LaneFallback :=
  .enumeration [(defaultLane, "DEFAULT"), (none, "NONE"), (custom, "CUSTOM")]

/-- What applies in one lane space. -/
structure LanePolicy where
  space : String := ""
  /-- Lanes that take the requests of other lanes, by the lane that is redirected. -/
  redirections : Table String := {}
  fallback : LaneFallback := .defaultLane
  /-- The lane of a custom fallback. -/
  fallbackLane : Option String := none
deriving DecidableEq

namespace LanePolicy

/-- The policy as a document writes it. -/
def codec : Codec LanePolicy :=
  (Codec.record (.cons (.defaulted "laneSpaceId" .string "")
    (.cons (.defaulted "redirections" (.table .string) {})
    (.cons (.defaulted "fallbackType" LaneFallback.codec .defaultLane)
    (.one (.optional "fallbackLane" .string)))))).imap
    (fun (space, redirections, fallback, fallbackLane) =>
      { space, redirections, fallback, fallbackLane })
    (fun p => (p.space, p.redirections, p.fallback, p.fallbackLane))

/-- The lane to which a lane is redirected. An empty entry redirects nothing. -/
def redirect? (p : LanePolicy) (lane : Option String) : Option String :=
  (lane.bind p.redirections.find?).filter (· ≠ "")

end LanePolicy

/-! ## Units -/

/-- The unit in which a service is called. -/
inductive UnitPolicy where
  /-- Any unit. -/
  | none
  /-- The unit that owns the routing variable. -/
  | unit
  /-- The center unit. -/
  | center
  /-- The local unit, where it can serve. -/
  | preferLocal
deriving DecidableEq, Inhabited

/-- The policy as a document writes it. -/
def UnitPolicy.codec : Codec UnitPolicy :=
  .enumeration [(none, "NONE"), (unit, "UNIT"), (center, "CENTER"), (preferLocal, "PREFER_LOCAL")]

/-- How a service takes part in unit routing. -/
structure LivePolicy where
  unitPolicy : UnitPolicy := .unit
  /-- Whether every request counts as a write. -/
  writeProtect : Bool := false
  /-- The unit rule for requests that name none. -/
  rule : Option String := none
deriving DecidableEq

/-- The policy as a document writes it. -/
def LivePolicy.codec : Codec LivePolicy :=
  (Codec.record (.cons (.defaulted "unitPolicy" UnitPolicy.codec .unit)
    (.cons (.defaulted "writeProtect" .bool false) (.one (.optional "unitRuleId" .string))))).imap
    (fun (unitPolicy, writeProtect, rule) => { unitPolicy, writeProtect, rule })
    (fun p => (p.unitPolicy, p.writeProtect, p.rule))

/-! ## Load balancing and retries -/

/-- How one of several endpoints is chosen. -/
inductive Balancing where
  | roundRobin
  | random
  | weightedRandom
deriving DecidableEq, Inhabited

/-- The name of a way to choose in documents. -/
def Balancing.names : List (Balancing × String) :=
  [(roundRobin, "ROUND_ROBIN"), (random, "RANDOM"), (weightedRandom, "WEIGHTED_RANDOM")]

/-- The way to choose as a document writes it. -/
def Balancing.codec : Codec Balancing := .enumeration names

/-- The load balancing of a service. -/
structure BalancePolicy where
  balancing : Balancing := .roundRobin
deriving DecidableEq

/-- The policy as a document writes it. -/
def BalancePolicy.codec : Codec BalancePolicy :=
  (Codec.record (.one (.defaulted "policyType" Balancing.codec .roundRobin))).imap
    (fun balancing => { balancing }) (fun p => p.balancing)

/-- Settings for a retrying caller. -/
structure RetryPolicy where
  retries : UInt32 := 0
  intervalMillis : UInt64 := 0
  errorCodes : List String := []
deriving DecidableEq

/-- The policy as a document writes it. -/
def RetryPolicy.codec : Codec RetryPolicy :=
  (Codec.record (.cons (.defaulted "retry" .word32 0)
    (.cons (.defaulted "retryIntervalMs" .word64 0)
    (.one (.defaulted "retryErrorCodes" (.list .string) []))))).imap
    (fun (retries, intervalMillis, errorCodes) => { retries, intervalMillis, errorCodes })
    (fun p => (p.retries, p.intervalMillis, p.errorCodes))

/-! ## Bundles -/

/-- Everything that applies to a service, a path or a method. -/
structure Bundle where
  id : Option String := none
  live : Option LivePolicy := none
  /-- Live policies for single unit rules, by the id of the rule. -/
  ruleLive : Table LivePolicy := {}
  lanes : List LanePolicy := []
  breaks : List BreakPolicy := []
  rates : List RatePolicy := []
  balance : Option BalancePolicy := none
  retry : Option RetryPolicy := none
deriving DecidableEq

namespace Bundle

/-- The bundle as a document writes it. -/
def codec : Codec Bundle :=
  (Codec.record (.cons (.optional "id" .string) (.cons (.optional "livePolicy" LivePolicy.codec)
    (.cons (.defaulted "unitRulePolicies" (.table LivePolicy.codec) {})
    (.cons (.defaulted "lanePolicies" (.list LanePolicy.codec) [])
    (.cons (.defaulted "circuitBreakPolicies" (.list BreakPolicy.codec) [])
    (.cons (.defaulted "rateLimitPolicies" (.list RatePolicy.codec) [])
    (.cons (.optional "loadBalancePolicy" BalancePolicy.codec)
    (.one (.optional "retryPolicy" RetryPolicy.codec)))))))))).imap
    (fun (id, live, ruleLive, lanes, breaks, rates, balance, retry) =>
      { id, live, ruleLive, lanes, breaks, rates, balance, retry })
    (fun b => (b.id, b.live, b.ruleLive, b.lanes, b.breaks, b.rates, b.balance, b.retry))

/-- The policy for a lane space. -/
def lanePolicy? (b : Bundle) (space : Option String) : Option LanePolicy := do
  let space ← space
  b.lanes.find? (·.space = space)

/-- The live policy under a unit rule, which may have one of its own. -/
def livePolicy? (b : Bundle) (rule : Option String) : Option LivePolicy :=
  (rule.bind b.ruleLive.find?).or b.live

/-- The circuit break policies of a level. -/
def breaksAt (b : Bundle) (level : BreakLevel) : List BreakPolicy :=
  b.breaks.filter (·.level = level)

end Bundle

end TrafficControl
