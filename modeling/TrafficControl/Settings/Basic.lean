import TrafficControl.Routing.Application

/-!
# Settings

What a process sets for itself : who and where it is, and which parts of traffic control are on.
Every setting has a default.
-/

namespace TrafficControl

/-- A part that can be turned off. -/
structure Toggle where
  enabled : Bool := true
deriving DecidableEq, Inhabited

/-- The part as a document writes it. -/
def Toggle.codec : Codec Toggle :=
  (Codec.record (.one (.defaulted "enabled" .bool true))).imap
    (fun enabled => { enabled }) (fun t => t.enabled)

/-- Settings of rate limits. -/
structure LimitSettings where
  enabled : Bool := true
  /-- The milliseconds to wait for a permit under a policy that sets none. -/
  defaultWaitMillis : UInt64 := 0
deriving DecidableEq, Inhabited

/-- The settings as a document writes them. -/
def LimitSettings.codec : Codec LimitSettings :=
  (Codec.record (.cons (.defaulted "enabled" .bool true)
    (.one (.defaulted "default_timeout_ms" .word64 0)))).imap
    (fun (enabled, defaultWaitMillis) => { enabled, defaultWaitMillis })
    (fun s => (s.enabled, s.defaultWaitMillis))

/-- Settings of load balancing. -/
structure BalanceSettings where
  /-- The name of the way to choose for services that have none. -/
  default : String := "round_robin"
deriving DecidableEq, Inhabited

/-- The settings as a document writes them. -/
def BalanceSettings.codec : Codec BalanceSettings :=
  (Codec.record (.one (.defaulted "default_type" .string "round_robin"))).imap
    (fun default => { default }) (fun s => s.default)

/-- Settings of the log. -/
structure LogSettings where
  level : String := "info"
  json : Bool := false
deriving DecidableEq, Inhabited

/-- The settings as a document writes them. -/
def LogSettings.codec : Codec LogSettings :=
  (Codec.record (.cons (.defaulted "level" .string "info")
    (.one (.defaulted "json" .bool false)))).imap
    (fun (level, json) => { level, json }) (fun s => (s.level, s.json))

/-- All settings of a process. -/
structure Settings where
  application : Application := {}
  live : Toggle := {}
  lane : Toggle := {}
  breakers : Toggle := {}
  limits : LimitSettings := {}
  balance : BalanceSettings := {}
  log : LogSettings := {}
deriving DecidableEq, Inhabited

/-- The settings as a document writes them. -/
def Settings.codec : Codec Settings :=
  (Codec.record (.cons (.defaulted "application" Application.settingsCodec {})
    (.cons (.defaulted "live" Toggle.codec {}) (.cons (.defaulted "lane" Toggle.codec {})
    (.cons (.defaulted "circuit_breaker" Toggle.codec {})
    (.cons (.defaulted "rate_limit" LimitSettings.codec {})
    (.cons (.defaulted "load_balance" BalanceSettings.codec {})
    (.one (.defaulted "logging" LogSettings.codec {}))))))))).imap
    (fun (application, live, lane, breakers, limits, balance, log) =>
      { application, live, lane, breakers, limits, balance, log })
    (fun s => (s.application, s.live, s.lane, s.breakers, s.limits, s.balance, s.log))

end TrafficControl
