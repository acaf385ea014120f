import TrafficControl.Json.Codec

/-!
# Circuit break policies

When a breaker opens, for how long, and what is answered in the meantime.
-/

namespace TrafficControl

/-- What a breaker protects. -/
inductive BreakLevel where
  | service
  | endpoint
deriving DecidableEq, Inhabited

/-- The level as a document writes it. -/
def BreakLevel.codec : Codec BreakLevel :=
  .enumeration [(service, "SERVICE"), (endpoint, "INSTANCE")]

/-- What a breaker looks back on. -/
inductive WindowKind where
  /-- The latest calls. -/
  | count
  /-- The calls of the latest seconds. -/
  | time
deriving DecidableEq, Inhabited

/-- The kind as a document writes it. -/
def WindowKind.codec : Codec WindowKind := .enumeration [(count, "COUNT"), (time, "TIME")]

/-- The response served in place of a call. -/
structure Degrade where
  responseCode : UInt16 := 0
  contentType : Option String := none
  responseBody : Option String := none
  attributes : Table String := {}
deriving DecidableEq

/-- The response as a document writes it. -/
def Degrade.codec : Codec Degrade :=
  (Codec.record (.cons (.defaulted "responseCode" .word16 0)
    (.cons (.optional "contentType" .string)
    (.cons (.optional "responseBody" .string)
    (.one (.defaulted "attributes" (.table .string) {})))))).imap
    (fun (responseCode, contentType, responseBody, attributes) =>
      { responseCode, contentType, responseBody, attributes })
    (fun d => (d.responseCode, d.contentType, d.responseBody, d.attributes))

/-- The thresholds of a breaker. -/
structure BreakPolicy where
  name : String := ""
  version : UInt64 := 0
  level : BreakLevel := .service
  windowKind : WindowKind := .count
  /-- Calls or seconds, by the kind of window. -/
  windowSize : UInt32 := 100
  minimumCalls : UInt32 := 10
  /-- The percentage of failed calls from which on the breaker opens. -/
  failureRate : Float32 := 50
  /-- The percentage of slow calls from which on the breaker opens. -/
  slowRate : Float32 := 100
  /-- The milliseconds from which on a call is slow. -/
  slowMillis : UInt64 := 60000
  /-- The milliseconds for which the breaker stays open. -/
  waitMillis : UInt64 := 60000
  /-- The number of trial calls. -/
  trialCalls : UInt32 := 10
  /-- Where there are some, only errors that contain one of these are failures. -/
  recordErrors : List String := []
  /-- Errors that contain one of these are not recorded. -/
  ignoreErrors : List String := []
  degrade : Option Degrade := none
deriving DecidableEq

/-- The policy as a document writes it. -/
def BreakPolicy.codec : Codec BreakPolicy :=
  (Codec.record (.cons (.defaulted "name" .string "") (.cons (.defaulted "version" .word64 0)
    (.cons (.defaulted "level" BreakLevel.codec .service)
    (.cons (.defaulted "slidingWindowType" WindowKind.codec .count)
    (.cons (.defaulted "slidingWindowSize" .word32 100)
    (.cons (.defaulted "minimumNumberOfCalls" .word32 10)
    (.cons (.defaulted "failureRateThreshold" .single 50)
    (.cons (.defaulted "slowCallRateThreshold" .single 100)
    (.cons (.defaulted "slowCallDurationThresholdMs" .word64 60000)
    (.cons (.defaulted "waitDurationInOpenStateMs" .word64 60000)
    (.cons (.defaulted "permittedCallsInHalfOpenState" .word32 10)
    (.cons (.defaulted "recordErrors" (.list .string) [])
    (.cons (.defaulted "ignoreErrors" (.list .string) [])
    (.one (.optional "degradeConfig" Degrade.codec)))))))))))))))).imap
    (fun (name, version, level, windowKind, windowSize, minimumCalls, failureRate, slowRate,
        slowMillis, waitMillis, trialCalls, recordErrors, ignoreErrors, degrade) =>
      { name, version, level, windowKind, windowSize, minimumCalls, failureRate, slowRate,
        slowMillis, waitMillis, trialCalls, recordErrors, ignoreErrors, degrade })
    (fun p => (p.name, p.version, p.level, p.windowKind, p.windowSize, p.minimumCalls,
      p.failureRate, p.slowRate, p.slowMillis, p.waitMillis, p.trialCalls, p.recordErrors,
      p.ignoreErrors, p.degrade))

end TrafficControl
