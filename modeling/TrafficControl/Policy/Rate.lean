import TrafficControl.Policy.Condition

/-!
# Rate limit policies

How many calls are let through in which time. Of several windows the tightest one counts, which is
the one with the longest interval between two permits (`RatePolicy.primary?`).
-/

namespace TrafficControl

/-- A number of permits for a span of time. -/
structure RateWindow where
  threshold : UInt32
  millis : UInt64
deriving DecidableEq, Inhabited

namespace RateWindow

/-- The window as a document writes it. -/
def codec : Codec RateWindow :=
  (Codec.record (.cons (.required "threshold" .word32)
    (.one (.required "timeWindowInMs" .word64)))).imap
    (fun (threshold, millis) => { threshold, millis }) (fun w => (w.threshold, w.millis))

/-- The microseconds from one permit to the next, without end where there are no permits. -/
def interval (w : RateWindow) : Float :=
  if w.threshold = 0 then .ofBits 0x7FF0000000000000
  else w.millis.toFloat * 1000 / w.threshold.toFloat

end RateWindow

/-- A limit for the requests that satisfy its conditions. -/
structure RatePolicy where
  name : String := ""
  version : UInt64 := 0
  windows : List RateWindow := []
  /-- The milliseconds that a request may be made to wait. -/
  maxWaitMillis : UInt64 := 0
  /-- The seconds for which unused permits are kept. -/
  burstSeconds : Float := 1
  /-- The limit applies to requests that satisfy all of these. -/
  conditions : List Condition := []
deriving DecidableEq

namespace RatePolicy

/-- The policy as a document writes it. -/
def codec : Codec RatePolicy :=
  (Codec.record (.cons (.defaulted "name" .string "") (.cons (.defaulted "version" .word64 0)
    (.cons (.defaulted "slidingWindows" (.list RateWindow.codec) [])
    (.cons (.defaulted "maxWaitMs" .word64 0)
    (.cons (.defaulted "maxBurstSeconds" .double 1)
    (.one (.defaulted "conditions" (.list Condition.codec) [])))))))).imap
    (fun (name, version, windows, maxWaitMillis, burstSeconds, conditions) =>
      { name, version, windows, maxWaitMillis, burstSeconds, conditions })
    (fun p => (p.name, p.version, p.windows, p.maxWaitMillis, p.burstSeconds, p.conditions))

/-- The window with the longest interval, the last of several. -/
def primary? (p : RatePolicy) : Option RateWindow :=
  p.windows.foldl (fun best w =>
    match best with
    | some b => if b.interval ≤ w.interval then some w else some b
    | none => some w) none

end RatePolicy

end TrafficControl
