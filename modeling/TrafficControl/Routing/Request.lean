import TrafficControl.Policy.Break
import TrafficControl.Routing.Fault

/-!
# Requests

A call that is about to be sent or has just been received. Headers carry what one hop tells the next
(`Header`). A request also holds the signal for its caller, which is the latest fault.
-/

namespace TrafficControl

/-! ## Headers -/

namespace Header

def liveSpace := "x-live-space-id"
def unitRule := "x-live-rule-id"
def routingVariable := "x-live-uid"
def unit := "x-live-unit"
def cell := "x-live-cell"
def laneSpace := "x-lane-space-id"
def lane := "x-lane-code"

end Header

/-- A fault as the caller is told of it. -/
structure Signal where
  fault : Fault
  /-- The response of a degraded call. -/
  degrade : Option Degrade := none
deriving DecidableEq

/-- A call. -/
structure Request where
  service : String
  group : Option String := none
  path : Option String := none
  method : Option String := none
  write : Bool := false
  host : Option String := none
  headers : Table String := {}
  queries : Table String := {}
  signal : Option Signal := none
deriving DecidableEq

namespace Request

/-- The request as a host gives it, without a signal. Everything may be absent. -/
def codec : Codec Request :=
  (Codec.record (.cons (.optional "service" .string) (.cons (.optional "group" .string)
    (.cons (.optional "path" .string) (.cons (.optional "method" .string)
    (.cons (.optional "write" .bool) (.cons (.optional "host" .string)
    (.cons (.optional "headers" (.table .string))
    (.one (.optional "queries" (.table .string))))))))))).imap
    (fun (service, group, path, method, write, host, headers, queries) =>
      { service := service.getD "", group, path, method, write := write.getD false, host,
        headers := headers.getD {}, queries := queries.getD {} })
    (fun r => (some r.service, r.group, r.path, r.method, some r.write, r.host, some r.headers,
      some r.queries))

/-- A header. -/
def header? (r : Request) (name : String) : Option String := r.headers.find? name

/-- A query parameter. -/
def query? (r : Request) (name : String) : Option String := r.queries.find? name

/-- The value that decides the unit of the request. -/
def routingVariable? (r : Request) : Option String := r.header? Header.routingVariable

end Request

/-- A text that is there and not empty. -/
def nonEmpty? (s : Option String) : Option String := s.filter (· ≠ "")

end TrafficControl
