import TrafficControl.Json.Codec

/-!
# Endpoints

The instances of a service that a call may go to, and where they are.
-/

namespace TrafficControl

/-- An instance of a service. -/
structure Endpoint where
  id : String
  liveSpace : Option String := none
  unit : Option String := none
  cell : Option String := none
  laneSpace : Option String := none
  lane : Option String := none
  weight : UInt32 := 100
  healthy : Bool := true
deriving DecidableEq, Inhabited

namespace Endpoint

/-- The endpoint as discovery gives it. All but the id may be absent. -/
def codec : Codec Endpoint :=
  (Codec.record (.cons (.required "id" .string) (.cons (.optional "liveSpaceId" .string)
    (.cons (.optional "unit" .string) (.cons (.optional "cell" .string)
    (.cons (.optional "laneSpaceId" .string) (.cons (.optional "lane" .string)
    (.cons (.optional "weight" .word32) (.one (.optional "healthy" .bool)))))))))).imap
    (fun (id, liveSpace, unit, cell, laneSpace, lane, weight, healthy) =>
      { id, liveSpace, unit, cell, laneSpace, lane, weight := weight.getD 100,
        healthy := healthy.getD true })
    (fun e => (e.id, e.liveSpace, e.unit, e.cell, e.laneSpace, e.lane, some e.weight,
      some e.healthy))

/-- Whether the endpoint is in a unit. -/
def isUnit (e : Endpoint) (unit : String) : Bool := e.unit = some unit

/-- Whether the endpoint is in a cell. -/
def isCell (e : Endpoint) (cell : String) : Bool := e.cell = some cell

/-- A text, or another one where it is missing or empty. -/
def orDefault (s other : Option String) : Option String := (s.filter (· ≠ "")).or other

/-- Whether the endpoint serves a lane of a space. What is missing or empty stands for the default,
on either side. -/
def isLane (e : Endpoint) (space lane defaultSpace defaultLane : Option String) : Bool :=
  orDefault space defaultSpace = orDefault e.laneSpace defaultSpace &&
    orDefault lane defaultLane = orDefault e.lane defaultLane

end Endpoint

end TrafficControl
