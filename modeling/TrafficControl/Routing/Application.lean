import TrafficControl.Json.Codec

/-!
# The local application

The application on whose side decisions are made, and where it runs.
-/

namespace TrafficControl

/-- A place in the live and lane spaces. -/
structure Location where
  region : Option String := none
  zone : Option String := none
  unit : Option String := none
  cell : Option String := none
  liveSpace : Option String := none
  laneSpace : Option String := none
  lane : Option String := none
deriving DecidableEq, Inhabited

/-- The location, its compound members under the names given. -/
def Location.codecWith (liveSpace laneSpace : String) : Codec Location :=
  (Codec.record (.cons (.optional "region" .string) (.cons (.optional "zone" .string)
    (.cons (.optional "unit" .string) (.cons (.optional "cell" .string)
    (.cons (.optional liveSpace .string) (.cons (.optional laneSpace .string)
    (.one (.optional "lane" .string))))))))).imap
    (fun (region, zone, unit, cell, liveSpace, laneSpace, lane) =>
      { region, zone, unit, cell, liveSpace, laneSpace, lane })
    (fun l => (l.region, l.zone, l.unit, l.cell, l.liveSpace, l.laneSpace, l.lane))

/-- An application. -/
structure Application where
  name : String := ""
  location : Location := {}
deriving DecidableEq, Inhabited

namespace Application

/-- The application, with a codec for its location. -/
def codecWith (location : Codec Location) : Codec Application :=
  (Codec.record (.cons (.defaulted "name" .string "")
    (.one (.defaulted "location" location {})))).imap
    (fun (name, location) => { name, location }) (fun a => (a.name, a.location))

/-- The application as an answer writes it. -/
def codec : Codec Application := codecWith (Location.codecWith "liveSpaceId" "laneSpaceId")

/-- The application as settings write it. -/
def settingsCodec : Codec Application :=
  codecWith (Location.codecWith "live_space_id" "lane_space_id")

end Application

end TrafficControl
