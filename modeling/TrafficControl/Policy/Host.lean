import TrafficControl.Policy.Lane
import TrafficControl.Policy.Live

/-!
# Hosts

What is known about a host : which live space it belongs to, perhaps with one of its units, and
which lane space. Several bindings of one kind may name a host; the last one in the order of the
document counts. `hostIndex` puts the bindings of both kinds together, by host.
-/

namespace TrafficControl

/-- A binding of a host in a live space. -/
structure LiveBinding where
  space : String
  host : LiveHost
  /-- The host of a unit that the binding is about, if it is about one. -/
  unitHost : Option UnitHost
deriving DecidableEq

/-- A binding of a host in a lane space. -/
structure LaneBinding where
  space : String
  host : LaneHost
deriving DecidableEq

/-- Everything known about a host. -/
structure HostPolicy where
  host : String
  live : Option LiveBinding
  lane : Option LaneBinding
deriving DecidableEq

namespace HostPolicy

/-- Whether the host belongs to a live space. -/
def isLive (p : HostPolicy) : Bool := p.live.isSome

/-- Whether the host belongs to a lane space. -/
def isLane (p : HostPolicy) : Bool := p.lane.isSome

/-- The policy as an answer writes it. -/
def encode (p : HostPolicy) : Json :=
  let text := Codec.option .string
  .object [
    ("liveSpaceId", text.encode (p.live.map (·.space))),
    ("liveDomain", (Codec.option LiveHost.codec).encode (p.live.map (·.host))),
    ("unitDomain", (Codec.option UnitHost.codec).encode (p.live.bind (·.unitHost))),
    ("laneSpaceId", text.encode (p.lane.map (·.space))),
    ("laneDomain", (Codec.option LaneHost.codec).encode (p.lane.map (·.host)))]

end HostPolicy

/-- The bindings of live spaces in the order of the document, by the host they bind. A host of a
space comes before the hosts of its units. -/
def liveBindings (spaces : List LiveSpace) : List (String × LiveBinding) :=
  spaces.flatMap fun s => s.spec.hosts.flatMap fun h =>
    (h.host, ⟨s.id, h, none⟩) :: h.unitHosts.map fun u => (u.host, ⟨s.id, h, some u⟩)

/-- The bindings of lane spaces in the order of the document, by the host they bind. -/
def laneBindings (spaces : List LaneSpace) : List (String × LaneBinding) :=
  spaces.flatMap fun s => s.hosts.map fun h => (h.host, ⟨s.id, h⟩)

/-- Everything known about every host. The hosts of live spaces come first and take along what lane
spaces say about them, then the hosts of lane spaces alone follow. -/
def hostIndex (liveSpaces : List LiveSpace) (laneSpaces : List LaneSpace) : Table HostPolicy :=
  let lanes := Table.ofList (laneBindings laneSpaces)
  let live := (liveBindings liveSpaces).foldl (fun t (host, b) =>
    t.insert host { host, live := some b, lane := lanes.find? host }) Table.empty
  lanes.bindings.foldl (fun t (host, b) =>
    t.insertNew host { host, live := none, lane := some b }) live

end TrafficControl
