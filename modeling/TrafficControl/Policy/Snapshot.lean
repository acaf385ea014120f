import TrafficControl.Policy.Document
import TrafficControl.Policy.Host

/-!
# Snapshots

A `Snapshot` is a view of a policy document that never changes, with an `Index` for every kind of
`LookUp`. An index is made by the first look-up that needs it and kept from then on; a store makes
them all before it publishes a snapshot, and gives the snapshot a version, which is zero before.
Snapshots of changed documents are made with `withServices` and its like : they have no version, and
indexes of their own, which are not made yet.

What a look-up finds does not depend on the indexes that were made before (`Index.get_eq`) : it is
the first element of the document that has the key.
-/

namespace TrafficControl

/-! ## Indexes -/

/-- A table that is made when it is first needed. -/
structure Index {α : Type} (table : Table α) where
  made : Option (Table α) := none
  eq_of_mem_made : ∀ t ∈ made, t = table := by simp

namespace Index

variable {α : Type} {table : Table α}

/-- The table, made now if it was not made before. -/
@[inline] def get (x : Index table) : Table α := x.made.getD table

theorem get_eq (x : Index table) : x.get = table := by
  cases hmade : x.made with
  | none => rw [get, hmade, Option.getD_none]
  | some t => rw [get, hmade, Option.getD_some, x.eq_of_mem_made t hmade]

/-- The index with its table made. -/
@[inline] def make (x : Index table) : Index table :=
  ⟨some x.get, fun _ ht => Option.some.inj ht ▸ x.get_eq⟩

end Index

/-- The clusters with the keys of their addresses, in the order of the document. -/
def addressBindings (databases : List Database) : List (String × Database) :=
  databases.flatMap fun d => d.addressKeys.map (·, d)

/-- The clusters by the keys of their addresses. Of several clusters with one key the first is
found. -/
def addressTable (databases : List Database) : Table Database :=
  (addressBindings databases).foldl (fun t b => t.insertNew b.1 b.2) .empty

theorem find?_addressBindings (databases : List Database) (key : String) :
    ((addressBindings databases).find? (·.1 = key)).map (·.2) =
      databases.find? (key ∈ ·.addressKeys) := by
  induction databases with
  | nil => rfl
  | cons d rest ih =>
    have hcons : addressBindings (d :: rest) = d.addressKeys.map (·, d) ++ addressBindings rest :=
      List.flatMap_cons
    rw [hcons, List.find?_append, Option.map_or, ih, List.find?_map, List.find?_cons]
    cases hfind : d.addressKeys.find? ((fun b : String × Database => b.1 = key) ∘ (·, d)) with
    | none =>
      have hmem : key ∉ d.addressKeys := fun h => by simpa using List.find?_eq_none.1 hfind key h
      simp [hmem]
    | some k =>
      have hk : k = key := by simpa using List.find?_some hfind
      have hmem : key ∈ d.addressKeys := hk ▸ List.mem_of_find?_eq_some hfind
      simp [hmem]

theorem find?_addressTable (databases : List Database) (key : String) :
    (addressTable databases).find? key = databases.find? (key ∈ ·.addressKeys) := by
  have hfirst :=
    Table.find?_foldl_insertNew Prod.fst Prod.snd (addressBindings databases) .empty key
  rwa [Table.find?_empty, Option.none_or, find?_addressBindings] at hfirst

/-- The kinds of look-up. -/
inductive LookUp where
  | liveSpace | laneSpace | service | database | databaseAt | host
deriving DecidableEq, Repr

/-- The indexes of a document, one for each kind of look-up. -/
structure Indexes (d : Document) where
  liveSpaces : Index (.index (·.id) d.liveSpaces) := {}
  laneSpaces : Index (.index (·.id) d.laneSpaces) := {}
  services : Index (.index (·.name) d.services) := {}
  databases : Index (.index (·.name) d.databases) := {}
  addresses : Index (addressTable d.databases) := {}
  hosts : Index (hostIndex d.liveSpaces d.laneSpaces) := {}

/-- The indexes after a look-up, which makes the one that it needs. -/
def Indexes.make {d : Document} (x : Indexes d) : LookUp → Indexes d
  | .liveSpace => { x with liveSpaces := x.liveSpaces.make }
  | .laneSpace => { x with laneSpaces := x.laneSpaces.make }
  | .service => { x with services := x.services.make }
  | .database => { x with databases := x.databases.make }
  | .databaseAt => { x with addresses := x.addresses.make }
  | .host => { x with hosts := x.hosts.make }

/-! ## Snapshots -/

/-- A view of a document. -/
structure Snapshot where
  document : Document
  /-- Zero until a store publishes the snapshot. A word of 64 bits is taken to be enough for all that
  a store publishes. -/
  version : Nat := 0
  indexes : Indexes document := {}

namespace Snapshot

/-- The unpublished snapshot of a document, valid or not. -/
def ofDocument (d : Document) : Snapshot where
  document := d

/-- The snapshot without any policy. -/
def empty : Snapshot := ofDocument {}

/-- The unpublished snapshot of a valid document. -/
def build (d : Document) : Except PolicyError Snapshot := do
  d.check
  return ofDocument d

/-- The snapshot under a version. -/
def withVersion (s : Snapshot) (version : Nat) : Snapshot := { s with version }

/-- The snapshot after a look-up. -/
def afterLookUp (s : Snapshot) (kind : LookUp) : Snapshot :=
  { s with indexes := s.indexes.make kind }

/-- The snapshot with every index made. -/
def warm (s : Snapshot) : Snapshot :=
  [.liveSpace, .laneSpace, .service, .database, .databaseAt, .host].foldl afterLookUp s

/-! ## Look-ups -/

/-- The live space of an id. -/
def liveSpace? (s : Snapshot) (id : String) : Option LiveSpace :=
  s.indexes.liveSpaces.get.find? id

/-- The lane space of an id. -/
def laneSpace? (s : Snapshot) (id : String) : Option LaneSpace :=
  s.indexes.laneSpaces.get.find? id

/-- The lane space for requests that name none. -/
def defaultLaneSpace? (s : Snapshot) : Option LaneSpace := s.document.laneSpaces.find? (·.isDefault)

/-- The service of a name. -/
def service? (s : Snapshot) (name : String) : Option Service := s.indexes.services.get.find? name

/-- The database cluster of a name. -/
def database? (s : Snapshot) (name : String) : Option Database :=
  s.indexes.databases.get.find? name

/-- The database cluster at an address, or, where none has it, at the host alone. -/
def databaseAt? (s : Snapshot) (host : String) (port : Option UInt16) : Option Database :=
  let addresses := s.indexes.addresses.get
  (addresses.find? (addressKey host port)).or
    (port.bind fun _ => addresses.find? (addressKey host none))

/-- What is known about a host. -/
def host? (s : Snapshot) (host : String) : Option HostPolicy := s.indexes.hosts.get.find? host

theorem liveSpace?_eq_find? (s : Snapshot) (id : String) :
    s.liveSpace? id = s.document.liveSpaces.find? (·.id = id) := by
  rw [liveSpace?, Index.get_eq, Table.find?_index]

theorem laneSpace?_eq_find? (s : Snapshot) (id : String) :
    s.laneSpace? id = s.document.laneSpaces.find? (·.id = id) := by
  rw [laneSpace?, Index.get_eq, Table.find?_index]

theorem service?_eq_find? (s : Snapshot) (name : String) :
    s.service? name = s.document.services.find? (·.name = name) := by
  rw [service?, Index.get_eq, Table.find?_index]

theorem database?_eq_find? (s : Snapshot) (name : String) :
    s.database? name = s.document.databases.find? (·.name = name) := by
  rw [database?, Index.get_eq, Table.find?_index]

/-! ## Changed documents -/

/-- The snapshot with other services. -/
def withServices (s : Snapshot) (services : List Service) : Snapshot :=
  ofDocument { s.document with services }

/-- The snapshot with other live spaces. -/
def withLiveSpaces (s : Snapshot) (liveSpaces : List LiveSpace) : Snapshot :=
  ofDocument { s.document with liveSpaces }

/-- The snapshot with other lane spaces. -/
def withLaneSpaces (s : Snapshot) (laneSpaces : List LaneSpace) : Snapshot :=
  ofDocument { s.document with laneSpaces }

/-- The snapshot with other database clusters. -/
def withDatabases (s : Snapshot) (databases : List Database) : Snapshot :=
  ofDocument { s.document with databases }

end Snapshot

end TrafficControl
