import TrafficControl.Proofs.Policy.Store

/-!
# Look-ups are scans

A look-up reads an index that may have been made long before, or is made by the look-up itself. All
the same it finds what a scan of the lists finds : the first element with the key. At an address
with a port that is the first cluster with exactly this address, and only where no cluster has it
the first one at the host alone (`Snapshot.scans_document`).

`Snapshot.IsReached` follows the lists through everything that can be done with a snapshot : it is
built, looked up in, changed, and published by a store. The lists are those of the document that the
snapshot is a view of (`Snapshot.IsReached.document_eq`), so the look-ups that came before do not
show (`Snapshot.IsReached.scans`).
-/

namespace TrafficControl

namespace Database

/-- Whether an address of the cluster, without the blanks around it and in lower case, is the given
one. -/
def HasAddress (d : Database) (address : String) : Prop :=
  ∃ a ∈ d.addresses, Text.asciiLowercase (Text.trimBlanks a) = address

instance (d : Database) (address : String) : Decidable (d.HasAddress address) :=
  inferInstanceAs (Decidable (∃ a ∈ d.addresses, _))

theorem mem_addressKeys_iff {d : Database} {address : String} :
    address ∈ d.addressKeys ↔ d.HasAddress address := List.mem_map

end Database

/-- The first cluster that has an address. -/
def Document.databaseWith? (d : Document) (address : String) : Option Database :=
  d.databases.find? (·.HasAddress address)

namespace Snapshot

variable {s : Snapshot} {d : Document}

/-! ## What a look-up finds -/

/-- Whether every look-up finds what a scan of the lists of a document finds. -/
structure Scans (s : Snapshot) (d : Document) : Prop where
  liveSpace : ∀ id, s.liveSpace? id = d.liveSpaces.find? (·.id = id)
  laneSpace : ∀ id, s.laneSpace? id = d.laneSpaces.find? (·.id = id)
  service : ∀ name, s.service? name = d.services.find? (·.name = name)
  database : ∀ name, s.database? name = d.databases.find? (·.name = name)
  /-- The order of the clusters does not matter between an address with its port and one without. -/
  databaseAt_port : ∀ host port, port ≠ 0 → s.databaseAt? host (some port) =
    (d.databaseWith? s!"{Text.asciiLowercase host}:{port.toNat}").or
      (d.databaseWith? (Text.asciiLowercase host))
  databaseAt_host : ∀ host port, port = none ∨ port = some 0 →
    s.databaseAt? host port = d.databaseWith? (Text.asciiLowercase host)

/-- A key of an address finds the first cluster with this address. -/
theorem find?_addresses (s : Snapshot) (address : String) :
    s.indexes.addresses.get.find? address = s.document.databaseWith? address := by
  rw [Index.get_eq, find?_addressTable, Document.databaseWith?]
  simp only [Database.mem_addressKeys_iff]

theorem addressKey_of_ne_zero (host : String) {port : UInt16} (h : port ≠ 0) :
    addressKey host (some port) = s!"{Text.asciiLowercase host}:{port.toNat}" := by
  have hport : (some port).filter (· ≠ 0) = some port := by simp [h]
  rw [addressKey, hport]

theorem addressKey_of_none (host : String) {port : Option UInt16}
    (h : port = none ∨ port = some 0) : addressKey host port = Text.asciiLowercase host := by
  rcases h with rfl | rfl <;> rfl

/-- Whatever indexes a snapshot has made, it finds what a scan of its own lists finds. -/
theorem scans_document (s : Snapshot) : s.Scans s.document where
  liveSpace := s.liveSpace?_eq_find?
  laneSpace := s.laneSpace?_eq_find?
  service := s.service?_eq_find?
  database := s.database?_eq_find?
  databaseAt_port host port hport := by
    rw [databaseAt?, Option.bind_some, find?_addresses, find?_addresses,
      addressKey_of_ne_zero host hport, addressKey_of_none host (.inl rfl)]
  databaseAt_host host port hport := by
    rw [databaseAt?, find?_addresses, find?_addresses, addressKey_of_none host hport,
      addressKey_of_none host (.inl rfl)]
    -- A port of zero looks for the host alone a second time.
    rcases hport with rfl | rfl
    · exact Option.or_none ..
    · exact Option.or_self ..

/-! ## Snapshots with a history -/

/-- Whether a snapshot is reached by building, looking up, changing lists and publishing, and the
lists that it ought to have by then. -/
inductive IsReached : Snapshot → Document → Prop
  | empty : IsReached .empty {}
  | build {s : Snapshot} {d : Document} (h : Snapshot.build d = .ok s) : IsReached s d
  | lookUp {s : Snapshot} {d : Document} (h : IsReached s d) (kind : LookUp) :
    IsReached (s.afterLookUp kind) d
  | withServices {s : Snapshot} {d : Document} (h : IsReached s d) (services : List Service) :
    IsReached (s.withServices services) { d with services }
  | withLiveSpaces {s : Snapshot} {d : Document} (h : IsReached s d) (liveSpaces : List LiveSpace) :
    IsReached (s.withLiveSpaces liveSpaces) { d with liveSpaces }
  | withLaneSpaces {s : Snapshot} {d : Document} (h : IsReached s d) (laneSpaces : List LaneSpace) :
    IsReached (s.withLaneSpaces laneSpaces) { d with laneSpaces }
  | withDatabases {s : Snapshot} {d : Document} (h : IsReached s d) (databases : List Database) :
    IsReached (s.withDatabases databases) { d with databases }
  /-- A store starts with the snapshot. -/
  | start {s : Snapshot} {d : Document} (h : IsReached s d) : IsReached (Store.start s).current d
  /-- A store accepts a change. -/
  | change {store next : Store} {c : StoreChange} {d : Document} (h : IsReached store.current d)
    (hpublish : ∀ t, c = .publish t → IsReached t t.document) (happly : store.apply c = .ok next) :
    IsReached next.current (c.revise d)

/-- The lists of a snapshot are those that its history leaves. -/
theorem IsReached.document_eq (h : s.IsReached d) : s.document = d := by
  induction h with
  | empty => rfl
  | build h =>
    obtain ⟨-, rfl⟩ := build_eq_ok_iff.1 h
    rfl
  | lookUp _ kind ih => exact ih
  | withServices _ services ih => exact congrArg (fun d : Document => { d with services }) ih
  | withLiveSpaces _ liveSpaces ih =>
    exact congrArg (fun d : Document => { d with liveSpaces }) ih
  | withLaneSpaces _ laneSpaces ih =>
    exact congrArg (fun d : Document => { d with laneSpaces }) ih
  | withDatabases _ databases ih => exact congrArg (fun d : Document => { d with databases }) ih
  | start _ ih => exact ih
  | change _ _ happly ih =>
    rw [Store.document_of_apply happly, ih]

/-- Every look-up in a snapshot finds what a scan of its lists finds, whatever was looked up before
in the snapshots that it comes from. -/
theorem IsReached.scans (h : s.IsReached d) : s.Scans d := h.document_eq ▸ s.scans_document

end Snapshot

/-! ## Clusters that share a host -/

namespace SharedHost

def bare : Database := { name := "ledger", addresses := ["db.example"] }

/-- A later cluster of the same name, at a port of the same host. -/
def exact : Database := { name := "ledger", addresses := [" DB.example:5432 "] }

/-- The clusters are added to a snapshot in which clusters were looked up before, and published. -/
def store : Store :=
  .start (((Snapshot.empty.afterLookUp .database).afterLookUp .databaseAt).withDatabases
    [bare, exact])

theorem isReached : store.current.IsReached { databases := [bare, exact] } :=
  .start (.withDatabases (.lookUp (.lookUp .empty .database) .databaseAt) [bare, exact])

end SharedHost

open SharedHost in
/-- The name finds the first cluster, the address with the port the second one, and any other port
the first one again. -/
theorem scans_sharedHost :
    store.current.IsReached { databases := [bare, exact] } ∧
      store.current.database? "ledger" = some bare ∧
      store.current.databaseAt? "Db.Example" (some 5432) = some exact ∧
      store.current.databaseAt? "Db.Example" (some 5433) = some bare := by
  have hscans := isReached.scans
  exact ⟨isReached, (hscans.database _).trans (by decide),
    (hscans.databaseAt_port _ _ (by decide)).trans (by decide +kernel),
    (hscans.databaseAt_port _ _ (by decide)).trans (by decide +kernel)⟩

end TrafficControl
