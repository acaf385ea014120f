import TrafficControl.Policy.Store
import TrafficControl.Proofs.Policy.Merge

/-!
# Changes of a store

A document passes its check exactly if it is valid (`Document.check_eq_ok_iff`). A store starts with
a valid document, and every change that it accepts leaves a valid one : the checks see to it for
spaces and clusters, and merging keeps the names of services distinct without a check
(`StoreChange.isValid_revise`). So after any run of changes the document in force is valid and can
be built again, and the version counts the changes that were accepted (`Store.isConsistent_run`).
What one change does is said by `Store.Answers` : it is refused and the store stays, or it has the
next document published, in which one list is new.
-/

namespace TrafficControl

/-! ## Valid documents -/

theorem firstRepeated?_eq_none_iff (seen keys : List String) :
    firstRepeated? seen keys = none ↔ keys.Nodup ∧ ∀ key ∈ keys, key ∉ seen := by
  induction keys generalizing seen with
  | nil => simp [firstRepeated?]
  | cons key keys ih =>
    by_cases h : key ∈ seen
    · simp [firstRepeated?, h]
    · simp only [firstRepeated?, h, if_false, ih, List.nodup_cons, List.mem_cons, forall_eq_or_imp,
        not_or, not_false_eq_true, true_and]
      constructor
      · rintro ⟨hnodup, hfresh⟩
        exact ⟨⟨fun hkey => (hfresh key hkey).1 rfl, hnodup⟩, fun k hk => (hfresh k hk).2⟩
      · rintro ⟨⟨hkey, hnodup⟩, hfresh⟩
        exact ⟨hnodup, fun k hk => ⟨fun heq => hkey (heq ▸ hk), hfresh k hk⟩⟩

theorem checkDistinct_eq_ok_iff {keys : List String} {error : String → PolicyError} :
    checkDistinct keys error = .ok () ↔ keys.Nodup := by
  have hnone := firstRepeated?_eq_none_iff [] keys
  simp only [List.not_mem_nil, not_false_eq_true, implies_true, and_true] at hnone
  rw [← hnone, checkDistinct]
  cases firstRepeated? [] keys <;> simp

/-- A check that comes after another one passes if both do. -/
theorem check_bind_eq_ok_iff {first rest : Except PolicyError Unit} :
    (first >>= fun _ => rest) = .ok () ↔ first = .ok () ∧ rest = .ok () := by
  cases first with
  | error e => exact ⟨fun h => (nomatch h), fun h => (nomatch h.1)⟩
  | ok a => exact ⟨fun h => ⟨rfl, h⟩, fun h => h.2⟩

/-- Whether the ids of lane spaces are distinct, and none of them has two default lanes. -/
def AreLaneSpaces (spaces : List LaneSpace) : Prop :=
  (spaces.map (·.id)).Nodup ∧ ∀ s ∈ spaces, s.lanes.countP (·.isDefault) ≤ 1

theorem checkLaneSpaces_eq_ok_iff {spaces : List LaneSpace} :
    checkLaneSpaces spaces = .ok () ↔ AreLaneSpaces spaces := by
  rw [checkLaneSpaces, check_bind_eq_ok_iff, checkDistinct_eq_ok_iff, AreLaneSpaces]
  refine and_congr_right fun _ => ?_
  cases h : spaces.find? fun s => 1 < s.lanes.countP (·.isDefault) with
  | some s =>
    have hs : 1 < s.lanes.countP (·.isDefault) := by simpa using List.find?_some h
    refine iff_of_false (fun hok => nomatch hok) fun hall => ?_
    have hle := hall s (List.mem_of_find?_eq_some h)
    omega
  | none => exact iff_of_true rfl fun s hs => by simpa using List.find?_eq_none.1 h s hs

namespace Document

/-- Whether the names of each kind are distinct, and no lane space has two default lanes. -/
structure IsValid (d : Document) : Prop where
  liveSpaces : (d.liveSpaces.map (·.id)).Nodup
  laneSpaces : AreLaneSpaces d.laneSpaces
  services : (d.services.map (·.name)).Nodup
  databases : (d.databases.map (·.name)).Nodup

theorem check_eq_ok_iff {d : Document} : d.check = .ok () ↔ d.IsValid := by
  simp only [check, check_bind_eq_ok_iff, checkLiveSpaces, checkLaneSpaces_eq_ok_iff, checkServices,
    checkDatabases, checkDistinct_eq_ok_iff]
  exact ⟨fun ⟨hlive, hlane, hservices, hdatabases⟩ => ⟨hlive, hlane, hservices, hdatabases⟩,
    fun ⟨hlive, hlane, hservices, hdatabases⟩ => ⟨hlive, hlane, hservices, hdatabases⟩⟩

end Document

namespace Snapshot

/-- Whether the snapshot was built from a document that passed its check. It may have been looked up
in since. -/
def IsBuilt (s : Snapshot) : Prop :=
  ∃ d t, build d = .ok t ∧ ∃ kinds : List LookUp, s = kinds.foldl afterLookUp t

theorem document_foldl_afterLookUp (s : Snapshot) (kinds : List LookUp) :
    (kinds.foldl afterLookUp s).document = s.document := by
  induction kinds generalizing s with
  | nil => rfl
  | cons kind kinds ih => exact ih (s.afterLookUp kind)

/-- A document is built exactly if it is valid, and into the snapshot that is a view of it. -/
theorem build_eq_ok_iff {d : Document} {s : Snapshot} :
    build d = .ok s ↔ d.IsValid ∧ ofDocument d = s := by
  rw [← Document.check_eq_ok_iff, build]
  cases d.check with
  | error e => exact ⟨fun h => (nomatch h), fun h => (nomatch h.1)⟩
  | ok a => exact ⟨fun h => ⟨rfl, Except.ok.inj h⟩, fun h => congrArg _ h.2⟩

theorem build_of_isValid {d : Document} (h : d.IsValid) : build d = .ok (ofDocument d) :=
  build_eq_ok_iff.2 ⟨h, rfl⟩

theorem IsBuilt.isValid {s : Snapshot} (h : s.IsBuilt) : s.document.IsValid := by
  obtain ⟨d, t, h, kinds, rfl⟩ := h
  obtain ⟨hvalid, rfl⟩ := build_eq_ok_iff.1 h
  rw [document_foldl_afterLookUp]
  exact hvalid

end Snapshot

/-! ## What a change does -/

namespace StoreChange

/-- What becomes of a document by a change. -/
def revise (d : Document) : StoreChange → Document
  | merge m updates deletes owner =>
    { d with services := (mergeServices m d.services updates deletes owner).map (·.service) }
  | liveSpaces spaces => { d with liveSpaces := spaces }
  | laneSpaces spaces => { d with laneSpaces := spaces }
  | databases clusters => { d with databases := clusters }
  | publish s => s.document

/-- Whether a store may accept a change. -/
def IsValid : StoreChange → Prop
  | liveSpaces spaces => (spaces.map (·.id)).Nodup
  | laneSpaces spaces => AreLaneSpaces spaces
  | databases clusters => (clusters.map (·.name)).Nodup
  | merge .. | publish _ => True

/-- Whether a change merges services in one of the two known ways, or publishes a snapshot only if
that was built. -/
def IsRegular : StoreChange → Prop
  | merge m _ _ _ => m = .replace ∨ m = .owned
  | publish s => s.IsBuilt
  | liveSpaces _ | laneSpaces _ | databases _ => True

/-- A change that may be accepted makes a valid document of a valid one. -/
theorem isValid_revise {c : StoreChange} {d : Document} (hc : c.IsRegular) (hvalid : c.IsValid)
    (h : d.IsValid) : (c.revise d).IsValid := by
  obtain ⟨hlive, hlane, hservices, hdatabases⟩ := h
  cases c with
  | merge m updates deletes owner =>
    have hm : m.KeepsNames := by
      rcases hc with rfl | rfl
      · exact Merger.keepsNames_replace
      · exact Merger.keepsNames_owned
    have hmerged := nodup_mergeServices hm updates deletes owner hservices
    exact ⟨hlive, hlane, by simpa [revise, Function.comp_def] using hmerged, hdatabases⟩
  | liveSpaces spaces => exact ⟨hvalid, hlane, hservices, hdatabases⟩
  | laneSpaces spaces => exact ⟨hlive, hvalid, hservices, hdatabases⟩
  | databases clusters => exact ⟨hlive, hlane, hservices, hvalid⟩
  | publish s => exact Snapshot.IsBuilt.isValid hc

end StoreChange

namespace Store

variable {s : Store} {c : StoreChange}

/-- The store after a change, which stays as it is where the change is refused. -/
def step (s : Store) (c : StoreChange) : Store :=
  match s.apply c with
  | .ok next => next
  | .error _ => s

/-- Whether a store has the next version of a document in force. -/
structure Publishes (s next : Store) (d : Document) : Prop where
  document : next.current.document = d
  version : next.version = s.version + 1
  watched : next.watched = next.version

/-- What a store does about a change. -/
structure Answers (s : Store) (c : StoreChange) : Prop where
  accepts : c.IsValid → ∃ next, s.apply c = .ok next ∧ s.step c = next ∧
    s.Publishes next (c.revise s.current.document)
  refuses : ¬c.IsValid → (∃ e, s.apply c = .error e) ∧ s.step c = s

/-- A change after a check is made exactly if that passes. -/
theorem answers_of_check (check : Except PolicyError Unit) {next : Store}
    (happly : s.apply c = do check; return next) (hcheck : check = .ok () ↔ c.IsValid)
    (h : s.Publishes next (c.revise s.current.document)) : s.Answers c := by
  cases check with
  | ok a =>
    have hnext : s.apply c = .ok next := happly
    have hvalid := hcheck.1 rfl
    exact ⟨fun _ => ⟨next, hnext, by rw [step, hnext], h⟩, fun hnot => absurd hvalid hnot⟩
  | error e =>
    have herror : s.apply c = .error e := happly
    exact ⟨fun hvalid => (nomatch hcheck.2 hvalid), fun _ => ⟨⟨e, herror⟩, by rw [step, herror]⟩⟩

/-- A store publishes what a valid change makes of its document, and refuses any other change. -/
theorem answers (s : Store) (c : StoreChange) : s.Answers c := by
  cases c with
  | merge m updates deletes owner =>
    exact answers_of_check (.ok ()) rfl ⟨fun _ => trivial, fun _ => rfl⟩ ⟨rfl, rfl, rfl⟩
  | liveSpaces spaces => exact answers_of_check _ rfl checkDistinct_eq_ok_iff ⟨rfl, rfl, rfl⟩
  | laneSpaces spaces => exact answers_of_check _ rfl checkLaneSpaces_eq_ok_iff ⟨rfl, rfl, rfl⟩
  | databases clusters => exact answers_of_check _ rfl checkDistinct_eq_ok_iff ⟨rfl, rfl, rfl⟩
  | publish next =>
    exact answers_of_check (.ok ()) rfl ⟨fun _ => trivial, fun _ => rfl⟩ ⟨rfl, rfl, rfl⟩

/-- An accepted change publishes what it makes of the document. -/
theorem document_of_apply {next : Store} (h : s.apply c = .ok next) :
    next.current.document = c.revise s.current.document := by
  by_cases hvalid : c.IsValid
  · obtain ⟨next', happly, -, hpublishes⟩ := (s.answers c).accepts hvalid
    obtain rfl : next' = next := Except.ok.inj (happly.symm.trans h)
    exact hpublishes.document
  · obtain ⟨⟨e, herror⟩, -⟩ := (s.answers c).refuses hvalid
    exact nomatch herror.symm.trans h

/-! ## Runs -/

/-- Whether a store accepts a change. -/
def accepts (s : Store) (c : StoreChange) : Bool := (s.apply c).isOk

/-- The store after a run of changes. -/
def run (s : Store) (cs : List StoreChange) : Store := cs.foldl step s

/-- How many changes of a run are accepted. -/
def accepted (s : Store) : List StoreChange → Nat
  | [] => 0
  | c :: cs => (s.accepts c).toNat + (s.step c).accepted cs

/-- What holds of a store that has accepted so many changes. -/
structure IsConsistent (s : Store) (changes : Nat) : Prop where
  valid : s.current.document.IsValid
  /-- The document in force can be built again. -/
  rebuilds : ∃ t, Snapshot.build s.current.document = .ok t ∧ t.document = s.current.document
  version : s.version = 1 + changes
  watched : s.watched = s.version

theorem isConsistent_start {s : Snapshot} (h : s.IsBuilt) : (start s).IsConsistent 0 :=
  ⟨h.isValid, ⟨_, Snapshot.build_of_isValid h.isValid, rfl⟩, rfl, rfl⟩

theorem isConsistent_step {n : Nat} (hc : c.IsRegular) (h : s.IsConsistent n) :
    (s.step c).IsConsistent (n + (s.accepts c).toNat) := by
  by_cases hvalid : c.IsValid
  · obtain ⟨next, happly, hstep, hdocument, hversion, hwatched⟩ := (s.answers c).accepts hvalid
    have haccepts : s.accepts c = true := by rw [accepts, happly]; rfl
    have hnext := StoreChange.isValid_revise hc hvalid h.valid
    rw [← hdocument] at hnext
    rw [hstep, haccepts]
    refine ⟨hnext, ⟨_, Snapshot.build_of_isValid hnext, rfl⟩, ?_, hwatched⟩
    rw [hversion, h.version]
    rfl
  · obtain ⟨⟨e, happly⟩, hstep⟩ := (s.answers c).refuses hvalid
    have haccepts : s.accepts c = false := by rw [accepts, happly]; rfl
    rwa [hstep, haccepts]

/-- After any run of regular changes on a store that starts with a snapshot that was built, the
document in force is valid and can be built again, and the version counts the changes that were
accepted. Every further change is answered. -/
theorem isConsistent_run {s : Snapshot} (hs : s.IsBuilt) {cs : List StoreChange}
    (hcs : ∀ c ∈ cs, c.IsRegular) :
    ((start s).run cs).IsConsistent ((start s).accepted cs) ∧
      ∀ c, ((start s).run cs).Answers c := by
  suffices hrun : ∀ (cs : List StoreChange) (s : Store) (n : Nat), (∀ c ∈ cs, c.IsRegular) →
      s.IsConsistent n → (s.run cs).IsConsistent (n + s.accepted cs) by
    have hstart := hrun cs (start s) 0 hcs (isConsistent_start hs)
    rw [Nat.zero_add] at hstart
    exact ⟨hstart, answers _⟩
  clear hcs cs
  intro cs
  induction cs with
  | nil => exact fun s n _ h => h
  | cons c cs ih =>
    intro s n hcs h
    have hstep := isConsistent_step (hcs c List.mem_cons_self) h
    have hrest := ih (s.step c) _ (fun d hd => hcs d (List.mem_cons_of_mem _ hd)) hstep
    rwa [Nat.add_assoc] at hrest

end Store

/-! ## A run with accepted and refused changes -/

namespace Deliveries

/-- Two services, the second of them of two owners. -/
def first : Snapshot :=
  .ofDocument { services := [{ name := "a" }, { name := "b", owners := ["x", "y"] }] }

/-- A batch that names a service twice and withdraws one of two owners, spaces of the same id, a
space with two default lanes, a cluster, and the first snapshot again, in which a service was looked
up meanwhile. -/
def changes : List StoreChange := [
  .merge .owned [{ name := "a" }, { name := "c" }, { name := "a", owners := ["z"] }] ["a", "b"] "x",
  .liveSpaces [{ id := "live" }, { id := "live" }],
  .laneSpaces [{ id := "lanes", lanes := [
    { code := "base", isDefault := true }, { code := "gray", isDefault := true }] }],
  .databases [{ name := "ledger" }],
  .publish (first.afterLookUp .service)]

theorem build_first : Snapshot.build first.document = .ok first :=
  Snapshot.build_of_isValid ⟨by decide, ⟨by decide, by decide⟩, by decide, by decide⟩

theorem isBuilt_first : first.IsBuilt := ⟨_, _, build_first, [], rfl⟩

theorem isRegular_of_mem_changes : ∀ c ∈ changes, c.IsRegular := by
  have hbuilt : (first.afterLookUp .service).IsBuilt := ⟨_, _, build_first, [.service], rfl⟩
  simp [changes, StoreChange.IsRegular, hbuilt]

end Deliveries

open Deliveries in
/-- Three of the changes are accepted, and the store is then at version four. -/
theorem isConsistent_run_deliveries :
    ((Store.start first).run changes).IsConsistent 3 ∧
      ((Store.start first).run changes).Answers (.databases []) := by
  obtain ⟨hrun, hnext⟩ := Store.isConsistent_run isBuilt_first isRegular_of_mem_changes
  have hthree : (Store.start first).accepted changes = 3 := by decide +kernel
  exact ⟨hthree ▸ hrun, hnext _⟩

end TrafficControl
