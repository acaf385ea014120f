import TrafficControl.Proofs.Policy.Store

/-!
# Services and their owners

Several owners deliver services to one store, under `Merger.owned`. An owner supports a service as
long as the latest of its batches that name the service is one that updates it (`supports`). After
any run of such batches a service is there exactly if some owner supports it, and its owners are
exactly these, each of them once (`Store.owners_run`). So no owner takes away what another one
still delivers, and nobody is left with what all have withdrawn.

The history is carried along service by service (`Service.IsCredited`). A batch by one owner leaves
what the others support alone, and it decides for its own services by itself, whatever the history.
-/

namespace TrafficControl

/-! ## The owners of one service -/

namespace Service

variable {s : Service} {owner o : String}

theorem mem_owners_addOwner (h : owner ≠ "") :
    o ∈ (s.addOwner owner).owners ↔ o = owner ∨ o ∈ s.owners := by
  unfold addOwner hasOwner
  split
  · next hknown =>
    have hmem : owner ∈ s.owners := by simpa [h] using hknown
    exact ⟨.inr, fun ho => ho.elim (fun heq => heq ▸ hmem) id⟩
  · simp [or_comm]

theorem nodup_owners_addOwner (h : s.owners.Nodup) : (s.addOwner owner).owners.Nodup := by
  unfold addOwner hasOwner
  split
  · exact h
  · next hnew =>
    have hnotMem : owner ∉ s.owners := fun hmem => hnew (.inr (by simpa using hmem))
    refine List.nodup_append.2 ⟨h, by simp, ?_⟩
    rintro a ha b hb rfl
    exact hnotMem (List.mem_singleton.1 hb ▸ ha)

theorem mem_owners_removeOwner : o ∈ (s.removeOwner owner).owners ↔ o ∈ s.owners ∧ o ≠ owner := by
  simp [removeOwner]

theorem nodup_owners_removeOwner (h : s.owners.Nodup) : (s.removeOwner owner).owners.Nodup :=
  h.sublist List.filter_sublist

end Service

/-! ## Histories of batches -/

namespace StoreChange

/-- Whether a change is a batch in which an owner updates a service. -/
def updatesFor (owner name : String) : StoreChange → Bool
  | merge _ updates _ by_ => by_ = owner && updates.any (·.name = name)
  | liveSpaces _ | laneSpaces _ | databases _ | publish _ => false

/-- Whether a change is a batch in which an owner updates or deletes a service. -/
def namesFor (owner name : String) : StoreChange → Bool
  | merge _ updates deletes by_ =>
    by_ = owner && (updates.any (·.name = name) || deletes.contains name)
  | liveSpaces _ | laneSpaces _ | databases _ | publish _ => false

/-- Whether a change merges services by their owners, on behalf of an owner with a name and without
owners that the services bring along, or leaves services alone. -/
def IsOwned : StoreChange → Prop
  | merge m updates _ owner => m = .owned ∧ owner ≠ "" ∧ ∀ u ∈ updates, u.owners = []
  | liveSpaces _ | laneSpaces _ | databases _ => True
  | publish _ => False

end StoreChange

/-- Whether the latest of the batches in which an owner names a service updates it. -/
def supports (cs : List StoreChange) (owner name : String) : Bool :=
  (cs.filter (·.namesFor owner name)).getLast?.any (·.updatesFor owner name)

section

variable {cs : List StoreChange} {c : StoreChange} {m : Merger} {updates : List Service}
  {deletes : List String} {owner name o : String}

theorem supports_append_of_names (h : c.namesFor o name) :
    supports (cs ++ [c]) o name = c.updatesFor o name := by
  simp [supports, List.filter_append, h]

theorem supports_append_of_not_names (h : ¬c.namesFor o name) :
    supports (cs ++ [c]) o name = supports cs o name := by
  simp [supports, List.filter_append, h]

/-- A batch decides for its owner on the services that it names, and on nothing else. -/
theorem supports_append_merge :
    supports (cs ++ [.merge m updates deletes owner]) o name ↔
      if o = owner ∧ ((∃ u ∈ updates, u.name = name) ∨ name ∈ deletes) then
        ∃ u ∈ updates, u.name = name
      else supports cs o name := by
  split
  · next h =>
    have hnames : (StoreChange.merge m updates deletes owner).namesFor o name := by
      simpa [StoreChange.namesFor, h.1] using h.2
    rw [supports_append_of_names hnames]
    simp [StoreChange.updatesFor, h.1]
  · next h =>
    have hnames : ¬(StoreChange.merge m updates deletes owner).namesFor o name := by
      simp only [StoreChange.namesFor, Bool.and_eq_true, decide_eq_true_eq, Bool.or_eq_true,
        List.any_eq_true, List.contains_iff_mem]
      exact fun hnames => h ⟨hnames.1.symm, hnames.2⟩
    rw [supports_append_of_not_names hnames]

theorem supports_of_updated (h : ∃ u ∈ updates, u.name = name) :
    supports (cs ++ [.merge m updates deletes owner]) o name ↔ o = owner ∨ supports cs o name := by
  rw [supports_append_merge]
  by_cases ho : o = owner <;> simp [ho, h]

theorem supports_of_deleted (hupdates : ¬∃ u ∈ updates, u.name = name) (h : name ∈ deletes) :
    supports (cs ++ [.merge m updates deletes owner]) o name ↔ supports cs o name ∧ o ≠ owner := by
  rw [supports_append_merge]
  by_cases ho : o = owner <;> simp [ho, hupdates, h]

theorem supports_of_unnamed (hupdates : ¬∃ u ∈ updates, u.name = name) (h : name ∉ deletes) :
    supports (cs ++ [.merge m updates deletes owner]) o name ↔ supports cs o name := by
  rw [supports_append_merge]
  simp [hupdates, h]

/-- A batch without an update of a service brings it no support. -/
theorem supports_of_not_updated (hupdates : ¬∃ u ∈ updates, u.name = name)
    (h : supports (cs ++ [.merge m updates deletes owner]) o name) : supports cs o name := by
  by_cases hdelete : name ∈ deletes
  · exact ((supports_of_deleted hupdates hdelete).1 h).1
  · exact (supports_of_unnamed hupdates hdelete).1 h

end

/-! ## One batch -/

/-- Whether a service has owners, and has exactly those that support it. -/
structure Service.IsCredited (v : Service) (cs : List StoreChange) : Prop where
  ne_nil : v.owners ≠ []
  nodup : v.owners.Nodup
  mem_iff : ∀ o, o ∈ v.owners ↔ supports cs o v.name

/-- An update by an owner adds this one to the owners so far. -/
theorem Merger.owners_onUpdate_owned (v u : Service) (owner : String) :
    (owned.onUpdate v u owner).owners = (v.addOwner owner).owners := by
  unfold owned adopt Service.addOwner Service.hasOwner
  dsimp only
  split <;> rfl

section

variable {cs : List StoreChange} {updates : List Service} {deletes : List String} {owner : String}
  {u v : Service}

/-- What a batch makes of a service has the owners that support it after the batch. -/
theorem isCredited_mergeOne (howner : owner ≠ "") (h : v.IsCredited cs) {x : Merged}
    (hx : mergeOne .owned (latestUpdates updates) deletes owner v = some x) :
    x.service.IsCredited (cs ++ [.merge .owned updates deletes owner]) := by
  have hname := name_mergeOne Merger.keepsNames_owned hx
  unfold mergeOne at hx
  split at hx
  · next u hu =>
    have hupdated : ∃ u ∈ updates, u.name = v.name :=
      ⟨u, mem_of_find?_latestUpdates hu, name_of_find?_latestUpdates hu⟩
    have howners : x.service.owners = (v.addOwner owner).owners := by
      rw [← Option.some.inj hx, Merger.owners_onUpdate_owned]
    refine ⟨?_, ?_, fun o => ?_⟩
    · exact howners ▸ List.ne_nil_of_mem ((Service.mem_owners_addOwner howner).2 (.inl rfl))
    · exact howners ▸ Service.nodup_owners_addOwner h.nodup
    · rw [howners, hname, supports_of_updated hupdated, Service.mem_owners_addOwner howner,
        h.mem_iff]
  · next hnone =>
    have hnot := find?_latestUpdates_eq_none_iff.1 hnone
    split at hx
    · next hdelete =>
      obtain ⟨kept, hkept, rfl⟩ := Option.map_eq_some_iff.1 hx
      rw [Merger.onDelete_owned_eq] at hkept
      split at hkept
      · exact nomatch hkept
      · next hleft =>
        obtain rfl := Option.some.inj hkept
        refine ⟨hleft, Service.nodup_owners_removeOwner h.nodup, fun o => ?_⟩
        rw [hname, supports_of_deleted hnot hdelete, Service.mem_owners_removeOwner, h.mem_iff]
    · next hkeep =>
      obtain rfl := Option.some.inj hx
      exact ⟨h.ne_nil, h.nodup, fun o => by rw [supports_of_unnamed hnot hkeep, h.mem_iff]⟩

/-- A service that some owner supports after a batch is not removed by it. -/
theorem exists_mergeOne (h : v.IsCredited cs) {o : String}
    (ho : supports (cs ++ [.merge .owned updates deletes owner]) o v.name) :
    ∃ x, mergeOne .owned (latestUpdates updates) deletes owner v = some x := by
  unfold mergeOne
  split
  · exact ⟨_, rfl⟩
  · next hnone =>
    have hnot := find?_latestUpdates_eq_none_iff.1 hnone
    split
    · next hdelete =>
      rw [supports_of_deleted hnot hdelete, ← h.mem_iff, ← Service.mem_owners_removeOwner] at ho
      rw [Merger.onDelete_owned_eq, if_neg (List.ne_nil_of_mem ho)]
      exact ⟨_, rfl⟩
    · exact ⟨_, rfl⟩

/-- A service that a batch adds has the owner of the batch, who alone supports it. -/
theorem isCredited_onAdd (howner : owner ≠ "") (hu : u ∈ updates) (howners : u.owners = [])
    (hnew : ∀ o, ¬supports cs o u.name) :
    (Merger.owned.onAdd u owner).IsCredited (cs ++ [.merge .owned updates deletes owner]) := by
  have hadd : Merger.owned.onAdd u owner = u.addOwner owner := rfl
  have hmem : ∀ o, o ∈ (u.addOwner owner).owners ↔ o = owner := fun o => by
    simp [Service.mem_owners_addOwner howner, howners]
  rw [hadd]
  refine ⟨List.ne_nil_of_mem ((hmem owner).2 rfl), ?_, fun o => ?_⟩
  · exact Service.nodup_owners_addOwner (howners ▸ List.nodup_nil)
  · rw [hmem, Service.name_addOwner, supports_of_updated ⟨u, hu, rfl⟩]
    exact ⟨.inl, fun ho => ho.resolve_right (hnew o)⟩

end

/-! ## Runs -/

/-- Whether the services of a list are those that some owner supports. -/
structure Credits (services : List Service) (cs : List StoreChange) : Prop where
  nodup : (services.map (·.name)).Nodup
  isCredited : ∀ v ∈ services, v.IsCredited cs
  present : ∀ o name, supports cs o name → ∃ v ∈ services, v.name = name

theorem credits_nil : Credits [] [] := ⟨by simp, by simp, by simp [supports]⟩

theorem Credits.merge {services updates : List Service} {deletes : List String} {owner : String}
    {cs : List StoreChange} (h : Credits services cs) (howner : owner ≠ "")
    (howners : ∀ u ∈ updates, u.owners = []) :
    Credits ((mergeServices .owned services updates deletes owner).map (·.service))
      (cs ++ [.merge .owned updates deletes owner]) where
  nodup := by
    simpa [Function.comp_def] using
      nodup_mergeServices Merger.keepsNames_owned updates deletes owner h.nodup
  isCredited v hv := by
    obtain ⟨x, hx, rfl⟩ := List.mem_map.1 hv
    rcases mem_mergeServices.1 hx with ⟨v, hv, hx⟩ | ⟨b, hb, hnew, rfl⟩
    · exact isCredited_mergeOne howner (h.isCredited v hv) hx
    · have hfind := Table.find?_eq_some_iff.2 hb
      have hu := mem_of_find?_latestUpdates hfind
      refine isCredited_onAdd howner hu (howners _ hu) fun o ho => ?_
      obtain ⟨v, hv, hname⟩ := h.present o _ ho
      exact hnew v hv (hname.trans (name_of_find?_latestUpdates hfind))
  present o name ho := by
    by_cases hold : ∃ v ∈ services, v.name = name
    · obtain ⟨v, hv, rfl⟩ := hold
      obtain ⟨x, hx⟩ := exists_mergeOne (h.isCredited v hv) ho
      exact ⟨x.service, List.mem_map_of_mem (mem_mergeServices.2 (.inl ⟨v, hv, hx⟩)),
        name_mergeOne Merger.keepsNames_owned hx⟩
    · have hbefore : ¬supports cs o name := fun hs => hold (h.present o name hs)
      cases hfind : (latestUpdates updates).find? name with
      | none =>
        have hnot := find?_latestUpdates_eq_none_iff.1 hfind
        exact absurd (supports_of_not_updated hnot ho) hbefore
      | some u =>
        have hnew : ∀ v ∈ services, v.name ≠ name := fun v hv hname => hold ⟨v, hv, hname⟩
        have hadded : ⟨Merger.owned.onAdd u owner, false⟩ ∈
            mergeServices .owned services updates deletes owner :=
          mem_mergeServices.2 (.inr ⟨_, Table.find?_eq_some_iff.1 hfind, hnew, rfl⟩)
        refine ⟨_, List.mem_map_of_mem hadded, ?_⟩
        exact (Merger.keepsNames_owned.onAdd u owner).trans (name_of_find?_latestUpdates hfind)

/-- What leaves the services alone and names none of them leaves their support alone, too. -/
theorem Credits.unnamed {services : List Service} {cs : List StoreChange} {c : StoreChange}
    (h : Credits services cs) (hc : ∀ o name, ¬c.namesFor o name) :
    Credits services (cs ++ [c]) where
  nodup := h.nodup
  isCredited v hv := by
    obtain ⟨hne, hnodup, hmem⟩ := h.isCredited v hv
    exact ⟨hne, hnodup, fun o => by rw [supports_append_of_not_names (hc o v.name), hmem]⟩
  present o name ho := h.present o name (by rwa [supports_append_of_not_names (hc o name)] at ho)

namespace Store

/-- A change that revises everything but the services of a document leaves them alone. -/
theorem services_step {s : Store} {c : StoreChange}
    (h : (c.revise s.current.document).services = s.current.document.services) :
    (s.step c).current.document.services = s.current.document.services := by
  by_cases hvalid : c.IsValid
  · obtain ⟨next, -, hnext, hpublishes⟩ := (s.answers c).accepts hvalid
    rw [hnext, hpublishes.document, h]
  · rw [((s.answers c).refuses hvalid).2]

theorem credits_step {s : Store} {c : StoreChange} {cs : List StoreChange} (hc : c.IsOwned)
    (h : Credits s.current.document.services cs) :
    Credits (s.step c).current.document.services (cs ++ [c]) := by
  cases c with
  | merge m updates deletes owner =>
    obtain ⟨rfl, howner, howners⟩ := hc
    exact h.merge howner howners
  | liveSpaces spaces =>
    rw [services_step rfl]
    exact h.unnamed (by simp [StoreChange.namesFor])
  | laneSpaces spaces =>
    rw [services_step rfl]
    exact h.unnamed (by simp [StoreChange.namesFor])
  | databases clusters =>
    rw [services_step rfl]
    exact h.unnamed (by simp [StoreChange.namesFor])
  | publish next => exact hc.elim

theorem credits_run {s : Store} {past cs : List StoreChange} (hcs : ∀ c ∈ cs, c.IsOwned)
    (h : Credits s.current.document.services past) :
    Credits (s.run cs).current.document.services (past ++ cs) := by
  induction cs generalizing s past with
  | nil => rwa [List.append_nil]
  | cons c cs ih =>
    have hstep := credits_step (hcs c List.mem_cons_self) h
    have hrest := ih (fun d hd => hcs d (List.mem_cons_of_mem _ hd)) hstep
    rwa [List.append_assoc] at hrest

/-- After any run of changes by owners on a store without services, a service is there exactly if
some owner supports it, and its owners are exactly those who do, each of them once. -/
theorem owners_run {s : Store} (hs : s.current.document.services = []) {cs : List StoreChange}
    (hcs : ∀ c ∈ cs, c.IsOwned) (name : String) :
    (((s.run cs).current.service? name).isSome ↔ ∃ owner, supports cs owner name) ∧
      ∀ v, (s.run cs).current.service? name = some v →
        v.owners.Nodup ∧ ∀ owner, owner ∈ v.owners ↔ supports cs owner name := by
  have hrun : Credits (s.run cs).current.document.services cs :=
    credits_run hcs (hs ▸ credits_nil)
  have hfound : ∀ v, (s.run cs).current.service? name = some v → v.name = name ∧ v.IsCredited cs :=
    fun v hv => by
      rw [Snapshot.service?_eq_find?] at hv
      exact ⟨by simpa using List.find?_some hv, hrun.isCredited v (List.mem_of_find?_eq_some hv)⟩
  refine ⟨⟨fun h => ?_, fun ⟨owner, howner⟩ => ?_⟩, fun v hv => ?_⟩
  · obtain ⟨v, hv⟩ := Option.isSome_iff_exists.1 h
    obtain ⟨rfl, hcredited⟩ := hfound v hv
    obtain ⟨owner, howner⟩ := List.exists_mem_of_ne_nil _ hcredited.ne_nil
    exact ⟨owner, (hcredited.mem_iff owner).1 howner⟩
  · obtain ⟨v, hv, hname⟩ := hrun.present owner name howner
    rw [Snapshot.service?_eq_find?, List.find?_isSome]
    exact ⟨v, hv, by simpa using hname⟩
  · obtain ⟨rfl, hcredited⟩ := hfound v hv
    exact ⟨hcredited.nodup, hcredited.mem_iff⟩

end Store

/-! ## Two owners -/

namespace TwoOwners

/-- Both owners deliver the first service, the first one also the second. Then the first owner
withdraws both, and the second owner deletes and updates the first service in one batch. -/
def changes : List StoreChange := [
  .merge .owned [{ name := "a" }, { name := "b" }, { name := "a" }] [] "x",
  .merge .owned [{ name := "a" }] ["b"] "y",
  .merge .owned [] ["a", "b"] "x",
  .merge .owned [{ name := "a" }] ["a"] "y"]

theorem isOwned_of_mem_changes : ∀ c ∈ changes, c.IsOwned := by
  simp [changes, StoreChange.IsOwned]

end TwoOwners

open TwoOwners in
/-- The first service is left to the second owner. -/
theorem owners_run_changes :
    ∃ v, ((Store.start .empty).run changes).current.service? "a" = some v ∧ v.owners.Nodup ∧
      "y" ∈ v.owners ∧ "x" ∉ v.owners := by
  have hy : supports changes "y" "a" := by decide +kernel
  have hx : ¬supports changes "x" "a" := by decide +kernel
  obtain ⟨hpresent, howners⟩ :=
    Store.owners_run (s := .start .empty) rfl isOwned_of_mem_changes "a"
  obtain ⟨v, hv⟩ := Option.isSome_iff_exists.1 (hpresent.2 ⟨"y", hy⟩)
  obtain ⟨hnodup, hmem⟩ := howners v hv
  exact ⟨v, hv, hnodup, (hmem "y").2 hy, fun h => hx ((hmem "x").1 h)⟩

end TrafficControl
