import TrafficControl.Policy.Merge

/-!
# Names in a merged list

A merge keeps the names of a list distinct, whatever the batch (`nodup_mergeServices`). A service of
the list keeps its name or is removed (`sublist_merged_old`), and one is added for each name of the
batch that the list did not have, no matter how many updates share that name. All this asks of the
merger is to leave names alone (`Merger.KeepsNames`).
-/

namespace TrafficControl

/-! ## The latest binding -/

namespace Table

variable {α : Type} {name : String} {a : α}

/-- A binding of a table that was made of a list comes from the list. -/
theorem mem_of_find?_ofList {l : List (String × α)} (h : (ofList l).find? name = some a) :
    (name, a) ∈ l := by
  rw [find?_ofList, List.lookup_eq_some_iff] at h
  obtain ⟨later, earlier, hl, -⟩ := h
  exact List.mem_reverse.1 (hl ▸ List.mem_append_right later List.mem_cons_self)

end Table

/-- The latest update for a name has this name. -/
theorem name_of_find?_latestUpdates {updates : List Service} {name : String} {u : Service}
    (h : (latestUpdates updates).find? name = some u) : u.name = name := by
  obtain ⟨s, -, hs⟩ := List.mem_map.1 (Table.mem_of_find?_ofList h)
  obtain ⟨rfl, rfl⟩ := Prod.mk.inj hs
  rfl

theorem find?_latestUpdates_eq_none_iff {updates : List Service} {name : String} :
    (latestUpdates updates).find? name = none ↔ ¬∃ u ∈ updates, u.name = name := by
  rw [latestUpdates, Table.find?_ofList, List.lookup_eq_none_iff]
  constructor
  · rintro h ⟨u, hu, heq⟩
    have hbinding : (u.name, u) ∈ (updates.map fun s => (s.name, s)).reverse :=
      List.mem_reverse.2 (List.mem_map_of_mem hu)
    simpa [heq] using h _ hbinding
  · intro h b hb
    obtain ⟨u, hu, rfl⟩ := List.mem_map.1 (List.mem_reverse.1 hb)
    simpa using fun heq => h ⟨u, hu, heq.symm⟩

theorem mem_of_find?_latestUpdates {updates : List Service} {name : String} {u : Service}
    (h : (latestUpdates updates).find? name = some u) : u ∈ updates := by
  obtain ⟨s, hs, heq⟩ := List.mem_map.1 (Table.mem_of_find?_ofList h)
  exact (Prod.mk.inj heq).2 ▸ hs

/-! ## Mergers that leave names alone -/

@[simp] theorem Service.name_addOwner (s : Service) (owner : String) :
    (s.addOwner owner).name = s.name := by
  unfold addOwner
  split <;> rfl

namespace Merger

/-- Whether a merger leaves the names of services alone. -/
structure KeepsNames (m : Merger) : Prop where
  onAdd : ∀ new owner, (m.onAdd new owner).name = new.name
  onUpdate : ∀ old update owner, (m.onUpdate old update owner).name = update.name
  onDelete : ∀ old owner kept, m.onDelete old owner = some kept → kept.name = old.name

/-- A delete by an owner removes this one, and the service where it was the only one. -/
theorem onDelete_owned_eq (v : Service) (owner : String) : owned.onDelete v owner =
    if (v.removeOwner owner).owners = [] then none else some (v.removeOwner owner) := rfl

theorem keepsNames_replace : replace.KeepsNames where
  onAdd new owner := by simp [replace]
  onUpdate old update owner := by simp [replace, adopt]
  onDelete old owner kept h := by simp [replace] at h

theorem keepsNames_owned : owned.KeepsNames where
  onAdd new owner := by simp [owned]
  onUpdate old update owner := by simp [owned, adopt]
  onDelete old owner kept h := by
    simp only [owned] at h
    split at h
    · simp at h
    · rw [← Option.some.inj h]
      rfl

end Merger

/-! ## Merged lists -/

/-- A merged list has what becomes of its services, and those that are added. -/
theorem mem_mergeServices {m : Merger} {old updates : List Service} {deletes : List String}
    {owner : String} {x : Merged} : x ∈ mergeServices m old updates deletes owner ↔
      (∃ v ∈ old, mergeOne m (latestUpdates updates) deletes owner v = some x) ∨
        ∃ b ∈ (latestUpdates updates).bindings, (∀ v ∈ old, v.name ≠ b.1) ∧
          x = ⟨m.onAdd b.2 owner, false⟩ := by
  simp only [mergeServices, List.mem_append, List.mem_filterMap, List.mem_map, List.mem_filter,
    Bool.not_eq_true', List.any_eq_false, decide_eq_true_eq]
  refine or_congr_right ⟨?_, ?_⟩
  · rintro ⟨b, ⟨hb, hnew⟩, rfl⟩
    exact ⟨b, hb, hnew, rfl⟩
  · rintro ⟨b, hb, hnew, rfl⟩
    exact ⟨b, ⟨hb, hnew⟩, rfl⟩

section

variable {m : Merger} (hm : m.KeepsNames)

include hm

theorem name_mergeOne {updates : List Service} {deletes : List String} {owner : String}
    {s : Service} {x : Merged}
    (h : mergeOne m (latestUpdates updates) deletes owner s = some x) :
    x.service.name = s.name := by
  unfold mergeOne at h
  split at h
  · next u hu =>
    rw [← Option.some.inj h]
    exact (hm.onUpdate s u owner).trans (name_of_find?_latestUpdates hu)
  · split at h
    · obtain ⟨kept, hkept, rfl⟩ := Option.map_eq_some_iff.1 h
      exact hm.onDelete s owner kept hkept
    · rw [← Option.some.inj h]

/-- The services that stay have names of the list so far, in their order. -/
theorem sublist_merged_old (old updates : List Service) (deletes : List String) (owner : String) :
    ((old.filterMap (mergeOne m (latestUpdates updates) deletes owner)).map
      (·.service.name)).Sublist (old.map (·.name)) := by
  induction old with
  | nil => exact .refl _
  | cons s rest ih =>
    cases h : mergeOne m (latestUpdates updates) deletes owner s with
    | none =>
      rw [List.filterMap_cons_none h, List.map_cons]
      exact ih.cons _
    | some x =>
      rw [List.filterMap_cons_some h, List.map_cons, List.map_cons, name_mergeOne hm h]
      exact ih.cons_cons _

/-- The services that are added have the names under which they were sorted. -/
theorem names_merged_added {updates : List Service} {added : List (String × Service)}
    (owner : String) (h : added.Sublist (latestUpdates updates).bindings) :
    (added.map fun b => (⟨m.onAdd b.2 owner, false⟩ : Merged)).map (·.service.name) =
      added.map Prod.fst := by
  rw [List.map_map]
  refine List.map_congr_left fun b hb => ?_
  have hfind := Table.find?_eq_some_iff.2 (h.subset hb)
  exact (hm.onAdd b.2 owner).trans (name_of_find?_latestUpdates hfind)

/-- Merging a batch keeps names distinct. -/
theorem nodup_mergeServices {old : List Service} (updates : List Service) (deletes : List String)
    (owner : String) (h : (old.map (·.name)).Nodup) :
    ((mergeServices m old updates deletes owner).map (·.service.name)).Nodup := by
  have hold := sublist_merged_old hm old updates deletes owner
  have hadded := List.filter_sublist (p := fun b : String × Service => !old.any (·.name = b.1))
    (l := (latestUpdates updates).bindings)
  simp only [mergeServices, List.map_append, names_merged_added hm owner hadded]
  refine List.nodup_append.2
    ⟨h.sublist hold, (latestUpdates updates).nodup.sublist (hadded.map _), ?_⟩
  intro name hname new hnew
  obtain ⟨b, hb, rfl⟩ := List.mem_map.1 hnew
  obtain ⟨s, hs, rfl⟩ := List.mem_map.1 (hold.subset hname)
  have hfresh := (List.mem_filter.1 hb).2
  simp only [Bool.not_eq_true', List.any_eq_false, decide_eq_true_eq] at hfresh
  exact hfresh s hs

end

end TrafficControl
