import Mathlib.Data.List.Forall2
import Mathlib.Data.List.Induction
import Mathlib.Data.List.ReduceOption
import TrafficControl.Proofs.Policy.Merge

/-!
# What a batch makes of a list

The list after a batch is known place by place (`IsMerge`). A service of the list so far stays where
it is, as its last update makes it, or as a delete leaves it, or untouched (`Merger.Becomes`). Then
come the services that the list did not have : one for each new name, in the order in which the
batch first mentions them (`newNames`), as the last update of this name has it. So it is for any
merger. If the merger leaves names alone, the names are those of the services that stay and those
that are updated (`mem_names_mergeServices`).

A batch is first sorted into a table, which keeps the names in the order of their first mention
(`Table.keys_ofList`) and of each name the last update (`find?_latestUpdates`).
-/

namespace TrafficControl

/-! ## Names in the order of their first mention -/

namespace Table

variable {α : Type}

theorem keys_rebind (name : String) (a : α) (l : List (String × α)) :
    (rebind name a l).map Prod.fst =
      if name ∈ l.map Prod.fst then l.map Prod.fst else l.map Prod.fst ++ [name] := by
  induction l with
  | nil => rfl
  | cons b rest ih =>
    by_cases h : b.1 = name
    · simp [rebind, h]
    · rw [rebind, if_neg h, List.map_cons, ih, List.map_cons]
      have hmem : name ∈ b.1 :: rest.map Prod.fst ↔ name ∈ rest.map Prod.fst := by
        simp [Ne.symm h]
      split
      · next hrest => rw [if_pos (hmem.2 hrest)]
      · next hrest => rw [if_neg (mt hmem.1 hrest), List.cons_append]

/-- A table that is made of a list has the names in the order in which they first occur. -/
theorem keys_ofList (l : List (String × α)) :
    (ofList l).bindings.map Prod.fst = (l.map Prod.fst).eraseDups := by
  induction l using List.reverseRecOn with
  | nil => rfl
  | append_singleton l b ih =>
    have hlast : ofList (l ++ [b]) = (ofList l).insert b.1 b.2 := List.foldl_concat ..
    rw [hlast, insert, keys_rebind, ih, List.map_append, List.eraseDups_append]
    split
    · next hmem => simp [List.removeAll, List.mem_eraseDups.1 hmem]
    · next hnew => simp [List.removeAll, List.eraseDups_cons, mt List.mem_eraseDups.2 hnew]

end Table

/-- The last update of a name. -/
def lastUpdate? (updates : List Service) (name : String) : Option Service :=
  (updates.filter (·.name = name)).getLast?

/-- The names that a batch updates and the list does not have, in the order in which the batch first
mentions them. -/
def newNames (old updates : List Service) : List String :=
  (updates.map (·.name)).eraseDups.filter (· ∉ old.map (·.name))

theorem lookup_map_name (updates : List Service) (name : String) :
    (updates.map fun s => (s.name, s)).lookup name = updates.find? (·.name = name) := by
  induction updates with
  | nil => rfl
  | cons u rest ih =>
    rw [List.map_cons, List.lookup_cons, List.find?_cons, ih]
    by_cases h : u.name = name
    · simp [h]
    · simp [h, beq_eq_false_iff_ne.2 (Ne.symm h)]

theorem find?_latestUpdates (updates : List Service) (name : String) :
    (latestUpdates updates).find? name = lastUpdate? updates name := by
  rw [latestUpdates, Table.find?_ofList, ← List.map_reverse, lookup_map_name, lastUpdate?,
    List.getLast?_filter]

theorem names_added (old updates : List Service) :
    ((latestUpdates updates).bindings.filter fun b => !old.any (·.name = b.1)).map Prod.fst =
      newNames old updates := by
  have hkeys : (latestUpdates updates).bindings.map Prod.fst =
      (updates.map (·.name)).eraseDups := by
    rw [latestUpdates, Table.keys_ofList, List.map_map]
    rfl
  rw [newNames, ← hkeys, List.filter_map]
  refine congrArg _ (List.filter_congr fun b _ => Bool.eq_iff_iff.2 ?_)
  simp only [Function.comp_apply, Bool.not_eq_true', List.any_eq_false, decide_eq_true_eq,
    List.mem_map, not_exists, not_and]

/-! ## Place by place -/

/-- What becomes of a service of the list under a batch of updates and deletes by an owner. -/
inductive Merger.Becomes (m : Merger) (updates : List Service) (deletes : List String)
    (owner : String) (s : Service) : Option Merged → Prop where
  | updated {u : Service} (last : lastUpdate? updates s.name = some u) :
      Becomes m updates deletes owner s (some ⟨m.onUpdate s u owner, false⟩)
  | deleted (unmentioned : ∀ u ∈ updates, u.name ≠ s.name) (named : s.name ∈ deletes) :
      Becomes m updates deletes owner s ((m.onDelete s owner).map (⟨·, false⟩))
  | untouched (unmentioned : ∀ u ∈ updates, u.name ≠ s.name) (unnamed : s.name ∉ deletes) :
      Becomes m updates deletes owner s (some ⟨s, true⟩)

/-- Whether a service is what a batch adds under a name. -/
inductive Merger.Adds (m : Merger) (updates : List Service) (owner name : String) :
    Merged → Prop where
  | last {u : Service} (last : lastUpdate? updates name = some u) :
      Adds m updates owner name ⟨m.onAdd u owner, false⟩

/-- Whether a list is what a batch makes of another : what becomes of the services that it had, each
in its place, and one service for each new name. -/
def IsMerge (m : Merger) (old updates : List Service) (deletes : List String) (owner : String)
    (merged : List Merged) : Prop :=
  ∃ fates added, merged = fates.reduceOption ++ added ∧
    List.Forall₂ (m.Becomes updates deletes owner) old fates ∧
    List.Forall₂ (m.Adds updates owner) (newNames old updates) added

section

variable (m : Merger) (old updates : List Service) (deletes : List String) (owner : String)

theorem becomes_mergeOne (s : Service) :
    m.Becomes updates deletes owner s (mergeOne m (latestUpdates updates) deletes owner s) := by
  unfold mergeOne
  split
  · next u hu => exact .updated ((find?_latestUpdates ..).symm.trans hu)
  · next hnone =>
    have hunmentioned : ∀ u ∈ updates, u.name ≠ s.name := fun u hu heq =>
      find?_latestUpdates_eq_none_iff.1 hnone ⟨u, hu, heq⟩
    split
    · next hdelete => exact .deleted hunmentioned hdelete
    · next hkeep => exact .untouched hunmentioned hkeep

theorem adds_of_mem_bindings {b : String × Service} (h : b ∈ (latestUpdates updates).bindings) :
    m.Adds updates owner b.1 ⟨m.onAdd b.2 owner, false⟩ :=
  .last ((find?_latestUpdates ..).symm.trans (Table.find?_eq_some_iff.2 h))

/-- Merging makes of a list what the batch says, place by place. -/
theorem isMerge_mergeServices :
    IsMerge m old updates deletes owner (mergeServices m old updates deletes owner) := by
  refine ⟨old.map (mergeOne m (latestUpdates updates) deletes owner),
    ((latestUpdates updates).bindings.filter fun b => !old.any (·.name = b.1)).map fun b =>
      ⟨m.onAdd b.2 owner, false⟩, ?_, ?_, ?_⟩
  · rw [List.reduceOption, List.filterMap_map]
    rfl
  · rw [List.forall₂_map_right_iff, List.forall₂_same]
    exact fun s _ => becomes_mergeOne m updates deletes owner s
  · rw [← names_added, List.forall₂_map_left_iff, List.forall₂_map_right_iff, List.forall₂_same]
    exact fun b hb => adds_of_mem_bindings m updates owner (List.mem_of_mem_filter hb)

/-! ## Names -/

/-- A service of the list stays exactly if it is updated or no delete removes it. -/
theorem isSome_mergeOne_iff (s : Service) :
    (mergeOne m (latestUpdates updates) deletes owner s).isSome ↔
      (∃ u ∈ updates, u.name = s.name) ∨ (s.name ∈ deletes → (m.onDelete s owner).isSome) := by
  unfold mergeOne
  split
  · next u hu =>
    have hupdated : ∃ u ∈ updates, u.name = s.name :=
      ⟨u, mem_of_find?_latestUpdates hu, name_of_find?_latestUpdates hu⟩
    exact iff_of_true rfl (.inl hupdated)
  · next hnone =>
    rw [or_iff_right (find?_latestUpdates_eq_none_iff.1 hnone)]
    split
    · next hdelete => simp [hdelete]
    · next hkeep => simp [hkeep]

variable {m}

/-- The names after a batch are those that it updates, and those of the services that no delete
removes. -/
theorem mem_names_mergeServices (hm : m.KeepsNames) (name : String) :
    name ∈ (mergeServices m old updates deletes owner).map (·.service.name) ↔
      (∃ u ∈ updates, u.name = name) ∨
        ∃ s ∈ old, s.name = name ∧ (name ∈ deletes → (m.onDelete s owner).isSome) := by
  have hstays : ∀ s ∈ old, (mergeOne m (latestUpdates updates) deletes owner s).isSome →
      s.name ∈ (mergeServices m old updates deletes owner).map (·.service.name) := by
    intro s hs hsome
    obtain ⟨x, hx⟩ := Option.isSome_iff_exists.1 hsome
    exact List.mem_map.2 ⟨x, mem_mergeServices.2 (.inl ⟨s, hs, hx⟩), name_mergeOne hm hx⟩
  constructor
  · intro h
    obtain ⟨x, hx, rfl⟩ := List.mem_map.1 h
    rcases mem_mergeServices.1 hx with ⟨s, hs, hx⟩ | ⟨b, hb, -, rfl⟩
    · have hsome := Option.isSome_of_eq_some hx
      rw [name_mergeOne hm hx]
      rcases (isSome_mergeOne_iff m updates deletes owner s).1 hsome with hupdated | hkept
      · exact .inl hupdated
      · exact .inr ⟨s, hs, rfl, hkept⟩
    · have hu := mem_of_find?_latestUpdates (Table.find?_eq_some_iff.2 hb)
      exact .inl ⟨b.2, hu, (hm.onAdd b.2 owner).symm⟩
  · rintro (hupdated | ⟨s, hs, rfl, hkept⟩)
    · by_cases hold : ∃ s ∈ old, s.name = name
      · obtain ⟨s, hs, rfl⟩ := hold
        exact hstays s hs ((isSome_mergeOne_iff ..).2 (.inl hupdated))
      · cases hfind : (latestUpdates updates).find? name with
        | none => exact absurd hupdated (find?_latestUpdates_eq_none_iff.1 hfind)
        | some u =>
          have hnew : ∀ s ∈ old, s.name ≠ name := fun s hs heq => hold ⟨s, hs, heq⟩
          have hadded : ⟨m.onAdd u owner, false⟩ ∈ mergeServices m old updates deletes owner :=
            mem_mergeServices.2 (.inr ⟨_, Table.find?_eq_some_iff.1 hfind, hnew, rfl⟩)
          refine List.mem_map.2 ⟨_, hadded, ?_⟩
          exact (hm.onAdd u owner).trans (name_of_find?_latestUpdates hfind)
    · exact hstays s hs ((isSome_mergeOne_iff ..).2 (.inr hkept))

/-- A batch makes of a list what it says, place by place, under any merger. If services are replaced
or owned, distinct names stay distinct, and the names after the batch are those that it updates and
those of the services that no delete removes. -/
theorem isMerge_and_names (m : Merger) (old updates : List Service) (deletes : List String)
    (owner : String) :
    IsMerge m old updates deletes owner (mergeServices m old updates deletes owner) ∧
      (m = .replace ∨ m = .owned →
        ((old.map (·.name)).Nodup →
          ((mergeServices m old updates deletes owner).map (·.service.name)).Nodup) ∧
        ∀ name, name ∈ (mergeServices m old updates deletes owner).map (·.service.name) ↔
          (∃ u ∈ updates, u.name = name) ∨
            ∃ s ∈ old, s.name = name ∧ (name ∈ deletes → (m.onDelete s owner).isSome)) := by
  refine ⟨isMerge_mergeServices m old updates deletes owner, fun h => ?_⟩
  have hm : m.KeepsNames := by
    rcases h with rfl | rfl
    · exact Merger.keepsNames_replace
    · exact Merger.keepsNames_owned
  exact ⟨nodup_mergeServices hm updates deletes owner,
    mem_names_mergeServices old updates deletes owner hm⟩

end

/-! ## A batch with repeats, overlaps and a veto -/

namespace Overlaps

/-- Four services, two of which have a second owner. -/
def old : List Service :=
  [{ name := "a", owners := ["x"] }, { name := "b", owners := ["x", "y"] }, { name := "c" },
    { name := "d", owners := ["x", "y"] }]

/-- The first service is updated twice, and a new one twice around it. -/
def updates : List Service :=
  [{ name := "f" }, { name := "e" }, { name := "a" },
    { name := "f", paths := [{ path := "/" }] }, { name := "a", paths := [{ path := "/" }] }]

/-- The first service is updated as well, the second one stays with its other owner. -/
def deletes : List String := ["a", "b", "c", "g"]

end Overlaps

open Overlaps in
/-- The third service is gone, and the new ones come in the order of their first mention. -/
theorem isMerge_overlaps :
    IsMerge .owned old updates deletes "x" (mergeServices .owned old updates deletes "x") ∧
      ((mergeServices .owned old updates deletes "x").map (·.service.name)).Nodup ∧
      "b" ∈ (mergeServices .owned old updates deletes "x").map (·.service.name) ∧
      "c" ∉ (mergeServices .owned old updates deletes "x").map (·.service.name) ∧
      newNames old updates = ["f", "e"] := by
  obtain ⟨hmerge, hnames⟩ := isMerge_and_names .owned old updates deletes "x"
  obtain ⟨hnodup, hmem⟩ := hnames (.inr rfl)
  refine ⟨hmerge, hnodup (by decide), (hmem "b").2 (by decide), mt (hmem "c").1 (by decide), ?_⟩
  decide

end TrafficControl
