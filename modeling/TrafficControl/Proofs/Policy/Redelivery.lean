import TrafficControl.Proofs.Policy.Batch
import TrafficControl.Proofs.Policy.Paths

/-!
# Redelivery of a batch

A batch that is delivered twice in a row makes the same list as if it were delivered once
(`delivered_delivered`). At the second time every service that was new is there already, so it is
updated and not added, and a service that was to be deleted and stayed is deleted again. It is enough
that a merger makes the same of its own services (`Merger.IsSettled`) : an update changes nothing
that the same update has made or added, and a delete changes nothing that it has left.
-/

namespace TrafficControl

/-! ## Mergers that settle -/

namespace Service

variable {s t : Service} {owner : String}

/-- An owner is added once. -/
theorem owners_addOwner_of_eq (h : t.owners = (s.addOwner owner).owners) :
    (t.addOwner owner).owners = t.owners := by
  have hknown : owner = "" ∨ t.hasOwner owner = true := by
    unfold addOwner at h
    split at h
    · next hs => exact hs.imp_right fun hs => by rwa [hasOwner, h, ← hasOwner]
    · exact .inr (by simp [hasOwner, h])
  rw [addOwner, if_pos hknown]

theorem removeOwner_removeOwner (s : Service) (owner : String) :
    (s.removeOwner owner).removeOwner owner = s.removeOwner owner := by
  simp [removeOwner]

end Service

namespace Merger

/-- Whether a merger makes the same of the services that it has made, if it gets the same. -/
structure IsSettled (m : Merger) : Prop extends m.KeepsNames where
  onUpdate_onUpdate : ∀ old update owner,
    m.onUpdate (m.onUpdate old update owner) update owner = m.onUpdate old update owner
  onUpdate_onAdd : ∀ new owner, m.onUpdate (m.onAdd new owner) new owner = m.onAdd new owner
  onDelete_onDelete : ∀ old owner kept, m.onDelete old owner = some kept →
    m.onDelete kept owner = some kept

/-- Of the service so far an update adopts the owners and nothing else. -/
theorem adopt_eq (old update : Service) (owner : String) :
    adopt old update owner = { update with owners := (old.addOwner owner).owners } := by
  unfold adopt Service.addOwner Service.hasOwner
  dsimp only
  split <;> rfl

theorem addOwner_eq (s : Service) (owner : String) :
    s.addOwner owner = { s with owners := (s.addOwner owner).owners } := by
  unfold Service.addOwner
  split <;> rfl

/-- A service that has the owners of an update already has nothing to give to it. -/
theorem adopt_of_owners {old update s : Service} {owner : String}
    (h : s.owners = (old.addOwner owner).owners) :
    adopt s update owner = { update with owners := s.owners } := by
  rw [adopt_eq, Service.owners_addOwner_of_eq h]

theorem isSettled_replace : replace.IsSettled where
  toKeepsNames := keepsNames_replace
  onUpdate_onUpdate old update owner := by
    have howners : (adopt old update owner).owners = (old.addOwner owner).owners := by
      rw [adopt_eq]
    change adopt (adopt old update owner) update owner = adopt old update owner
    rw [adopt_of_owners howners, adopt_eq]
  onUpdate_onAdd new owner := by
    have howners : (new.addOwner owner).owners = (new.addOwner owner).owners := rfl
    change adopt (new.addOwner owner) new owner = new.addOwner owner
    rw [adopt_of_owners howners, ← addOwner_eq]
  onDelete_onDelete old owner kept h := nomatch h

theorem onUpdate_owned_eq (old update : Service) (owner : String) :
    owned.onUpdate old update owner =
      { adopt old update owner with
        bundle := update.bundle.or old.bundle, paths := mergePaths old.paths update.paths } := by
  rw [adopt_eq]
  unfold owned
  dsimp only
  rw [adopt_eq]

theorem isSettled_owned : owned.IsSettled where
  toKeepsNames := keepsNames_owned
  onUpdate_onUpdate old update owner := by
    have howners : (owned.onUpdate old update owner).owners = (old.addOwner owner).owners := by
      rw [onUpdate_owned_eq, adopt_eq]
    have hbundle : (owned.onUpdate old update owner).bundle = update.bundle.or old.bundle := by
      rw [onUpdate_owned_eq]
    have hpaths : (owned.onUpdate old update owner).paths =
        mergePaths old.paths update.paths := by
      rw [onUpdate_owned_eq]
    rw [onUpdate_owned_eq, adopt_of_owners howners, hbundle, hpaths, mergePaths_mergePaths,
      ← Option.or_assoc, Option.or_self, howners, onUpdate_owned_eq, adopt_eq]
  onUpdate_onAdd new owner := by
    have howners : (new.addOwner owner).owners = (new.addOwner owner).owners := rfl
    have hown : mergePaths new.paths new.paths = new.paths :=
      mergePaths_of_listed fun p hp => ⟨p, hp, rfl⟩
    change owned.onUpdate (new.addOwner owner) new owner = new.addOwner owner
    rw [onUpdate_owned_eq, adopt_of_owners howners, Service.bundle_addOwner, Service.paths_addOwner,
      Option.or_self, hown]
    exact (addOwner_eq new owner).symm
  onDelete_onDelete old owner kept h := by
    rw [onDelete_owned_eq] at h ⊢
    split at h
    · exact nomatch h
    · next hleft =>
      obtain rfl := Option.some.inj h
      rw [Service.removeOwner_removeOwner, if_neg hleft]

end Merger

/-! ## Delivering twice -/

/-- The services after a batch. -/
def delivered (m : Merger) (services updates : List Service) (deletes : List String)
    (owner : String) : List Service :=
  (mergeServices m services updates deletes owner).map (·.service)

section

variable {m : Merger} (hm : m.IsSettled) (old updates : List Service) (deletes : List String)
  (owner : String)

include hm

/-- A service that a batch has left or added stays as it is when the batch comes again. -/
theorem mergeOne_of_mem_mergeServices {x : Merged}
    (hx : x ∈ mergeServices m old updates deletes owner) :
    (mergeOne m (latestUpdates updates) deletes owner x.service).map (·.service) =
      some x.service := by
  rcases mem_mergeServices.1 hx with ⟨s, -, hs⟩ | ⟨b, hb, -, rfl⟩
  · have hname := name_mergeOne hm.toKeepsNames hs
    unfold mergeOne at hs ⊢
    rw [hname]
    split at hs
    · next u hu =>
      obtain rfl := Option.some.inj hs
      exact congrArg some (hm.onUpdate_onUpdate s u owner)
    · split at hs
      · next hdelete =>
        obtain ⟨kept, hkept, rfl⟩ := Option.map_eq_some_iff.1 hs
        rw [if_pos hdelete, hm.onDelete_onDelete s owner kept hkept]
        rfl
      · next hkeep =>
        obtain rfl := Option.some.inj hs
        rw [if_neg hkeep]
        rfl
  · have hfind := Table.find?_eq_some_iff.2 hb
    have hname : (m.onAdd b.2 owner).name = b.1 :=
      (hm.onAdd b.2 owner).trans (name_of_find?_latestUpdates hfind)
    unfold mergeOne
    rw [hname, hfind]
    exact congrArg some (hm.onUpdate_onAdd b.2 owner)

theorem delivered_of_isSettled :
    delivered m (delivered m old updates deletes owner) updates deletes owner =
      delivered m old updates deletes owner := by
  have hnone : (latestUpdates updates).bindings.filter
      (fun b => !(delivered m old updates deletes owner).any (·.name = b.1)) = [] := by
    refine List.filter_eq_nil_iff.2 fun b hb => ?_
    have hu := mem_of_find?_latestUpdates (Table.find?_eq_some_iff.2 hb)
    have hname := name_of_find?_latestUpdates (Table.find?_eq_some_iff.2 hb)
    have hthere := (mem_names_mergeServices old updates deletes owner hm.toKeepsNames b.1).2
      (.inl ⟨b.2, hu, hname⟩)
    simpa [delivered] using hthere
  have hsame : ∀ s ∈ delivered m old updates deletes owner,
      (mergeOne m (latestUpdates updates) deletes owner s).map (·.service) = some s := by
    intro s hs
    obtain ⟨x, hx, rfl⟩ := List.mem_map.1 hs
    exact mergeOne_of_mem_mergeServices hm old updates deletes owner hx
  rw [delivered, mergeServices, hnone, List.map_nil, List.append_nil, List.map_filterMap]
  rw [List.filterMap_congr hsame, List.filterMap_some]

end

/-- A batch that is delivered twice makes the same list as if it were delivered once, whether
services are replaced or owned. -/
theorem delivered_delivered (old updates : List Service) (deletes : List String) (owner : String) :
    delivered .replace (delivered .replace old updates deletes owner) updates deletes owner =
        delivered .replace old updates deletes owner ∧
      delivered .owned (delivered .owned old updates deletes owner) updates deletes owner =
        delivered .owned old updates deletes owner :=
  ⟨delivered_of_isSettled Merger.isSettled_replace old updates deletes owner,
    delivered_of_isSettled Merger.isSettled_owned old updates deletes owner⟩

end TrafficControl
