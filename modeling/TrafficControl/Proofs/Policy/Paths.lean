import TrafficControl.Policy.Merge

/-!
# Paths that an update does not mention

Under `Merger.owned` a service keeps the paths that an update does not mention. They come after those
of the update, and of several entries for one path the first is kept (`exists_mergePaths`). So the
entry for a path is that of the update, or else that of the service so far
(`Merger.find?_mergePaths`), and what applies to a request is what this entry says, or else the
bundle of the update, or else that of the service so far (`keepsUnmentioned_onUpdate`).
-/

namespace TrafficControl

namespace Service

variable (s : Service) (owner : String)

@[simp] theorem paths_addOwner : (s.addOwner owner).paths = s.paths := by
  unfold addOwner
  split <;> rfl

@[simp] theorem bundle_addOwner : (s.addOwner owner).bundle = s.bundle := by
  unfold addOwner
  split <;> rfl

end Service

/-- What is kept of the entries so far by the side of those of an update. -/
structure KeepsPaths (old update kept : List ServicePath) : Prop where
  /-- They are entries of the service so far, in their order. -/
  sublist : List.Sublist kept old
  distinct : (kept.map (·.path)).Nodup
  unmentioned : ∀ p ∈ kept, ∀ q ∈ update, q.path ≠ p.path
  /-- Of several entries for one path the first is kept. -/
  first : ∀ p ∈ kept, old.find? (·.path = p.path) = some p
  /-- No path is lost. -/
  listed : ∀ p ∈ old, ∃ q ∈ update ++ kept, q.path = p.path

namespace Merger

variable {old update kept : List ServicePath} {p : ServicePath}

theorem mergePaths_cons_of_listed (h : ∃ q ∈ update, q.path = p.path) :
    mergePaths (p :: old) update = mergePaths old update := by
  have hlisted : update.any (·.path = p.path) = true := by simpa using h
  rw [mergePaths, List.foldl_cons, if_pos hlisted, mergePaths]

theorem mergePaths_cons_of_unlisted (h : ∀ q ∈ update, q.path ≠ p.path) :
    mergePaths (p :: old) update = mergePaths old (update ++ [p]) := by
  have hunlisted : ¬update.any (·.path = p.path) = true := by simpa using h
  rw [mergePaths, List.foldl_cons, if_neg hunlisted, mergePaths]

end Merger

open Merger

variable {old update kept : List ServicePath} {p : ServicePath}

theorem KeepsPaths.cons_of_listed (h : KeepsPaths old update kept)
    (hp : ∃ q ∈ update, q.path = p.path) : KeepsPaths (p :: old) update kept where
  sublist := h.sublist.cons p
  distinct := h.distinct
  unmentioned := h.unmentioned
  first r hr := by
    obtain ⟨q, hq, hpath⟩ := hp
    have hne : p.path ≠ r.path := hpath ▸ h.unmentioned r hr q hq
    rw [List.find?_cons_of_neg (by simpa using hne), h.first r hr]
  listed r hr := by
    rcases List.mem_cons.1 hr with rfl | hr
    · obtain ⟨q, hq, hpath⟩ := hp
      exact ⟨q, List.mem_append_left kept hq, hpath⟩
    · exact h.listed r hr

theorem KeepsPaths.cons_of_unlisted (h : KeepsPaths old (update ++ [p]) kept)
    (hp : ∀ q ∈ update, q.path ≠ p.path) : KeepsPaths (p :: old) update (p :: kept) where
  sublist := h.sublist.cons_cons p
  distinct := by
    refine List.nodup_cons.2 ⟨fun hmem => ?_, h.distinct⟩
    obtain ⟨r, hr, hpath⟩ := List.mem_map.1 hmem
    exact h.unmentioned r hr p (List.mem_append_right update List.mem_cons_self) hpath.symm
  unmentioned r hr q hq := by
    rcases List.mem_cons.1 hr with rfl | hr
    · exact hp q hq
    · exact h.unmentioned r hr q (List.mem_append_left [p] hq)
  first r hr := by
    rcases List.mem_cons.1 hr with rfl | hr
    · exact List.find?_cons_of_pos (by simp)
    · have hne := h.unmentioned r hr p (List.mem_append_right update List.mem_cons_self)
      rw [List.find?_cons_of_neg (by simpa using hne), h.first r hr]
  listed r hr := by
    rw [List.append_cons]
    rcases List.mem_cons.1 hr with rfl | hr
    · exact ⟨r, by simp, rfl⟩
    · exact h.listed r hr

/-- The entries of an update stay in front, and after them come those that are kept. -/
theorem exists_mergePaths (old update : List ServicePath) :
    ∃ kept, mergePaths old update = update ++ kept ∧ KeepsPaths old update kept := by
  induction old generalizing update with
  | nil => exact ⟨[], (List.append_nil _).symm, .refl [], .nil, by simp, by simp, by simp⟩
  | cons p old ih =>
    by_cases hp : ∃ q ∈ update, q.path = p.path
    · obtain ⟨kept, hmerge, hkept⟩ := ih update
      exact ⟨kept, (mergePaths_cons_of_listed hp).trans hmerge, hkept.cons_of_listed hp⟩
    · have hunlisted : ∀ q ∈ update, q.path ≠ p.path := fun q hq heq => hp ⟨q, hq, heq⟩
      obtain ⟨kept, hmerge, hkept⟩ := ih (update ++ [p])
      refine ⟨p :: kept, ?_, hkept.cons_of_unlisted hunlisted⟩
      rw [mergePaths_cons_of_unlisted hunlisted, hmerge, List.append_assoc, List.singleton_append]

theorem mergePaths_of_listed (h : ∀ p ∈ old, ∃ q ∈ update, q.path = p.path) :
    mergePaths old update = update := by
  induction old with
  | nil => rfl
  | cons p old ih =>
    rw [mergePaths_cons_of_listed (h p List.mem_cons_self)]
    exact ih fun q hq => h q (List.mem_cons_of_mem p hq)

theorem mergePaths_of_unlisted (hdistinct : (old.map (·.path)).Nodup)
    (h : ∀ p ∈ old, ∀ q ∈ update, q.path ≠ p.path) : mergePaths old update = update ++ old := by
  induction old generalizing update with
  | nil => exact (List.append_nil _).symm
  | cons p old ih =>
    obtain ⟨hnew, hdistinct⟩ := List.nodup_cons.1 hdistinct
    rw [mergePaths_cons_of_unlisted (h p List.mem_cons_self), List.append_cons update p old]
    refine ih hdistinct fun r hr q hq => ?_
    rcases List.mem_append.1 hq with hq | hq
    · exact h r (List.mem_cons_of_mem p hr) q hq
    · obtain rfl := List.mem_singleton.1 hq
      exact fun heq => hnew (List.mem_map.2 ⟨r, hr, heq.symm⟩)

/-- What is kept is kept again, and nothing more. -/
theorem mergePaths_mergePaths (old update : List ServicePath) :
    mergePaths (mergePaths old update) update = mergePaths old update := by
  obtain ⟨kept, hmerge, hkept⟩ := exists_mergePaths old update
  have hown : mergePaths update update = update := mergePaths_of_listed fun p hp => ⟨p, hp, rfl⟩
  calc mergePaths (mergePaths old update) update
      = mergePaths (update ++ kept) update := by rw [hmerge]
    _ = mergePaths kept (mergePaths update update) := List.foldl_append
    _ = update ++ kept := by rw [hown, mergePaths_of_unlisted hkept.distinct hkept.unmentioned]
    _ = mergePaths old update := hmerge.symm

/-- The entry for a path is that of the update, or else that of the service so far. -/
theorem Merger.find?_mergePaths (old update : List ServicePath) (path : String) :
    (mergePaths old update).find? (·.path = path) =
      (update.find? (·.path = path)).or (old.find? (·.path = path)) := by
  obtain ⟨kept, hmerge, hkept⟩ := exists_mergePaths old update
  rw [hmerge, List.find?_append]
  cases hupdate : update.find? (·.path = path) with
  | some q => rfl
  | none =>
    rw [Option.none_or, Option.none_or]
    cases hfound : kept.find? (·.path = path) with
    | some p =>
      have hpath : p.path = path := by simpa using List.find?_some hfound
      rw [← hpath, hkept.first p (List.mem_of_find?_eq_some hfound)]
    | none =>
      refine (List.find?_eq_none.2 fun p hp hpath => ?_).symm
      obtain ⟨q, hq, hsame⟩ := hkept.listed p hp
      have hq' : q.path = path := hsame.trans (by simpa using hpath)
      rcases List.mem_append.1 hq with hq | hq
      · exact List.find?_eq_none.1 hupdate q hq (by simpa using hq')
      · exact List.find?_eq_none.1 hfound q hq (by simpa using hq')

/-- Whether a service has what an update says, and of the service so far what the update does not
mention. -/
structure KeepsUnmentioned (old update merged : Service) : Prop where
  /-- The entry for a path is that of the update, or else that of the service so far. To a request
  applies what it says of the method, or else its own bundle, or else that of the update, or else
  that of the service so far. -/
  bundle? : ∀ path method, merged.bundle? path method =
    let entry := (update.path? path).or (old.path? path)
    (entry.bind (·.methodBundle? method)).or
      ((entry.bind (·.bundle)).or (update.bundle.or old.bundle))
  paths : ∃ kept, merged.paths = update.paths ++ kept ∧ KeepsPaths old.paths update.paths kept

theorem path?_onUpdate_owned (old update : Service) (owner : String) (path : Option String) :
    (owned.onUpdate old update owner).path? path = (update.path? path).or (old.path? path) := by
  cases path with
  | none => rfl
  | some path =>
    have hpaths : (adopt old update owner).paths = update.paths := Service.paths_addOwner ..
    change (mergePaths old.paths (adopt old update owner).paths).find? _ = _
    rw [hpaths, find?_mergePaths]
    rfl

/-- An update by an owner neither shadows nor drops what it does not mention. -/
theorem keepsUnmentioned_onUpdate (old update : Service) (owner : String) :
    KeepsUnmentioned old update (owned.onUpdate old update owner) where
  bundle? path method := by
    have hbundle : (owned.onUpdate old update owner).bundle = update.bundle.or old.bundle :=
      congrArg (Option.or · old.bundle) (Service.bundle_addOwner ..)
    unfold Service.bundle?
    rw [path?_onUpdate_owned, hbundle]
  paths := by
    have hpaths : (adopt old update owner).paths = update.paths := Service.paths_addOwner ..
    have hmerge := exists_mergePaths old.paths update.paths
    rwa [← hpaths] at hmerge ⊢

end TrafficControl
