import Mathlib.Data.List.Induction
import TrafficControl.Proofs.Visits

/-!
# Tenures

An object that a registry gives under a key stays registered there until a request under this key
makes another version or the entry is dropped. An object that has lost its key does not get it back
(`Keeping.Lost`, `IsRun.lost`). After any number of visits a request is therefore answered with the
object that was given before exactly if its tenure has not ended (`IsRun.tenure`), and what is
registered is what was given and not dropped (`IsRun.isRegistered_iff`). This and what single visits
do makes up `KeepsState`, which every registry has that does what it should (`keepsState_trace`).
-/

namespace TrafficControl

variable {ρ α ε ι : Type}

namespace Visit

/-- Whether another version is given under a key, or its entry is dropped. -/
def EndsTenure (k : Keeping ρ α) (v : Visit ρ ε) (key : String) (version : UInt64) : Prop :=
  (∃ other n, v.Gives key other n ∧ other ≠ version) ∨ v.Drops k key

/-- The visits of a registry by a run of actions. -/
def trace (visit : ρ → ι → Visit ρ ε) (r : ρ) : List ι → List (Visit ρ ε)
  | [] => []
  | a :: as => visit r a :: trace visit (visit r a).after as

end Visit

/-- Whether an object was given under a key by some visit, and no later one dropped the entry. -/
def IsRegistered (k : Keeping ρ α) (visits : List (Visit ρ ε)) (key : String) : Prop :=
  ∃ earlier v later, visits = earlier ++ v :: later ∧ (∃ version n, v.Gives key version n) ∧
    ∀ w ∈ later, ¬w.Drops k key

/-- What a registry that is visited does. -/
structure KeepsState (k : Keeping ρ α) (visits : List (Visit ρ ε)) : Prop where
  /-- What is given has the version that was requested, and is registered under the key. -/
  version : ∀ v ∈ visits, ∀ key version n, v.Gives key version n →
    k.number? v.after key = some n ∧ (k.object? v.after n).map k.version = some version
  /-- Two requests for one version under one key are given the same object exactly if in between no
  other version was given under the key and the entry was not dropped. -/
  same_iff : ∀ past v between w later key version n n',
    visits = past ++ v :: (between ++ w :: later) → v.Gives key version n →
    w.Gives key version n' → (n = n' ↔ ∀ u ∈ between, ¬u.EndsTenure k key version)
  /-- An object does not change unless it is used. -/
  state : ∀ v ∈ visits, ∀ n a, k.object? v.before n = some a → v.deed ≠ .use n →
    k.object? v.after n = some a
  /-- A request that fails leaves the registry as it was. -/
  refused : ∀ v ∈ visits, ∀ key version e, v.deed = .request key version (.error e) →
    v.after = v.before
  /-- The size is the number of the keys registered and not dropped. -/
  size : ∀ past v later, visits = past ++ v :: later →
    IsCount (IsRegistered k (past ++ [v])) (k.size v.after)
  /-- The number of the entries dropped is told. -/
  recycled : ∀ v ∈ visits, ∀ dropped, v.deed = .recycle dropped → IsCount (v.Drops k) dropped

/-! ## Tenures -/

/-- Whether an object was made and is not registered under a key. -/
structure Keeping.Lost (k : Keeping ρ α) (r : ρ) (key : String) (n : Nat) : Prop where
  lt : n < k.made r
  unregistered : ∀ version, k.slot? r key ≠ some (n, version)

namespace Visit

open Keeping

variable {k : Keeping ρ α} {v : Visit ρ ε} {key : String} {version : UInt64} {n : Nat}

/-- Giving an object of a version does not end the tenure of one. -/
theorem Gives.not_endsTenure (h : v.Gives key version n) : ¬v.EndsTenure k key version := by
  rintro (⟨other, m, hgives, hne⟩ | hdrops)
  · exact hne (Deed.request.inj (hgives.symm.trans h)).2.1
  · exact hdrops.not_gives h

/-- A visit that does not end a tenure leaves the entry. -/
theorem Effect.slot?_of_not_endsTenure (h : v.Effect k key)
    (hentry : k.slot? v.before key = some (n, version)) (hends : ¬v.EndsTenure k key version) :
    k.slot? v.after key = some (n, version) := by
  cases h with
  | stays entry => exact entry.trans hentry
  | @renewed version' gives _ unlike =>
    have hne : version' ≠ version := by
      rintro rfl
      exact unlike n hentry
    exact absurd (.inl ⟨version', _, gives, hne⟩) hends
  | dropped drops => exact absurd (.inr drops) hends

/-- A visit that ends a tenure takes the key from the object. -/
theorem Obeys.lost_of_endsTenure (h : v.Obeys k) (hbounded : (k.shelf v.before).IsBounded)
    (hentry : k.slot? v.before key = some (n, version)) (hends : v.EndsTenure k key version) :
    k.Lost v.after key n where
  lt := Nat.lt_of_lt_of_le (lt_made_of_slot? hentry) h.made_le
  unregistered version' hafter := by
    cases h.effect hbounded key with
    | stays _ kept gives =>
      rcases hends with ⟨other, m, hgives, hne⟩ | hdrops
      · have hsame := (gives other m hgives).symm.trans hentry
        exact hne (Prod.mk.inj (Option.some.inj hsame)).2
      · exact kept hdrops
    | renewed _ entry =>
      have hnew := (Prod.mk.inj (Option.some.inj (entry.symm.trans hafter))).1
      exact Nat.ne_of_gt (lt_made_of_slot? hentry) hnew
    | dropped _ entry => exact nomatch entry.symm.trans hafter

/-- A visit does not give an object its key back. -/
theorem Obeys.lost (h : v.Obeys k) (hbounded : (k.shelf v.before).IsBounded)
    (hlost : k.Lost v.before key n) : k.Lost v.after key n where
  lt := Nat.lt_of_lt_of_le hlost.lt h.made_le
  unregistered version hafter := by
    cases h.effect hbounded key with
    | stays entry => exact hlost.unregistered version (entry.symm.trans hafter)
    | renewed _ entry =>
      have hnew := (Prod.mk.inj (Option.some.inj (entry.symm.trans hafter))).1
      exact Nat.ne_of_gt hlost.lt hnew
    | dropped _ entry => exact nomatch entry.symm.trans hafter

end Visit

/-! ## Runs of visits -/

/-- Whether a registry is visited again and again, and does what it should. -/
def IsRun (k : Keeping ρ α) : ρ → List (Visit ρ ε) → Prop
  | _, [] => True
  | r, v :: visits => v.before = r ∧ v.Obeys k ∧ IsRun k v.after visits

/-- The registry after visits. -/
def afterVisits (r : ρ) (visits : List (Visit ρ ε)) : ρ := visits.foldl (fun _ v => v.after) r

theorem afterVisits_concat (r : ρ) (visits : List (Visit ρ ε)) (v : Visit ρ ε) :
    afterVisits r (visits ++ [v]) = v.after := by
  simp [afterVisits]

/-- A key is registered after a visit that gives an object under it, and goes on to be until a visit
drops it. -/
theorem isRegistered_concat {k : Keeping ρ α} {visits : List (Visit ρ ε)} {v : Visit ρ ε}
    {key : String} : IsRegistered k (visits ++ [v]) key ↔
      (∃ version n, v.Gives key version n) ∨ IsRegistered k visits key ∧ ¬v.Drops k key := by
  constructor
  · rintro ⟨earlier, w, later, hsplit, hgives, hkept⟩
    rcases List.eq_nil_or_concat' later with rfl | ⟨later, u, rfl⟩
    · obtain ⟨-, hlast⟩ := List.append_inj' hsplit rfl
      obtain rfl := List.singleton_inj.1 hlast
      exact .inl hgives
    · rw [← List.cons_append, ← List.append_assoc] at hsplit
      obtain ⟨hpast, hlast⟩ := List.append_inj' hsplit rfl
      obtain rfl := List.singleton_inj.1 hlast
      refine .inr ⟨⟨earlier, w, later, hpast, hgives, fun u hu => ?_⟩, hkept v (by simp)⟩
      exact hkept u (List.mem_append_left _ hu)
  · rintro (hgives | ⟨⟨earlier, w, later, rfl, hgives, hkept⟩, hv⟩)
    · exact ⟨visits, v, [], rfl, hgives, by simp⟩
    · refine ⟨earlier, w, later ++ [v], by simp, hgives, fun u hu => ?_⟩
      rcases List.mem_append.1 hu with hu | hu
      · exact hkept u hu
      · obtain rfl := List.mem_singleton.1 hu
        exact hv

namespace IsRun

open Keeping

variable {k : Keeping ρ α} {r : ρ} {v : Visit ρ ε} {visits later : List (Visit ρ ε)}
  {key : String} {version : UInt64} {n : Nat}

theorem append_iff : IsRun k r (visits ++ later) ↔
    IsRun k r visits ∧ IsRun k (afterVisits r visits) later := by
  induction visits generalizing r with
  | nil => simp [IsRun, afterVisits]
  | cons v visits ih =>
    rw [List.cons_append, IsRun, IsRun, ih, and_assoc, and_assoc]
    rfl

theorem isBounded (h : IsRun k r visits) (hbounded : (k.shelf r).IsBounded) :
    (k.shelf (afterVisits r visits)).IsBounded := by
  induction visits generalizing r with
  | nil => exact hbounded
  | cons v visits ih =>
    obtain ⟨rfl, hobeys, hrest⟩ := h
    exact ih hrest (hobeys.isBounded hbounded)

theorem obeys_of_mem (h : IsRun k r visits) (hbounded : (k.shelf r).IsBounded) (hv : v ∈ visits) :
    v.Obeys k ∧ (k.shelf v.before).IsBounded := by
  obtain ⟨past, later, rfl⟩ := List.append_of_mem hv
  obtain ⟨hpast, hbefore, hobeys, -⟩ := append_iff.1 h
  exact ⟨hobeys, hbefore ▸ hpast.isBounded hbounded⟩

theorem lost (h : IsRun k r visits) (hbounded : (k.shelf r).IsBounded) (hlost : k.Lost r key n) :
    k.Lost (afterVisits r visits) key n := by
  induction visits generalizing r with
  | nil => exact hlost
  | cons v visits ih =>
    obtain ⟨rfl, hobeys, hrest⟩ := h
    exact ih hrest (hobeys.isBounded hbounded) (hobeys.lost hbounded hlost)

/-- An entry stays as long as no visit ends its tenure, and does not come back after one did. -/
theorem tenure (h : IsRun k r visits) (hbounded : (k.shelf r).IsBounded)
    (hentry : k.slot? r key = some (n, version)) :
    (∀ u ∈ visits, ¬u.EndsTenure k key version) ∧
        k.slot? (afterVisits r visits) key = some (n, version) ∨
      (∃ u ∈ visits, u.EndsTenure k key version) ∧ k.Lost (afterVisits r visits) key n := by
  induction visits generalizing r with
  | nil => exact .inl ⟨by simp, hentry⟩
  | cons v visits ih =>
    obtain ⟨rfl, hobeys, hrest⟩ := h
    have hbounded' := hobeys.isBounded hbounded
    by_cases hends : v.EndsTenure k key version
    · have hlost := hrest.lost hbounded' (hobeys.lost_of_endsTenure hbounded hentry hends)
      exact .inr ⟨⟨v, List.mem_cons_self, hends⟩, hlost⟩
    · have hafter := (hobeys.effect hbounded key).slot?_of_not_endsTenure hentry hends
      rcases ih hrest hbounded' hafter with ⟨hnone, hstill⟩ | ⟨⟨u, hu, hends'⟩, hlost⟩
      · exact .inl ⟨List.forall_mem_cons.2 ⟨hends, hnone⟩, hstill⟩
      · exact .inr ⟨⟨u, List.mem_cons_of_mem v hu, hends'⟩, hlost⟩

/-- Where nothing was registered at first, those keys are registered that were given and not
dropped. -/
theorem isRegistered_iff (h : IsRun k r visits) (hempty : ∀ key, (k.shelf r).find? key = none) :
    IsRegistered k visits key ↔ (k.slot? (afterVisits r visits) key).isSome := by
  have hbounded : (k.shelf r).IsBounded := fun key e he => nomatch (hempty key).symm.trans he
  induction visits using List.reverseRecOn with
  | nil =>
    have hnone : k.slot? (afterVisits r ([] : List (Visit ρ ε))) key = none := by
      simp [afterVisits, slot?, Shelf.roster, hempty]
    rw [hnone]
    refine iff_of_false ?_ (by simp)
    rintro ⟨earlier, w, later, hsplit, -⟩
    simp at hsplit
  | append_singleton visits v ih =>
    obtain ⟨hpast, hbefore, hobeys, -⟩ := append_iff.1 h
    have hiff : (k.slot? v.after key).isSome ↔ _ :=
      hobeys.isSome_slot?_after_iff (hbefore ▸ hpast.isBounded hbounded)
    rw [isRegistered_concat, afterVisits_concat, hiff, hbefore]
    exact or_congr_right (and_congr_left fun _ => ih hpast)

/-- A registry that does what it should keeps its state. -/
theorem keepsState (h : IsRun k r visits) (hempty : ∀ key, (k.shelf r).find? key = none) :
    KeepsState k visits := by
  have hbounded : (k.shelf r).IsBounded := fun key e he => nomatch (hempty key).symm.trans he
  refine ⟨fun v hv key version n hgives => ?_, ?_, fun v hv n a ha hused => ?_,
    fun v hv key version e hdeed => ?_, ?_, fun v hv dropped hdeed => ?_⟩
  · obtain ⟨hobeys, hbefore⟩ := h.obeys_of_mem hbounded hv
    have hentry := hobeys.slot?_of_gives hbefore hgives
    obtain ⟨owner, a, -, ha, hversion⟩ := slot?_eq_some_iff.1 hentry
    rw [number?_eq (hobeys.isBounded hbefore), hentry, ha]
    exact ⟨rfl, congrArg some hversion⟩
  · rintro past v between w later key version n n' rfl hv hw
    obtain ⟨hpast, hbefore, hobeys, hrest⟩ := append_iff.1 h
    obtain ⟨hbetween, hbefore', hobeys', -⟩ := append_iff.1 hrest
    have hbounded₁ : (k.shelf v.before).IsBounded := hbefore ▸ hpast.isBounded hbounded
    have hbounded₂ := hobeys.isBounded hbounded₁
    have hbounded₃ : (k.shelf w.before).IsBounded := hbefore' ▸ hbetween.isBounded hbounded₂
    have hlast := hobeys'.slot?_of_gives hbounded₃ hw
    rcases hbetween.tenure hbounded₂ (hobeys.slot?_of_gives hbounded₁ hv) with
      ⟨hnone, hstill⟩ | ⟨⟨u, hu, hends⟩, hlost⟩
    · rw [← hbefore'] at hstill
      have hsame := (hobeys'.effect hbounded₃ key).slot?_of_not_endsTenure hstill hw.not_endsTenure
      exact iff_of_true (Prod.mk.inj (Option.some.inj (hsame.symm.trans hlast))).1 hnone
    · rw [← hbefore'] at hlost
      refine iff_of_false ?_ fun hnone => hnone u hu hends
      rintro rfl
      exact (hobeys'.lost hbounded₃ hlost).unregistered version hlast
  · exact (h.obeys_of_mem hbounded hv).1.object?_of_ne ha hused
  · exact (h.obeys_of_mem hbounded hv).1.after_of_error hdeed
  · rintro past v later rfl
    rw [List.append_cons] at h
    have hpast := (append_iff.1 h).1
    have hbounded' := hpast.isBounded hbounded
    rw [afterVisits_concat] at hbounded'
    refine (k.counts v.after).congr fun key => ?_
    rw [hpast.isRegistered_iff hempty, afterVisits_concat, isSome_slot?_iff hbounded']
  · exact (h.obeys_of_mem hbounded hv).1.counts_drops hdeed

end IsRun

/-- So it is with any actions, if every single one has the registry do what it should. -/
theorem keepsState_trace {k : Keeping ρ α} {visit : ρ → ι → Visit ρ ε} {r : ρ}
    (hbefore : ∀ r a, (visit r a).before = r)
    (hobeys : ∀ r a, (k.shelf r).IsBounded → (visit r a).Obeys k)
    (hempty : ∀ key, (k.shelf r).find? key = none) (actions : List ι) :
    KeepsState k (Visit.trace visit r actions) := by
  have hrun : ∀ r, (k.shelf r).IsBounded → IsRun k r (Visit.trace visit r actions) := by
    induction actions with
    | nil => exact fun _ _ => trivial
    | cons a actions ih =>
      intro r hbounded
      have hvisit := hobeys r a hbounded
      have hbefore' := hbefore r a
      exact ⟨hbefore', hvisit, ih _ (hvisit.isBounded (hbefore'.symm ▸ hbounded))⟩
  exact (hrun r fun key e he => nomatch (hempty key).symm.trans he).keepsState hempty

end TrafficControl
