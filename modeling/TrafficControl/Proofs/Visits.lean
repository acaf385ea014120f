import Mathlib.Data.Finset.Card
import TrafficControl.Proofs.Roster

/-!
# Visits of registries

A registry is visited again and again : an object is requested under a key, entries are dropped, an
object is used (`Deed`). `Keeping` is what one needs to know of a kind of registry to tell what
comes of a visit, `Visit.Obeys` what a registry does when it is visited.

For a single key this comes to one of three (`Visit.Effect`, `Visit.Obeys.effect`) : the entry
stays, or a new object takes it, or it is dropped. Objects do not change unless they are used
(`Visit.Obeys.object?_of_ne`), and are never unmade (`Visit.Obeys.made_le`).
-/

namespace TrafficControl

variable {ρ α ε : Type}

/-- What is done with a registry, and what comes of it. -/
inductive Deed (ε : Type) where
  /-- An object of a version is requested under a key. The answer is its number. -/
  | request (key : String) (version : UInt64) (answer : Except ε Nat)
  /-- Entries are dropped. The answer is how many. -/
  | recycle (dropped : Nat)
  /-- The object of a number is used. -/
  | use (n : Nat)
  /-- Something that concerns no object. -/
  | other
deriving DecidableEq

/-- A registry before and after a deed. -/
structure Visit (ρ ε : Type) where
  before : ρ
  deed : Deed ε
  after : ρ

/-- Whether so many names have a property. -/
def IsCount (P : String → Prop) (n : Nat) : Prop :=
  ∃ names : Finset String, (∀ name, name ∈ names ↔ P name) ∧ names.card = n

/-- How a kind of registry keeps its objects. -/
structure Keeping (ρ α : Type) where
  shelf : ρ → Shelf α
  size : ρ → Nat
  version : α → UInt64
  counts : ∀ r, IsCount (fun key => ((shelf r).find? key).isSome) (size r)

namespace Keeping

variable (k : Keeping ρ α)

/-- The number of the object registered under a key. -/
def number? (r : ρ) (key : String) : Option Nat := ((k.shelf r).find? key).map (·.2)

/-- The object of a number. -/
def object? (r : ρ) (n : Nat) : Option α := (k.shelf r).objects[n]?

/-- The number and the version of the object registered under a key. -/
def slot? (r : ρ) (key : String) : Option (Nat × UInt64) :=
  ((k.shelf r).roster k.version).find? key

/-- How many objects were made so far. -/
def made (r : ρ) : Nat := (k.shelf r).objects.length

end Keeping

namespace Visit

/-- Whether an object is given under a key and a version. -/
def Gives (v : Visit ρ ε) (key : String) (version : UInt64) (n : Nat) : Prop :=
  v.deed = .request key version (.ok n)

/-- Whether the entry under a key is dropped. -/
structure Drops (k : Keeping ρ α) (v : Visit ρ ε) (key : String) : Prop where
  recycles : ∃ dropped, v.deed = .recycle dropped
  before : (k.number? v.before key).isSome
  after : k.number? v.after key = none

end Visit

/-! ## What a visit does -/

namespace IsCount

variable {P Q : String → Prop} {m n : Nat}

theorem congr (h : IsCount P n) (hP : ∀ name, P name ↔ Q name) : IsCount Q n := by
  obtain ⟨names, hnames, hcard⟩ := h
  exact ⟨names, fun name => (hnames name).trans (hP name), hcard⟩

/-- Of a number of names, those that are left are counted by subtraction. -/
theorem sdiff (h : IsCount P n) (h' : IsCount Q m) (hQ : ∀ name, Q name → P name) :
    IsCount (fun name => P name ∧ ¬Q name) (n - m) := by
  obtain ⟨names, hnames, rfl⟩ := h
  obtain ⟨names', hnames', rfl⟩ := h'
  have hsub : names' ⊆ names := fun name hname =>
    (hnames name).2 (hQ name ((hnames' name).1 hname))
  refine ⟨names \ names', fun name => ?_, Finset.card_sdiff_of_subset hsub⟩
  rw [Finset.mem_sdiff, hnames, hnames']

end IsCount

/-- What a registry does when it is visited. -/
inductive Visit.Obeys (k : Keeping ρ α) : Visit ρ ε → Prop where
  | given {r r' : ρ} {key service : String} {version : UInt64} {n : Nat} {make : Except ε α}
      (hmake : ∀ a, make = .ok a → k.version a = version)
      (hget : (k.shelf r).get key service (k.version · = version) make = .ok (n, k.shelf r')) :
      Obeys k ⟨r, .request key version (.ok n), r'⟩
  | refused (r : ρ) (key : String) (version : UInt64) (e : ε) :
      Obeys k ⟨r, .request key version (.error e), r⟩
  | recycled {r r' : ρ} (hobjects : (k.shelf r').objects = (k.shelf r).objects)
      (hfind : ∀ key, (k.shelf r').find? key = (k.shelf r).find? key ∨
        (k.shelf r').find? key = none) :
      Obeys k ⟨r, .recycle (k.size r - k.size r'), r'⟩
  | used {r r' : ρ} {n : Nat} {a a' : α} (ha : k.object? r n = some a)
      (hversion : k.version a' = k.version a) (hput : k.shelf r' = (k.shelf r).put n a') :
      Obeys k ⟨r, .use n, r'⟩
  | unused (r : ρ) (n : Nat) : Obeys k ⟨r, .use n, r⟩
  | other {r r' : ρ} (hshelf : k.shelf r' = k.shelf r) : Obeys k ⟨r, .other, r'⟩

/-- What a visit comes to for a key. -/
inductive Visit.Effect (k : Keeping ρ α) (v : Visit ρ ε) (key : String) : Prop where
  /-- The entry stays, and is given if it is asked for. -/
  | stays (entry : k.slot? v.after key = k.slot? v.before key) (kept : ¬v.Drops k key)
      (gives : ∀ version n, v.Gives key version n → k.slot? v.before key = some (n, version))
  /-- A new object of another version takes the entry. -/
  | renewed {version : UInt64} (gives : v.Gives key version (k.made v.before))
      (entry : k.slot? v.after key = some (k.made v.before, version))
      (unlike : ∀ n, k.slot? v.before key ≠ some (n, version))
      (lt : k.made v.before < k.made v.after)
  /-- The entry is dropped. -/
  | dropped (drops : v.Drops k key) (entry : k.slot? v.after key = none)

namespace Keeping

variable {k : Keeping ρ α} {r : ρ} {key : String} {version : UInt64} {n : Nat}

theorem slot?_eq_some_iff : k.slot? r key = some (n, version) ↔
    ∃ owner a, (k.shelf r).find? key = some (owner, n) ∧ k.object? r n = some a ∧
      k.version a = version := Shelf.find?_roster_eq_some_iff

theorem lt_made_of_slot? (h : k.slot? r key = some (n, version)) : n < k.made r := by
  obtain ⟨owner, a, -, ha, -⟩ := slot?_eq_some_iff.1 h
  exact (List.getElem?_eq_some_iff.1 ha).1

/-- What is registered is there. -/
theorem number?_eq (h : (k.shelf r).IsBounded) (key : String) :
    k.number? r key = (k.slot? r key).map (·.1) := by
  unfold number? slot? Shelf.roster
  dsimp only
  cases hfound : (k.shelf r).find? key with
  | none => rfl
  | some e =>
    rw [Option.bind_some, List.getElem?_eq_getElem (h key e hfound)]
    rfl

theorem isSome_slot?_iff (h : (k.shelf r).IsBounded) :
    (k.slot? r key).isSome ↔ ((k.shelf r).find? key).isSome := by
  have hnumber := congrArg Option.isSome (number?_eq h key)
  rw [number?, Option.isSome_map, Option.isSome_map] at hnumber
  rw [hnumber]

theorem slot?_of_shelf {r' : ρ} (h : k.shelf r' = k.shelf r) (key : String) :
    k.slot? r' key = k.slot? r key := by
  rw [slot?, h, slot?]

theorem slot?_register {r' : ρ} {asked owner : String} {a : α} (h : (k.shelf r).IsBounded)
    (hshelf : k.shelf r' = (k.shelf r).register asked owner a) (key : String) :
    k.slot? r' key = if key = asked then some (k.made r, k.version a) else k.slot? r key := by
  rw [slot?, hshelf, Shelf.roster_register h]
  exact Function.update_apply ..

end Keeping

namespace Visit

open Keeping

variable {k : Keeping ρ α} {v : Visit ρ ε} {key : String} {version : UInt64} {n : Nat}

theorem Obeys.isBounded (h : v.Obeys k) (hbounded : (k.shelf v.before).IsBounded) :
    (k.shelf v.after).IsBounded := by
  cases h with
  | given _ hget => exact hbounded.get hget
  | refused => exact hbounded
  | recycled hobjects hfind =>
    intro key e he
    rw [hobjects]
    rcases hfind key with hsame | hnone
    · exact hbounded key e (hsame ▸ he)
    · exact nomatch hnone.symm.trans he
  | used _ _ hput => exact hput ▸ hbounded.put _ _
  | unused => exact hbounded
  | other hshelf => exact hshelf ▸ hbounded

theorem Drops.not_gives (h : v.Drops k key) : ¬v.Gives key version n := by
  obtain ⟨dropped, hdeed⟩ := h.recycles
  intro hgives
  exact nomatch hdeed.symm.trans hgives

/-- An entry that is the same before and after has stayed. -/
theorem effect_of_slot?_eq (hbounded : (k.shelf v.before).IsBounded)
    (hbounded' : (k.shelf v.after).IsBounded)
    (hentry : k.slot? v.after key = k.slot? v.before key)
    (hgives : ∀ version n, v.Gives key version n → k.slot? v.before key = some (n, version)) :
    v.Effect k key := by
  refine .stays hentry (fun hdrops => ?_) hgives
  have hsome := hdrops.before
  have hnone := hdrops.after
  rw [number?_eq hbounded', hentry, ← number?_eq hbounded] at hnone
  rw [hnone] at hsome
  exact nomatch hsome

/-- A request that is answered gives the entry, or has a new object take it. -/
theorem effect_of_get {r r' : ρ} {asked service : String} {make : Except ε α}
    (hbounded : (k.shelf r).IsBounded) (hmake : ∀ a, make = .ok a → k.version a = version)
    (hget : (k.shelf r).get asked service (k.version · = version) make = .ok (n, k.shelf r'))
    (key : String) :
    (⟨r, .request asked version (.ok n), r'⟩ : Visit ρ ε).Effect k key := by
  have hbounded' := hbounded.get hget
  rcases Shelf.get_cases hget with ⟨hshelf, owner, a, hfound, ha, hwanted⟩ |
    ⟨owner, a, hmade, hshelf, rfl, hunwanted⟩
  · refine effect_of_slot?_eq hbounded hbounded' (slot?_of_shelf hshelf key) fun _ _ hgives => ?_
    obtain ⟨rfl, rfl, hn⟩ := Deed.request.inj hgives
    obtain rfl := Except.ok.inj hn
    exact slot?_eq_some_iff.2 ⟨owner, a, hfound, ha, by simpa using hwanted⟩
  · have hentry := slot?_register hbounded hshelf key
    rw [hmake a hmade] at hentry
    by_cases hkey : key = asked
    · subst hkey
      refine .renewed rfl (hentry.trans (if_pos rfl)) (fun m hm => ?_) ?_
      · obtain ⟨_, b, hsome, hb, hversion⟩ := slot?_eq_some_iff.1 hm
        exact hunwanted _ b hsome hb (by simpa using hversion)
      · simp [made, hshelf, Shelf.register]
    · refine effect_of_slot?_eq hbounded hbounded' (hentry.trans (if_neg hkey)) fun _ _ hgives => ?_
      exact absurd (Deed.request.inj hgives).1.symm hkey

/-- Every visit has one of the three effects on a key. -/
theorem Obeys.effect (h : v.Obeys k) (hbounded : (k.shelf v.before).IsBounded) (key : String) :
    v.Effect k key := by
  have hbounded' := h.isBounded hbounded
  cases h with
  | given hmake hget => exact effect_of_get hbounded hmake hget key
  | refused =>
    exact effect_of_slot?_eq hbounded hbounded' rfl fun _ _ hgives =>
      nomatch (Deed.request.inj hgives).2.2
  | @recycled r r' hobjects hfind =>
    have hcases : k.slot? r' key = k.slot? r key ∨ k.slot? r' key = none := by
      unfold slot? Shelf.roster
      dsimp only
      rw [hobjects]
      rcases hfind key with hsame | hnone
      · exact .inl (by rw [hsame])
      · exact .inr (by rw [hnone, Option.bind_none])
    by_cases hsame : k.slot? r' key = k.slot? r key
    · exact effect_of_slot?_eq hbounded hbounded' hsame fun _ _ hgives => nomatch hgives
    · have hnone : k.slot? r' key = none := hcases.resolve_left hsame
      refine .dropped ⟨⟨_, rfl⟩, ?_, ?_⟩ hnone
      · rw [number?_eq hbounded, Option.isSome_map, Option.isSome_iff_ne_none]
        exact fun h => hsame (hnone.trans h.symm)
      · rw [number?_eq hbounded', hnone, Option.map_none]
  | @used r r' n a a' ha hversion hput =>
    have hentry : k.slot? r' key = k.slot? r key := by
      rw [slot?, hput, Shelf.roster_put ha hversion, slot?]
    exact effect_of_slot?_eq hbounded hbounded' hentry fun _ _ hgives => nomatch hgives
  | unused =>
    exact effect_of_slot?_eq hbounded hbounded' rfl fun _ _ hgives => nomatch hgives
  | other hshelf =>
    exact effect_of_slot?_eq hbounded hbounded' (slot?_of_shelf hshelf key) fun _ _ hgives =>
      nomatch hgives

/-- No object is unmade. -/
theorem Obeys.made_le (h : v.Obeys k) : k.made v.before ≤ k.made v.after := by
  cases h with
  | given _ hget =>
    rcases Shelf.get_cases hget with ⟨hshelf, -⟩ | ⟨owner, a, -, hshelf, -⟩
    · exact Nat.le_of_eq (by rw [made, made, hshelf])
    · simp [made, hshelf, Shelf.register]
  | refused => exact Nat.le_refl _
  | recycled hobjects => exact Nat.le_of_eq (by rw [made, made, hobjects])
  | used _ _ hput => exact Nat.le_of_eq (by rw [made, made, hput, Shelf.put, List.length_set])
  | unused => exact Nat.le_refl _
  | other hshelf => exact Nat.le_of_eq (by rw [made, made, hshelf])

/-- What was given is registered. -/
theorem Obeys.slot?_of_gives (h : v.Obeys k) (hbounded : (k.shelf v.before).IsBounded)
    (hgives : v.Gives key version n) : k.slot? v.after key = some (n, version) := by
  cases h.effect hbounded key with
  | stays entry _ gives => exact entry.trans (gives version n hgives)
  | renewed gives entry =>
    obtain ⟨-, rfl, hn⟩ := Deed.request.inj (gives.symm.trans hgives)
    obtain rfl := Except.ok.inj hn
    exact entry
  | dropped drops => exact absurd hgives drops.not_gives

/-- An entry is there after a visit that gives it, or if it was there and is not dropped. -/
theorem Obeys.isSome_slot?_after_iff (h : v.Obeys k) (hbounded : (k.shelf v.before).IsBounded) :
    (k.slot? v.after key).isSome ↔
      (∃ version n, v.Gives key version n) ∨
        (k.slot? v.before key).isSome ∧ ¬v.Drops k key := by
  cases h.effect hbounded key with
  | stays entry kept gives =>
    rw [entry]
    refine ⟨fun hsome => .inr ⟨hsome, kept⟩, ?_⟩
    rintro (⟨version, n, hgives⟩ | ⟨hsome, -⟩)
    · rw [gives version n hgives]
      rfl
    · exact hsome
  | renewed gives entry =>
    rw [entry]
    exact iff_of_true rfl (.inl ⟨_, _, gives⟩)
  | dropped drops entry =>
    rw [entry]
    refine iff_of_false (by simp) ?_
    rintro (⟨version, n, hgives⟩ | ⟨-, hkept⟩)
    · exact drops.not_gives hgives
    · exact hkept drops

/-- An object does not change unless it is used. -/
theorem Obeys.object?_of_ne (h : v.Obeys k) {a : α} (ha : k.object? v.before n = some a)
    (hused : v.deed ≠ .use n) : k.object? v.after n = some a := by
  cases h with
  | given _ hget =>
    rcases Shelf.get_cases hget with ⟨hshelf, -⟩ | ⟨owner, b, -, hshelf, -⟩
    · rwa [object?, hshelf]
    · rw [object?, hshelf]
      exact (List.getElem?_append_left (List.getElem?_eq_some_iff.1 ha).1).trans ha
  | refused => exact ha
  | recycled hobjects => rwa [object?, hobjects]
  | @used r r' m b b' hb hversion hput =>
    rw [object?, hput]
    exact (List.getElem?_set_ne fun heq => hused (congrArg _ heq)).trans ha
  | unused => exact ha
  | other hshelf => rwa [object?, hshelf]

theorem Obeys.after_of_error (h : v.Obeys k) {e : ε}
    (hdeed : v.deed = .request key version (.error e)) : v.after = v.before := by
  cases h with
  | given => exact nomatch (Deed.request.inj hdeed).2.2
  | refused => rfl
  | recycled => exact nomatch hdeed
  | used => exact nomatch hdeed
  | unused => exact nomatch hdeed
  | other => exact nomatch hdeed

/-- The entries dropped are counted by how much smaller the registry is. -/
theorem Obeys.counts_drops (h : v.Obeys k) {dropped : Nat} (hdeed : v.deed = .recycle dropped) :
    IsCount (v.Drops k) dropped := by
  cases h with
  | given => exact nomatch hdeed
  | refused => exact nomatch hdeed
  | @recycled r r' hobjects hfind =>
    obtain rfl := Deed.recycle.inj hdeed
    have hkept : ∀ key, ((k.shelf r').find? key).isSome → ((k.shelf r).find? key).isSome := by
      intro key hsome
      rcases hfind key with hsame | hnone
      · rwa [hsame] at hsome
      · rw [hnone] at hsome
        exact nomatch hsome
    refine ((k.counts r).sdiff (k.counts r') hkept).congr fun key => ?_
    constructor
    · rintro ⟨hbefore, hafter⟩
      exact ⟨⟨_, rfl⟩, by simpa [number?] using hbefore, by simpa [number?] using hafter⟩
    · rintro ⟨-, hbefore, hafter⟩
      exact ⟨by simpa [number?] using hbefore, by simpa [number?] using hafter⟩
  | used => exact nomatch hdeed
  | unused => exact nomatch hdeed
  | other => exact nomatch hdeed

end Visit

end TrafficControl
