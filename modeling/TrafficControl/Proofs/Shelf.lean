import Mathlib.Data.List.Forall2
import Mathlib.Data.Option.Basic
import Mathlib.Logic.Function.Basic

/-!
# Shelves

A `Shelf` is what a registry of breakers or limiters is made of : all objects ever made, by their
numbers, and under each key the number of the object registered there, with the service it is for.
An object is got by its key (`Shelf.get`), put in a changed state by its number (`Shelf.put`), or is
no longer registered (`Shelf.retain`).

Two shelves match on a set of keys if what is registered under these keys is the same, up to the
numbers (`Shelf.Matches`). They still match after the same was done to both under these keys, and
also after anything was done to the first one under other keys. Numbers given on the first shelf
under other keys stay foreign to the correspondence (`Shelf.IsForeign`).
-/

namespace TrafficControl

/-- Objects by number, and under each key the number of one, with the service it is for. -/
structure Shelf (α : Type) where
  find? : String → Option (String × Nat)
  objects : List α

/-- Whether two lists have the same entries, under numbers that correspond. -/
def NumberedAlike {β : Type} (B : Nat → Nat → Prop) : List (Nat × β) → List (Nat × β) → Prop :=
  List.Forall₂ fun q q' => B q.1 q'.1 ∧ q.2 = q'.2

namespace NumberedAlike

variable {β γ : Type} {B B' : Nat → Nat → Prop} {l l' : List (Nat × β)}

theorem mono (h : NumberedAlike B l l') (hB : ∀ {n n'}, B n n' → B' n n') : NumberedAlike B' l l' :=
  List.Forall₂.imp (fun _ _ hq => ⟨hB hq.1, hq.2⟩) h

/-- What is found under numbers that correspond is put in their place. -/
theorem map_eq (h : NumberedAlike B l l') {f f' : Nat → γ} (hf : ∀ {n n'}, B n n' → f' n' = f n) :
    l'.map (fun q => (f' q.1, q.2)) = l.map fun q => (f q.1, q.2) := by
  induction h with
  | nil => rfl
  | cons hq _ ih => rw [List.map_cons, List.map_cons, ih, hf hq.1, hq.2]

end NumberedAlike

namespace Shelf

variable {α ε : Type}

/-- Register a new object under a key. -/
def register (s : Shelf α) (key service : String) (a : α) : Shelf α where
  find? := Function.update s.find? key (some (service, s.objects.length))
  objects := s.objects ++ [a]

/-- The number of the object for a key, which is made if the one registered is not wanted. -/
def get (s : Shelf α) (key service : String) (wanted : α → Bool) (make : Except ε α) :
    Except ε (Nat × Shelf α) :=
  match s.find? key with
  | some (owner, n) =>
    if s.objects[n]?.any wanted then .ok (n, s)
    else make.map fun a => (s.objects.length, s.register key owner a)
  | none => make.map fun a => (s.objects.length, s.register key service a)

/-- Put the object of a number in its changed state. -/
def put (s : Shelf α) (n : Nat) (a : α) : Shelf α := { s with objects := s.objects.set n a }

/-- Keep registered what is to be kept, by service and object. -/
def retain (s : Shelf α) (keep : String → α → Bool) : Shelf α :=
  { s with find? := fun key => (s.find? key).filter fun e => s.objects[e.2]?.all (keep e.1) }

/-- Whether all that is registered is there. -/
def IsBounded (s : Shelf α) : Prop := ∀ key e, s.find? key = some e → e.2 < s.objects.length

/-- Whether a number is that of an object to which no other corresponds. -/
structure IsForeign (s : Shelf α) (B : Nat → Nat → Prop) (n : Nat) : Prop where
  lt : n < s.objects.length
  single : ∀ n', ¬B n n'

/-- Whether the same is registered under the keys given, where `B` tells which numbers stand for the
same object. -/
structure Matches (K : String → Prop) (B : Nat → Nat → Prop) (s s' : Shelf α) : Prop where
  unique : ∀ {n n' m m'}, B n n' → B m m' → (n = m ↔ n' = m')
  object : ∀ {n n'}, B n n' → ∃ a, s.objects[n]? = some a ∧ s'.objects[n']? = some a
  registered : ∀ k, K k →
    Option.Rel (fun e e' => e.1 = e'.1 ∧ B e.2 e'.2) (s.find? k) (s'.find? k)
  foreign : ∀ k e, ¬K k → s.find? k = some e → s.IsForeign B e.2

/-- Whether objects were added to a shelf, and only the numbers of such were brought into the
correspondence. -/
structure Grows (s : Shelf α) (B : Nat → Nat → Prop) (t : Shelf α) (B' : Nat → Nat → Prop) :
    Prop where
  length : s.objects.length ≤ t.objects.length
  keeps : ∀ {n n'}, B n n' → B' n n'
  fresh : ∀ {n n'}, B' n n' → B n n' ∨ s.objects.length ≤ n

variable {K : String → Prop} {B B' B'' : Nat → Nat → Prop} {s s' t u : Shelf α} {n n' : Nat}
  {key service : String}

theorem find?_register (s : Shelf α) (key service : String) (a : α) (k : String) :
    (s.register key service a).find? k =
      if k = key then some (service, s.objects.length) else s.find? k :=
  Function.update_apply ..

/-- The object for a key is the one registered there, if it is wanted, and otherwise a new one. -/
theorem get_cases {wanted : α → Bool} {make : Except ε α}
    (h : s.get key service wanted make = .ok (n, t)) :
    (t = s ∧ ∃ owner a, s.find? key = some (owner, n) ∧ s.objects[n]? = some a ∧ wanted a) ∨
      ∃ owner a, make = .ok a ∧ t = s.register key owner a ∧ n = s.objects.length ∧
        ∀ e b, s.find? key = some e → s.objects[e.2]? = some b → ¬wanted b := by
  have hmade : ∀ owner, (make.map fun a => (s.objects.length, s.register key owner a)) =
      .ok (n, t) → ∃ a, make = .ok a ∧ t = s.register key owner a ∧ n = s.objects.length := by
    intro owner hmade
    cases make with
    | error e => exact nomatch hmade
    | ok a =>
      obtain ⟨rfl, rfl⟩ := Prod.mk.inj (Except.ok.inj hmade)
      exact ⟨a, rfl, rfl, rfl⟩
  unfold get at h
  cases hfound : s.find? key with
  | none =>
    rw [hfound] at h
    obtain ⟨a, ha, ht, hn⟩ := hmade service h
    exact .inr ⟨service, a, ha, ht, hn, fun e b he => nomatch he⟩
  | some e =>
    obtain ⟨owner, m⟩ := e
    rw [hfound] at h
    dsimp only at h
    split at h
    · next hwanted =>
      obtain ⟨rfl, rfl⟩ := Prod.mk.inj (Except.ok.inj h)
      obtain ⟨a, ha, hwanted⟩ := (Option.any_eq_true ..).1 hwanted
      exact .inl ⟨rfl, owner, a, rfl, ha, hwanted⟩
    · next hunwanted =>
      obtain ⟨a, ha, ht, hn⟩ := hmade owner h
      refine .inr ⟨owner, a, ha, ht, hn, fun e b he hb hwanted => hunwanted ?_⟩
      obtain rfl := Option.some.inj he
      exact (Option.any_eq_true ..).2 ⟨b, hb, hwanted⟩

namespace IsBounded

theorem register (h : s.IsBounded) (key service : String) (a : α) :
    (s.register key service a).IsBounded := by
  intro k e he
  rw [find?_register] at he
  simp only [Shelf.register, List.length_append, List.length_singleton]
  split at he
  · obtain rfl := Option.some.inj he
    exact Nat.lt_succ_self _
  · exact Nat.lt_succ_of_lt (h k e he)

theorem put (h : s.IsBounded) (n : Nat) (a : α) : (s.put n a).IsBounded := by
  intro k e he
  rw [Shelf.put, List.length_set]
  exact h k e he

theorem retain (h : s.IsBounded) (keep : String → α → Bool) : (s.retain keep).IsBounded :=
  fun k e he => h k e (Option.filter_eq_some_iff.1 he).1

theorem get (h : s.IsBounded) {wanted : α → Bool} {make : Except ε α}
    (hget : s.get key service wanted make = .ok (n, t)) : t.IsBounded := by
  rcases get_cases hget with ⟨rfl, -⟩ | ⟨owner, a, -, rfl, -⟩
  · exact h
  · exact h.register key owner a

end IsBounded

theorem Grows.refl (s : Shelf α) (B : Nat → Nat → Prop) : s.Grows B s B :=
  ⟨Nat.le_refl _, id, .inl⟩

theorem Grows.trans (h : s.Grows B t B') (h' : t.Grows B' u B'') : s.Grows B u B'' where
  length := Nat.le_trans h.length h'.length
  keeps hn := h'.keeps (h.keeps hn)
  fresh hn := by
    rcases h'.fresh hn with hold | hnew
    · exact h.fresh hold
    · exact .inr (Nat.le_trans h.length hnew)

theorem IsForeign.grows (h : s.IsForeign B n) (hgrows : s.Grows B t B') : t.IsForeign B' n where
  lt := Nat.lt_of_lt_of_le h.lt hgrows.length
  single n' hn := by
    rcases hgrows.fresh hn with hold | hnew
    · exact h.single n' hold
    · exact absurd h.lt (Nat.not_lt.2 hnew)

theorem grows_put (s : Shelf α) (B : Nat → Nat → Prop) (n : Nat) (a : α) :
    s.Grows B (s.put n a) B :=
  ⟨Nat.le_of_eq (List.length_set ..).symm, id, .inl⟩

namespace Matches

theorem lt (h : s.Matches K B s') (hn : B n n') :
    n < s.objects.length ∧ n' < s'.objects.length := by
  obtain ⟨a, ha, ha'⟩ := h.object hn
  exact ⟨(List.getElem?_eq_some_iff.1 ha).1, (List.getElem?_eq_some_iff.1 ha').1⟩

theorem lt_of_find? (h : s.Matches K B s') {e : String × Nat} (he : s.find? key = some e) :
    e.2 < s.objects.length := by
  by_cases hk : K key
  · have hsame := h.registered key hk
    generalize s'.find? key = found' at hsame
    rw [he] at hsame
    cases hsame with
    | some hrel => exact (h.lt hrel.2).1
  · exact (h.foreign key e hk he).lt

theorem lt_of_find?' (h : s.Matches K B s') (hk : K key) {e : String × Nat}
    (he : s'.find? key = some e) : e.2 < s'.objects.length := by
  have hsame := h.registered key hk
  generalize s.find? key = found at hsame
  rw [he] at hsame
  cases hsame with
  | some hrel => exact (h.lt hrel.2).2

/-- The same object is changed in the same way. -/
theorem put (h : s.Matches K B s') (hn : B n n') (a : α) :
    (s.put n a).Matches K B (s'.put n' a) where
  unique := h.unique
  object {m m'} hm := by
    obtain ⟨hlt, hlt'⟩ := h.lt hn
    by_cases heq : n = m
    · have heq' : n' = m' := (h.unique hn hm).1 heq
      subst heq heq'
      exact ⟨a, List.getElem?_set_self hlt, List.getElem?_set_self hlt'⟩
    · have hne : n' ≠ m' := fun heq' => heq ((h.unique hn hm).2 heq')
      obtain ⟨b, hb, hb'⟩ := h.object hm
      exact ⟨b, (List.getElem?_set_ne heq).trans hb, (List.getElem?_set_ne hne).trans hb'⟩
  registered := h.registered
  foreign k e hk he := (h.foreign k e hk he).grows (s.grows_put B n a)

/-- A foreign object is changed. -/
theorem put_foreign (h : s.Matches K B s') (hn : s.IsForeign B n) (a : α) :
    (s.put n a).Matches K B s' where
  unique := h.unique
  object {m m'} hm := by
    have hne : n ≠ m := by
      rintro rfl
      exact hn.single m' hm
    obtain ⟨b, hb, hb'⟩ := h.object hm
    exact ⟨b, (List.getElem?_set_ne hne).trans hb, hb'⟩
  registered := h.registered
  foreign k e hk he := (h.foreign k e hk he).grows (s.grows_put B n a)

/-- The same is registered under one of the keys. -/
theorem register (h : s.Matches K B s') (hk : K key) (service : String) (a : α) :
    ∃ B', s.Grows B (s.register key service a) B' ∧ B' s.objects.length s'.objects.length ∧
      (s.register key service a).Matches K B' (s'.register key service a) := by
  have hgrows : s.Grows B (s.register key service a)
      (fun n n' => B n n' ∨ n = s.objects.length ∧ n' = s'.objects.length) :=
    { length := by simp [Shelf.register]
      keeps := .inl
      fresh := fun hn => hn.imp_right fun hnew => Nat.le_of_eq hnew.1.symm }
  refine ⟨_, hgrows, .inr ⟨rfl, rfl⟩, ?_, ?_, ?_, ?_⟩
  · rintro n n' m m' (hn | ⟨rfl, rfl⟩) (hm | ⟨rfl, rfl⟩)
    · exact h.unique hn hm
    · exact iff_of_false (Nat.ne_of_lt (h.lt hn).1) (Nat.ne_of_lt (h.lt hn).2)
    · exact iff_of_false (Nat.ne_of_gt (h.lt hm).1) (Nat.ne_of_gt (h.lt hm).2)
    · exact iff_of_true rfl rfl
  · rintro n n' (hn | ⟨rfl, rfl⟩)
    · obtain ⟨b, hb, hb'⟩ := h.object hn
      exact ⟨b, (List.getElem?_append_left (h.lt hn).1).trans hb,
        (List.getElem?_append_left (h.lt hn).2).trans hb'⟩
    · exact ⟨a, List.getElem?_concat_length, List.getElem?_concat_length⟩
  · intro k hk'
    rw [find?_register, find?_register]
    split
    · exact .some ⟨rfl, .inr ⟨rfl, rfl⟩⟩
    · have hsame := h.registered k hk'
      generalize s.find? k = found, s'.find? k = found' at hsame ⊢
      cases hsame with
      | some he => exact .some ⟨he.1, .inl he.2⟩
      | none => exact .none
  · intro k e hk' he
    have hne : k ≠ key := by
      rintro rfl
      exact hk' hk
    rw [find?_register, if_neg hne] at he
    exact (h.foreign k e hk' he).grows hgrows

/-- Something is registered under another key. -/
theorem register_foreign (h : s.Matches K B s') (hk : ¬K key) (service : String) (a : α) :
    (s.register key service a).Matches K B s' ∧
      (s.register key service a).IsForeign B s.objects.length := by
  have hgrows : s.Grows B (s.register key service a) B :=
    ⟨by simp [Shelf.register], id, .inl⟩
  have hforeign : (s.register key service a).IsForeign B s.objects.length :=
    ⟨by simp [Shelf.register], fun n' hn => Nat.lt_irrefl _ (h.lt hn).1⟩
  refine ⟨⟨h.unique, fun hn => ?_, fun k hk' => ?_, fun k e hk' he => ?_⟩, hforeign⟩
  · obtain ⟨b, hb, hb'⟩ := h.object hn
    exact ⟨b, (List.getElem?_append_left (h.lt hn).1).trans hb, hb'⟩
  · have hne : k ≠ key := by
      rintro rfl
      exact hk hk'
    rw [find?_register, if_neg hne]
    exact h.registered k hk'
  · rw [find?_register] at he
    split at he
    · obtain rfl := Option.some.inj he
      exact hforeign
    · exact (h.foreign k e hk' he).grows hgrows

/-- The same objects are kept registered. -/
theorem retain (h : s.Matches K B s') (keep : String → α → Bool) :
    (s.retain keep).Matches K B (s'.retain keep) where
  unique := h.unique
  object := h.object
  registered k hk := by
    have hsame := h.registered k hk
    unfold Shelf.retain
    dsimp only
    generalize s.find? k = found, s'.find? k = found' at hsame ⊢
    cases hsame with
    | some he =>
      obtain ⟨howner, hn⟩ := he
      obtain ⟨a, ha, ha'⟩ := h.object hn
      rw [Option.filter_some, Option.filter_some, ha, ha', howner]
      split
      · exact .some ⟨howner, hn⟩
      · exact .none
    | none => exact .none
  foreign k e hk he := by
    obtain ⟨hlt, hsingle⟩ := h.foreign k e hk (Option.filter_eq_some_iff.1 he).1
    exact ⟨hlt, hsingle⟩

end Matches

/-- Whether looking up an object went alike in two registries that match, where `shelf` is the shelf
of a registry. -/
inductive GetsAlike {ρ : Type} (shelf : ρ → Shelf α) (K : String → Prop) (B : Nat → Nat → Prop)
    (s : Shelf α) : Except ε (Nat × ρ) → Except ε (Nat × ρ) → Prop where
  | error (e : ε) : GetsAlike shelf K B s (.error e) (.error e)
  | ok {n n' : Nat} {r r' : ρ} {B' : Nat → Nat → Prop} (grows : s.Grows B (shelf r) B')
      (number : B' n n') (agree : (shelf r).Matches K B' (shelf r')) :
      GetsAlike shelf K B s (.ok (n, r)) (.ok (n', r'))

/-- It is enough to look at the shelves. -/
theorem GetsAlike.of_map {ρ : Type} {shelf : ρ → Shelf α} {got got' : Except ε (Nat × ρ)}
    (h : GetsAlike id K B s (got.map fun found => (found.1, shelf found.2))
      (got'.map fun found => (found.1, shelf found.2))) : GetsAlike shelf K B s got got' := by
  cases got with
  | error e =>
    cases got' with
    | error e' =>
      cases h
      exact .error e
    | ok found' => exact nomatch h
  | ok found =>
    cases got' with
    | error e' => exact nomatch h
    | ok found' =>
      cases h with
      | ok grows number agree => exact .ok grows number agree

namespace Matches

theorem make (h : s.Matches K B s') (hk : K key) (service : String) (make : Except ε α) :
    GetsAlike id K B s (make.map fun a => (s.objects.length, s.register key service a))
      (make.map fun a => (s'.objects.length, s'.register key service a)) := by
  cases make with
  | error e => exact .error e
  | ok a =>
    obtain ⟨B', hgrows, hnumber, hmatches⟩ := h.register hk service a
    exact .ok hgrows hnumber hmatches

/-- The same object is looked up under one of the keys. -/
theorem get (h : s.Matches K B s') (hk : K key) (service : String) (wanted : α → Bool)
    (make : Except ε α) :
    GetsAlike id K B s (s.get key service wanted make) (s'.get key service wanted make) := by
  have hsame := h.registered key hk
  unfold Shelf.get
  generalize s.find? key = found, s'.find? key = found' at hsame
  cases hsame with
  | @some e e' he =>
    obtain ⟨howner, hn⟩ := he
    obtain ⟨a, ha, ha'⟩ := h.object hn
    dsimp only
    rw [ha, ha', howner]
    split
    · exact .ok (.refl s B) hn h
    · exact h.make hk e'.1 make
  | none => exact h.make hk service make

/-- Some object is looked up under another key. -/
theorem get_foreign (h : s.Matches K B s') (hk : ¬K key) {wanted : α → Bool} {make : Except ε α}
    (hget : s.get key service wanted make = .ok (n, t)) :
    s.Grows B t B ∧ t.Matches K B s' ∧ t.IsForeign B n := by
  rcases get_cases hget with ⟨rfl, owner, a, hfound, -⟩ | ⟨owner, a, -, rfl, rfl, -⟩
  · exact ⟨.refl t B, h, h.foreign key _ hk hfound⟩
  · obtain ⟨hmatches, hforeign⟩ := h.register_foreign hk owner a
    exact ⟨⟨Nat.le_of_lt hforeign.lt, id, .inl⟩, hmatches, hforeign⟩

end Matches

end Shelf

end TrafficControl
