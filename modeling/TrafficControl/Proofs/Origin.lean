import Mathlib.Data.List.Induction
import TrafficControl.Proofs.Shelf

/-!
# Origins

An entry is registered for the service whose request made it, and stays so while other objects take
the place of the first one. Which service that is can be read off what happened : it is the one of
the last action that found nothing registered, if the entry has been there since (`IsMadeFor`). If
single actions do with the service of an entry what they should (`Owned`), this is the service that
the entry tells (`isMadeFor_iff`).
-/

namespace TrafficControl

/-! ## Histories -/

section Histories

variable {σ ι : Type} {step : σ → ι → σ} {service? : ι → Option String} {s : σ}
  {actions : List ι} {a : ι} {service : String}

/-- Whether what is registered was made for a service : an action for this service found it not
registered, and it has been registered since. -/
def IsMadeFor (step : σ → ι → σ) (service? : ι → Option String) (registered : σ → Prop) (s : σ)
    (actions : List ι) (service : String) : Prop :=
  ∃ before a after, actions = before ++ a :: after ∧ service? a = some service ∧
    ¬registered (before.foldl step s) ∧
    ∀ part, part <+: after → registered ((before ++ a :: part).foldl step s)

/-- What an action may do to the service of an entry, given the service that it is for. -/
inductive Owned (service? : Option String) : Option String → Option String → Prop where
  | stays (owner : Option String) : Owned service? owner owner
  | dropped (owner : Option String) : Owned service? owner none
  | made {service : String} (h : service? = some service) : Owned service? none (some service)

theorem Owned.of_drop {service? owner owner' : Option String}
    (h : owner' = owner ∨ owner' = none) : Owned service? owner owner' := by
  rcases h with rfl | rfl
  · exact .stays _
  · exact .dropped _

variable {registered : σ → Prop}

theorem not_isMadeFor_nil : ¬IsMadeFor step service? registered s [] service := by
  rintro ⟨before, a, after, h, -⟩
  simp at h

theorem IsMadeFor.now (h : IsMadeFor step service? registered s actions service) :
    registered (actions.foldl step s) := by
  obtain ⟨before, a, after, rfl, -, -, hsince⟩ := h
  exact hsince after (List.prefix_refl after)

/-- One more action leaves the origin as it is, or makes what was not registered before. -/
theorem isMadeFor_concat : IsMadeFor step service? registered s (actions ++ [a]) service ↔
    registered ((actions ++ [a]).foldl step s) ∧
      (IsMadeFor step service? registered s actions service ∨
        service? a = some service ∧ ¬registered (actions.foldl step s)) := by
  constructor
  · intro h
    refine ⟨h.now, ?_⟩
    obtain ⟨before, b, after, hsplit, hservice, hfirst, hsince⟩ := h
    rcases List.eq_nil_or_concat' after with rfl | ⟨after, c, rfl⟩
    · obtain ⟨rfl, hlast⟩ := List.append_inj' hsplit rfl
      obtain rfl := List.singleton_inj.1 hlast
      exact .inr ⟨hservice, hfirst⟩
    · rw [← List.cons_append, ← List.append_assoc] at hsplit
      refine .inl ⟨before, b, after, (List.append_inj' hsplit rfl).1, hservice, hfirst, ?_⟩
      exact fun part hpart => hsince part (hpart.trans (List.prefix_append after [c]))
  · rintro ⟨hlast, ⟨before, b, after, rfl, hservice, hfirst, hsince⟩ | ⟨hservice, hfirst⟩⟩
    · refine ⟨before, b, after ++ [a], by simp, hservice, hfirst, fun part hpart => ?_⟩
      rcases List.prefix_concat_iff.1 hpart with rfl | hpart
      · rwa [← List.cons_append, ← List.append_assoc]
      · exact hsince part hpart
    · refine ⟨actions, a, [], rfl, hservice, hfirst, fun part hpart => ?_⟩
      rwa [List.prefix_nil.1 hpart]

/-- What is registered was made for the service that it tells, if every action does with this
service what it should and nothing was registered at first. -/
theorem isMadeFor_iff (owner? : σ → Option String)
    (howner : ∀ s, registered s ↔ (owner? s).isSome) (hstart : owner? s = none)
    (hstep : ∀ before a, Owned (service? a) (owner? (before.foldl step s))
      (owner? ((before ++ [a]).foldl step s))) :
    IsMadeFor step service? registered s actions service ↔
      owner? (actions.foldl step s) = some service := by
  induction actions using List.reverseRecOn with
  | nil => exact iff_of_false not_isMadeFor_nil (by simp [hstart])
  | append_singleton actions a ih =>
    rw [isMadeFor_concat, ih, howner, howner]
    have hlast := hstep actions a
    generalize owner? (actions.foldl step s) = owner,
      owner? ((actions ++ [a]).foldl step s) = owner' at hlast
    cases hlast with
    | stays => cases owner <;> simp
    | dropped => simp
    | made h => simp [h]

end Histories

/-! ## Shelves -/

namespace Shelf

variable {α ε : Type} {s t u : Shelf α} {key service : String} {n : Nat}

/-- The service that the entry under a key is for. -/
def owner? (s : Shelf α) (key : String) : Option String := (s.find? key).map (·.1)

/-- Whether entries were added to a shelf, all for one service. -/
def Adds (service : String) (s t : Shelf α) : Prop :=
  ∀ key, t.owner? key = s.owner? key ∨ s.owner? key = none ∧ t.owner? key = some service

theorem Adds.of_find? (h : t.find? = s.find?) : s.Adds service t :=
  fun key => .inl (congrArg (fun find? => (find? key).map Prod.fst) h)

theorem Adds.refl (s : Shelf α) : s.Adds service s := .of_find? rfl

theorem Adds.trans (h : s.Adds service t) (h' : t.Adds service u) : s.Adds service u := by
  intro key
  rcases h key with hsame | ⟨hnone, hadded⟩ <;> rcases h' key with hsame' | ⟨hnone', hadded'⟩
  · exact .inl (hsame'.trans hsame)
  · exact .inr ⟨hsame.symm.trans hnone', hadded'⟩
  · exact .inr ⟨hnone, hsame'.trans hadded⟩
  · exact nomatch hnone'.symm.trans hadded

/-- Whether a shelf came from another by something that adds entries for a service only, if for
any. -/
structure Moves (service? : Option String) (s t : Shelf α) : Prop where
  isBounded : t.IsBounded
  owned : ∀ key, Owned service? (s.owner? key) (t.owner? key)

theorem Moves.refl {service? : Option String} (h : s.IsBounded) : s.Moves service? s :=
  ⟨h, fun _ => .stays _⟩

theorem Adds.owned (h : s.Adds service t) (key : String) :
    Owned (some service) (s.owner? key) (t.owner? key) := by
  rcases h key with hsame | ⟨hnone, hadded⟩
  · rw [hsame]
    exact .stays _
  · rw [hnone, hadded]
    exact .made rfl

theorem Adds.moves (h : s.Adds service t) (hbounded : t.IsBounded) : s.Moves (some service) t :=
  ⟨hbounded, h.owned⟩

theorem owner?_register (s : Shelf α) (key service : String) (a : α) (k : String) :
    (s.register key service a).owner? k = if k = key then some service else s.owner? k := by
  rw [owner?, find?_register]
  split <;> rfl

/-- The object for a key is looked up in the entry that is there, or in a new one. -/
theorem adds_get {wanted : α → Bool} {make : Except ε α}
    (h : s.get key service wanted make = .ok (n, t)) : s.Adds service t := by
  have hmade : ∀ owner, (make.map fun a => (s.objects.length, s.register key owner a)) =
      .ok (n, t) → ∀ k, t.owner? k = if k = key then some owner else s.owner? k := by
    intro owner hmade k
    cases make with
    | error e => exact nomatch hmade
    | ok a =>
      obtain ⟨-, rfl⟩ := Prod.mk.inj (Except.ok.inj hmade)
      exact s.owner?_register key owner a k
  intro k
  unfold get at h
  cases hfound : s.find? key with
  | none =>
    rw [hfound] at h
    rw [hmade service h k]
    split
    · next hk => exact .inr ⟨by rw [hk, owner?, hfound]; rfl, rfl⟩
    · exact .inl rfl
  | some e =>
    obtain ⟨owner, m⟩ := e
    rw [hfound] at h
    dsimp only at h
    split at h
    · obtain ⟨-, rfl⟩ := Prod.mk.inj (Except.ok.inj h)
      exact .inl rfl
    · rw [hmade owner h k]
      split
      · next hk => exact .inl (by rw [hk, owner?, hfound]; rfl)
      · exact .inl rfl

end Shelf

end TrafficControl
