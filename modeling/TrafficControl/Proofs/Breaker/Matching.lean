import TrafficControl.Proofs.Breaker.Lookups

/-!
# Breakers that match

Two registries of breakers match on a set of URIs if their shelves do and no listener fails
(`BreakerRegistry.Matches`). They match again after the same breaker was called in both, and also
after a foreign one was called in the first. The failures of a listener depend on all that it has
heard, so they would tell of foreign breakers.
-/

namespace TrafficControl

variable {K : String → Prop} {B B' : Nat → Nat → Prop} {n n' now : Nat}

namespace BreakerRegistry

variable {r r' made made' : BreakerRegistry} {b : Breaker}

/-! ## Listeners that do not fail -/

theorem IsReliable.of_listeners (h : r.IsReliable) (hsame : made.listeners = r.listeners) :
    made.IsReliable := by
  rw [IsReliable, hsame]
  exact h

theorem IsReliable.getOrCreate (h : r.IsReliable) {service uri : String} {p : BreakPolicy}
    (hgot : r.getOrCreate service uri p now = .ok (n, made)) : made.IsReliable := by
  rcases eq_or_register_of_getOrCreate hgot with rfl | ⟨service, rfl⟩
  · exact h
  · exact h.of_listeners rfl

theorem IsReliable.call (h : r.IsReliable) (n now : Nat) (c : BreakerCall) :
    (r.call n now c).IsReliable := by
  cases hb : r.breaker? n with
  | none =>
    rw [call_of_none hb]
    exact h
  | some b =>
    rw [call_eq hb]
    exact h.of_listeners (r.onlyTells_announce n (b.told now c)).listeners

theorem IsReliable.shelf_call (h : r.IsReliable) (hb : r.breaker? n = some b) (now : Nat)
    (c : BreakerCall) : (r.call n now c).shelf = r.shelf.put n (b.called now true c) := by
  rw [BreakerRegistry.shelf_call hb, announce_of_reliable h]

theorem IsReliable.complete (h : r.IsReliable) (n micros : Nat) (cause : Option String)
    (now : Nat) : (r.complete n micros cause now).1 = true := by
  cases hb : r.breaker? n with
  | none => simp [BreakerRegistry.complete, hb]
  | some b =>
    rw [complete_eq hb, announce_update]
    exact announce_of_reliable h ..

/-! ## Registries that match -/

theorem grows_call (r : BreakerRegistry) (n now : Nat) (c : BreakerCall) (B : Nat → Nat → Prop) :
    r.shelf.Grows B (r.call n now c).shelf B := by
  cases hb : r.breaker? n with
  | none =>
    rw [call_of_none hb]
    exact .refl _ B
  | some b =>
    rw [shelf_call hb]
    exact r.shelf.grows_put B n _

/-- Whether two registries, whose listeners do not fail, have the same breakers under the URIs
given. -/
structure Matches (K : String → Prop) (B : Nat → Nat → Prop) (r r' : BreakerRegistry) : Prop where
  shelf : r.shelf.Matches K B r'.shelf
  reliable : r.IsReliable
  reliable' : r'.IsReliable

namespace Matches

theorem breaker? (h : r.Matches K B r') (hn : B n n') :
    ∃ b, r.breaker? n = some b ∧ r'.breaker? n' = some b := by
  obtain ⟨b, hb, hb'⟩ := h.shelf.object hn
  exact ⟨b, (r.getElem?_all n).symm.trans hb, (r'.getElem?_all n').symm.trans hb'⟩

/-- Both registries give the same breaker for one of the URIs. -/
theorem getOrCreate (h : r.Matches K B r') {uri : String} (hk : K uri) (service : String)
    (p : BreakPolicy) (now : Nat) :
    Shelf.GetsAlike BreakerRegistry.shelf K B r.shelf (r.getOrCreate service uri p now)
      (r'.getOrCreate service uri p now) := by
  apply Shelf.GetsAlike.of_map
  rw [shelf_getOrCreate, shelf_getOrCreate]
  cases p.check with
  | error error => exact .error error
  | ok => exact h.shelf.get hk service _ _

/-- The registries after looking up a breaker. -/
theorem got (h : r.Matches K B r') {service uri : String} {p : BreakPolicy}
    (hgot : r.getOrCreate service uri p now = .ok (n, made))
    (hgot' : r'.getOrCreate service uri p now = .ok (n', made'))
    (hshelf : made.shelf.Matches K B' made'.shelf) : made.Matches K B' made' :=
  ⟨hshelf, h.reliable.getOrCreate hgot, h.reliable'.getOrCreate hgot'⟩

/-- The first registry gives a breaker for another URI. -/
theorem getOrCreate_foreign (h : r.Matches K B r') {uri service : String} {p : BreakPolicy}
    (hk : ¬K uri) (hgot : r.getOrCreate service uri p now = .ok (n, made)) :
    r.shelf.Grows B made.shelf B ∧ made.Matches K B r' ∧ made.shelf.IsForeign B n := by
  have hshelf := r.shelf_getOrCreate service uri p now
  rw [hgot] at hshelf
  cases hcheck : p.check with
  | error error =>
    rw [hcheck] at hshelf
    exact nomatch hshelf
  | ok =>
    rw [hcheck] at hshelf
    obtain ⟨hgrows, hmatches, hforeign⟩ := h.shelf.get_foreign hk hshelf.symm
    exact ⟨hgrows, ⟨hmatches, h.reliable.getOrCreate hgot, h.reliable'⟩, hforeign⟩

theorem acquire (h : r.Matches K B r') (hn : B n n') (now : Nat) :
    ∃ p : Option Permit, (r.acquire n now).1 = p.elim .refused .granted ∧
      (r'.acquire n' now).1 = p.elim .refused .granted := by
  obtain ⟨b, hb, hb'⟩ := h.breaker? hn
  rw [acquire_eq hb, acquire_eq hb', announce_of_reliable h.reliable,
    announce_of_reliable h.reliable']
  exact ⟨_, rfl, rfl⟩

/-- The same breaker is called in both registries. -/
theorem call (h : r.Matches K B r') (hn : B n n') (now : Nat) (c : BreakerCall) :
    (r.call n now c).Matches K B (r'.call n' now c) := by
  obtain ⟨b, hb, hb'⟩ := h.breaker? hn
  refine ⟨?_, h.reliable.call n now c, h.reliable'.call n' now c⟩
  rw [h.reliable.shelf_call hb, h.reliable'.shelf_call hb']
  exact h.shelf.put hn _

/-- A foreign breaker is called in the first registry. -/
theorem call_foreign (h : r.Matches K B r') (hn : r.shelf.IsForeign B n) (now : Nat)
    (c : BreakerCall) : (r.call n now c).Matches K B r' := by
  have hb : r.breaker? n = some _ := (r.getElem?_all n).symm.trans (List.getElem?_eq_getElem hn.lt)
  refine ⟨?_, h.reliable.call n now c, h.reliable'⟩
  rw [h.reliable.shelf_call hb]
  exact h.shelf.put_foreign hn _

/-- Permits of the same breakers are given back. -/
theorem giveBack (h : r.Matches K B r') {held held' : List (Nat × Permit)}
    (hheld : NumberedAlike B held held') :
    r.shelf.Grows B (held.foldl (fun r (n, p) => r.releasePermit n p) r).shelf B ∧
      (held.foldl (fun r (n, p) => r.releasePermit n p) r).Matches K B
        (held'.foldl (fun r (n, p) => r.releasePermit n p) r') := by
  induction hheld generalizing r r' with
  | nil => exact ⟨.refl _ B, h⟩
  | @cons q q' held held' hq _ ih =>
    obtain ⟨n, p⟩ := q
    obtain ⟨n', p'⟩ := q'
    obtain ⟨hn, rfl⟩ := hq
    have hgrows := r.grows_call n 0 (.releasePermit p) B
    obtain ⟨hgrows', hrest⟩ := ih (h.call hn 0 (.releasePermit p))
    exact ⟨hgrows.trans hgrows', hrest⟩

/-- Permits of foreign breakers are given back. -/
theorem giveBack_foreign (h : r.Matches K B r') {held : List (Nat × Permit)}
    (hheld : ∀ q ∈ held, r.shelf.IsForeign B q.1) :
    r.shelf.Grows B (held.foldl (fun r (n, p) => r.releasePermit n p) r).shelf B ∧
      (held.foldl (fun r (n, p) => r.releasePermit n p) r).Matches K B r' := by
  induction held generalizing r with
  | nil => exact ⟨.refl _ B, h⟩
  | cons q held ih =>
    have hgrows := r.grows_call q.1 0 (.releasePermit q.2) B
    have hback := h.call_foreign (hheld q List.mem_cons_self) 0 (.releasePermit q.2)
    obtain ⟨hgrows', hrest⟩ := ih hback fun q' hq' =>
      (hheld q' (List.mem_cons_of_mem _ hq')).grows hgrows
    exact ⟨hgrows.trans hgrows', hrest⟩

end Matches

end BreakerRegistry

end TrafficControl
