import Mathlib.Data.List.Basic
import TrafficControl.Policy.Live
import TrafficControl.Proofs.Number.Digits

/-!
# Routes that divide the slots

A unit rule whose routes cover all slots has a route for every variable. If moreover its routes are
separate, that is no slot and no named variable belongs to two of them, then exactly one route owns
a variable (`UnitRule.IsOwner`), and it is found in whatever order the routes stand
(`UnitRule.routes_all`).

The slot of a variable is described apart from how it is computed (`IsSlot`) : its value, where it
writes a word of 64 bits, and otherwise the hash of its bytes, a number that is kept below 2⁶⁴ after
each byte.
-/

namespace TrafficControl

/-! ## Slots -/

/-- Whether a variable writes a word : digits, perhaps after a plus, of a number below 2⁶⁴. -/
def WritesWord (text : String) (n : Nat) : Prop :=
  (∃ ds, (text.toList = ds ∨ text.toList = '+' :: ds) ∧ Numeral.AreDigitsOf ds n) ∧ n < 2 ^ 64

/-- The hash of bytes, FNV-1a modulo 2⁶⁴. -/
def hashBytes (bytes : List UInt8) : Nat :=
  bytes.foldl (fun h b => (h ^^^ b.toNat) * 1099511628211 % 2 ^ 64) 14695981039346656037

/-- Whether a variable belongs to a slot of so many. -/
def IsSlot (modulo : Nat) (text : String) (slot : Nat) : Prop :=
  (∃ n, WritesWord text n ∧ slot = n % modulo) ∨
    (∀ n, ¬WritesWord text n) ∧ slot = hashBytes text.toUTF8.toList % modulo

theorem toNat_hash64 (text : String) : (hash64 text).toNat = hashBytes text.toUTF8.toList := by
  have hfold : ∀ (bytes : List UInt8) (h : UInt64),
      (bytes.foldl (fun h b => (h ^^^ b.toUInt64) * 0x100000001b3) h).toNat =
        bytes.foldl (fun h b => (h ^^^ b.toNat) * 1099511628211 % 2 ^ 64) h.toNat := by
    intro bytes
    induction bytes with
    | nil => exact fun _ => rfl
    | cons b bytes ih =>
      intro h
      rw [List.foldl_cons, ih, List.foldl_cons, UInt64.toNat_mul, UInt64.toNat_xor,
        UInt8.toNat_toUInt64]
      rfl
  exact hfold ..

theorem naturalOfChars?_eq_iff_writesWord {text : String} {n : Nat} :
    naturalOfChars? UInt64.size text.toList = some n ↔ WritesWord text n :=
  naturalOfChars?_eq_some_iff

/-- Every variable has one slot. -/
theorem UnitRule.isSlot_iff {r : UnitRule} {text : String} {slot : Nat} :
    IsSlot r.modulo.toNat text slot ↔ slot = r.slot text := by
  simp only [IsSlot, ← naturalOfChars?_eq_iff_writesWord, UnitRule.slot, seed, toNat_hash64]
  cases naturalOfChars? UInt64.size text.toList <;> simp

/-! ## Routes -/

/-- Whether a route has a slot in one of its ranges. -/
def UnitRoute.Has (route : UnitRoute) (slot : Nat) : Prop :=
  ∃ range ∈ route.ranges, range.first.toNat ≤ slot ∧ slot ≤ range.last.toNat

theorem UnitRoute.holds_iff {route : UnitRoute} {slot : Nat} :
    route.holds slot = true ↔ route.Has slot := by
  simp [holds, Has, SlotRange.contains]

theorem UnitRoute.names_iff {route : UnitRoute} {text : String} :
    route.names text = true ↔ text ∈ route.allows := List.contains_iff_mem

namespace UnitRule

/-- Whether every slot is in a range of some route. -/
def Covers (r : UnitRule) : Prop :=
  ∀ slot < r.modulo.toNat, ∃ route ∈ r.routes, route.Has slot

/-- Whether no two routes have anything in common. -/
structure Separates (r : UnitRule) : Prop where
  slots : r.routes.Pairwise fun a b => ∀ slot < r.modulo.toNat, ¬(a.Has slot ∧ b.Has slot)
  allows : r.routes.Pairwise fun a b => ∀ text, ¬(text ∈ a.allows ∧ text ∈ b.allows)

/-- Of elements no two of which have a property, one has it at most. -/
theorem eq_of_pairwise {α : Type} {p : α → Prop} {l : List α} {a b : α}
    (h : l.Pairwise fun a b => ¬(p a ∧ p b)) (ha : a ∈ l) (hb : b ∈ l) (hpa : p a) (hpb : p b) :
    a = b := by
  have hsymm : Std.Symm fun a b => ¬(p a ∧ p b) := ⟨fun _ _ hab hba => hab hba.symm⟩
  exact Classical.byContradiction fun hne => h.forall ha hb hne ⟨hpa, hpb⟩

/-- Whether a route owns a variable : it lists it, or no route lists it and the route has its
slot. -/
def IsOwner (r : UnitRule) (text : String) (route : UnitRoute) : Prop :=
  route ∈ r.routes ∧ (text ∈ route.allows ∨
    (∀ other ∈ r.routes, text ∉ other.allows) ∧
      ∃ slot, IsSlot r.modulo.toNat text slot ∧ route.Has slot)

variable {r : UnitRule} {text : String} {route other : UnitRoute}

theorem slot_lt (hmodulo : 0 < r.modulo) (text : String) : r.slot text < r.modulo.toNat :=
  Nat.mod_lt _ (UInt64.lt_iff_toNat_lt.1 hmodulo)

/-- Covered slots leave no variable without an owner. -/
theorem Covers.exists_isOwner (h : r.Covers) (hmodulo : 0 < r.modulo) (text : String) :
    ∃ route, r.IsOwner text route := by
  by_cases hlisted : ∃ route ∈ r.routes, text ∈ route.allows
  · obtain ⟨route, hroute, hallows⟩ := hlisted
    exact ⟨route, hroute, .inl hallows⟩
  · obtain ⟨route, hroute, hhas⟩ := h _ (slot_lt hmodulo text)
    refine ⟨route, hroute, .inr ⟨fun other hother hallows => ?_, _, isSlot_iff.2 rfl, hhas⟩⟩
    exact hlisted ⟨other, hother, hallows⟩

/-- Separate routes do not own the same variable. -/
theorem Separates.eq_of_isOwner (h : r.Separates) (hmodulo : 0 < r.modulo)
    (hroute : r.IsOwner text route) (hother : r.IsOwner text other) : other = route := by
  obtain ⟨hmem, hlists | ⟨hnone, slot, hslot, hhas⟩⟩ := hroute <;>
    obtain ⟨hmem', hlists' | ⟨hnone', slot', hslot', hhas'⟩⟩ := hother
  · exact eq_of_pairwise (h.allows.imp fun hab => hab text) hmem' hmem hlists' hlists
  · exact absurd hlists (hnone' route hmem)
  · exact absurd hlists' (hnone other hmem')
  · obtain rfl := isSlot_iff.1 hslot
    obtain rfl := isSlot_iff.1 hslot'
    exact eq_of_pairwise (h.slots.imp fun hab => hab _ (slot_lt hmodulo text)) hmem' hmem hhas' hhas

/-- A route that is found owns the variable. -/
theorem isOwner_of_route? (h : r.route? text = some route) : r.IsOwner text route := by
  unfold route? at h
  split at h
  next found hfound =>
    obtain rfl := Option.some.inj h
    have hnames : found.names text := by simpa using List.find?_some hfound
    exact ⟨List.mem_of_find?_eq_some hfound, .inl (UnitRoute.names_iff.1 hnames)⟩
  next hnone =>
    obtain ⟨-, hfound⟩ := Option.ite_none_left_eq_some.1 h
    have hholds : route.holds (r.slot text) := by simpa using List.find?_some hfound
    refine ⟨List.mem_of_find?_eq_some hfound, .inr ⟨fun other hother hallows => ?_, _,
      isSlot_iff.2 rfl, UnitRoute.holds_iff.1 hholds⟩⟩
    exact List.find?_eq_none.1 hnone other hother (UnitRoute.names_iff.2 hallows)

/-- A variable that has an owner is routed. -/
theorem IsOwner.exists_route? (h : r.IsOwner text route) (hmodulo : 0 < r.modulo) :
    ∃ found, r.route? text = some found := by
  unfold route?
  cases hnamed : r.routes.find? (·.names text) with
  | some found => exact ⟨found, rfl⟩
  | none =>
    obtain ⟨hmem, hlists | ⟨-, slot, hslot, hhas⟩⟩ := h
    · exact absurd (UnitRoute.names_iff.2 hlists) (List.find?_eq_none.1 hnamed route hmem)
    · obtain rfl := isSlot_iff.1 hslot
      have hfound : (r.routes.find? (·.holds (r.slot text))).isSome :=
        List.find?_isSome.2 ⟨route, hmem, UnitRoute.holds_iff.2 hhas⟩
      dsimp only
      rw [if_neg (UInt64.ne_of_lt hmodulo).symm]
      exact Option.isSome_iff_exists.1 hfound

/-- What a route owns does not depend on the order of the routes. -/
theorem isOwner_of_perm {routes : List UnitRoute} (h : routes.Perm r.routes) :
    IsOwner { r with routes } text route ↔ r.IsOwner text route := by
  simp only [IsOwner, h.mem_iff]

/-- Routes that cover the slots of a rule route every variable, and separate ones to its one owner,
in whatever order they stand. -/
theorem routes_all (r : UnitRule) (hmodulo : 0 < r.modulo) (hcovers : r.Covers) (text : String) :
    (∃ route, r.route? text = some route) ∧
      (r.Separates → ∃ route, (∀ other, r.IsOwner text other ↔ other = route) ∧
        ∀ routes : List UnitRoute, routes.Perm r.routes →
          route? { r with routes } text = some route) := by
  obtain ⟨route, howner⟩ := hcovers.exists_isOwner hmodulo text
  refine ⟨howner.exists_route? hmodulo, fun hseparates => ?_⟩
  have hone : ∀ other, r.IsOwner text other ↔ other = route := fun other =>
    ⟨fun hother => hseparates.eq_of_isOwner hmodulo howner hother, fun h => h ▸ howner⟩
  refine ⟨route, hone, fun routes hperm => ?_⟩
  obtain ⟨found, hfound⟩ := ((isOwner_of_perm hperm).2 howner).exists_route? hmodulo
  rw [hfound, (hone found).1 ((isOwner_of_perm hperm).1 (isOwner_of_route? hfound))]

end UnitRule

/-! ## Two units -/

namespace TwoUnits

/-- The unit of the first slots, and of a variable by its name. -/
def east : UnitRoute := { unit := "east", allows := ["vip"], ranges := [⟨0, 1⟩] }

/-- The unit of the other slots, with a range beyond the last slot and an empty one. -/
def west : UnitRoute := { unit := "west", ranges := [⟨9, 5⟩, ⟨2, 30⟩] }

def rule : UnitRule := { id := "users", modulo := 4, routes := [east, west] }

theorem covers : rule.Covers := by
  unfold UnitRule.Covers UnitRoute.Has
  decide

theorem separates : rule.Separates where
  slots := by
    unfold UnitRoute.Has
    decide
  allows := by simp [rule, east, west]

end TwoUnits

open TwoUnits in
/-- A number that 64 bits do not hold is routed by its hash, here to a slot of the first unit, also
where this unit is the last one. -/
theorem routes_all_overflow :
    0 < rule.modulo ∧ rule.Covers ∧ rule.Separates ∧
      UnitRule.route? { rule with routes := [west, east] } "18446744073709551616" = some east := by
  obtain ⟨-, hroutes⟩ := rule.routes_all (by decide) covers "18446744073709551616"
  obtain ⟨route, hone, hany⟩ := hroutes separates
  obtain rfl : east = route := (hone east).1 ⟨List.mem_cons_self, .inr ⟨by decide, 1,
    UnitRule.isSlot_iff.2 (by decide +kernel), ⟨0, 1⟩, List.mem_cons_self, by decide, by decide⟩⟩
  exact ⟨by decide, covers, separates, hany _ (List.Perm.swap ..)⟩

end TrafficControl
