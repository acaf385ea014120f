import TrafficControl.Proofs.Limit.Lookups

/-!
# Limiters that match

Registries of limiters whose shelves match on a set of keys give the same limiter under such a key
(`LimiterRegistry.getsAlike`), and what one of them gives under another key goes unnoticed
(`LimiterRegistry.getOrCreate_foreign`).
-/

namespace TrafficControl

namespace LimiterRegistry

variable {L : String → Prop} {C : Nat → Nat → Prop} {r r' made : LimiterRegistry} {n now : Nat}

/-- Both registries give the same limiter for one of the keys. -/
theorem getsAlike (h : r.shelf.Matches L C r'.shelf) {service : String} {p : RatePolicy}
    (hk : L (limiterKey service p.name)) (now : Nat) :
    Shelf.GetsAlike LimiterRegistry.shelf L C r.shelf (r.getOrCreate service p now)
      (r'.getOrCreate service p now) := by
  apply Shelf.GetsAlike.of_map
  rw [shelf_getOrCreate service p fun e he => h.lt_of_find? he,
    shelf_getOrCreate service p fun e he => h.lt_of_find?' hk he]
  exact h.get hk service _ _

/-- The first registry gives a limiter for another key. -/
theorem getOrCreate_foreign (h : r.shelf.Matches L C r'.shelf) {service : String} {p : RatePolicy}
    (hk : ¬L (limiterKey service p.name)) (hgot : r.getOrCreate service p now = .ok (n, made)) :
    r.shelf.Grows C made.shelf C ∧ made.shelf.Matches L C r'.shelf ∧ made.shelf.IsForeign C n := by
  have hshelf := shelf_getOrCreate service p (fun e he => h.lt_of_find? he) now
  rw [hgot] at hshelf
  exact h.get_foreign hk hshelf.symm

end LimiterRegistry

end TrafficControl
