import Mathlib.Algebra.Ring.Nat
import Mathlib.Data.List.Count
import TrafficControl.Proofs.Routing.Narrowing

/-!
# Shares of a weighted choice

A walk along weights uses up a point. Written out, the points below the total are as many tickets
for each place as its weight says (`Balancing.tickets`), and the walk reads off the ticket at the
point (`Balancing.walk_eq_tickets`). So each place gets exactly its weight of the points, none of
weight zero is chosen, and no point below the total is left without a place.

The walk is made in words of 64 bits along weights of 32. It takes a weight from the point only
where the point is not below it, so the difference is the one of the numbers
(`Balancing.walkWords_eq`).
-/

namespace TrafficControl.Balancing

/-- The place that each point below the total leads to, in the order of the points. -/
def tickets : List Nat → List Nat
  | [] => []
  | w :: ws => List.replicate w 0 ++ (tickets ws).map (· + 1)

theorem length_tickets (weights : List Nat) : (tickets weights).length = total weights := by
  induction weights with
  | nil => rfl
  | cons w ws ih => simp [tickets, total_cons, ih]

theorem walk_eq_tickets (weights : List Nat) (point : Nat) :
    walk weights point = (tickets weights)[point]? := by
  induction weights generalizing point with
  | nil => rfl
  | cons w ws ih =>
    by_cases hpoint : point < w
    · simp [walk, tickets, hpoint, List.getElem?_append_left]
    · have hright : w ≤ point := Nat.le_of_not_lt hpoint
      simp [walk, tickets, hpoint, List.getElem?_append_right, hright, ih]

/-- A place has as many tickets as its weight says, and what is no place has none. -/
theorem count_tickets (weights : List Nat) (k : Nat) :
    (tickets weights).count k = weights[k]?.getD 0 := by
  induction weights generalizing k with
  | nil => rfl
  | cons w ws ih =>
    have hinj : Function.Injective (· + 1 : Nat → Nat) := fun _ _ h => Nat.succ.inj h
    cases k with
    | zero =>
      have hnone : ((tickets ws).map (· + 1)).count 0 = 0 := List.count_eq_zero.2 (by simp)
      simp [tickets, hnone]
    | succ k =>
      have hshift : ((tickets ws).map (· + 1)).count (k + 1) = (tickets ws).count k :=
        List.count_map_of_injective _ _ hinj k
      simp [tickets, hshift, ih, List.count_replicate]

/-- The points below the total, each with the place it leads to, are the tickets. -/
theorem map_walk_range (weights : List Nat) :
    (List.range (total weights)).map (walk weights) = (tickets weights).map some := by
  refine List.ext_getElem (by simp [length_tickets]) fun point hpoint _ => ?_
  have hlt : point < (tickets weights).length := by simpa [length_tickets] using hpoint
  simp [walk_eq_tickets, List.getElem?_eq_getElem hlt]

/-- Of the points below the total exactly the weight of a place lead to it. -/
theorem countP_walk (weights : List Nat) (k : Nat) :
    (List.range (total weights)).countP (fun point => walk weights point = some k) =
      weights[k]?.getD 0 := by
  have hmap : (List.range (total weights)).countP (fun point => walk weights point = some k) =
      ((List.range (total weights)).map (walk weights)).count (some k) := by
    rw [List.count, List.countP_map]
    exact List.countP_congr fun point _ => by simp
  rw [hmap, map_walk_range,
    List.count_map_of_injective _ _ (fun _ _ h => Option.some.inj h) k, count_tickets]

theorem mem_tickets {weights : List Nat} {k : Nat} :
    k ∈ tickets weights ↔ 0 < weights[k]?.getD 0 := by
  rw [← count_tickets, List.count_pos_iff]

/-- A walk ends only at a place of positive weight. -/
theorem pos_of_walk {weights : List Nat} {point k : Nat} (h : walk weights point = some k) :
    0 < weights[k]?.getD 0 := by
  rw [walk_eq_tickets] at h
  exact mem_tickets.1 (List.mem_of_getElem? h)

theorem chooseWeighted_of_lt {weights : List Nat} {point : Nat} (h : point < total weights) :
    chooseWeighted weights point = walk weights point := by
  have hpos : total weights ≠ 0 := Nat.ne_zero_of_lt h
  simp [chooseWeighted, hpos, Nat.mod_eq_of_lt h]

theorem chooseWeighted_of_total_eq_zero {weights : List Nat} (h : total weights = 0) (draw : Nat) :
    chooseWeighted weights draw = chooseEvenly weights.length draw := by
  simp [chooseWeighted, h]

theorem chooseEvenly_of_lt {size draw : Nat} (h : draw < size) :
    chooseEvenly size draw = some draw := by
  simp [chooseEvenly, Nat.ne_zero_of_lt h, Nat.mod_eq_of_lt h]

/-- A random way may choose just the places that are listed as possible for it. -/
theorem mem_possible_iff {b : Balancing} (hb : b ≠ roundRobin) (r : RoundRobin) (key : String)
    {weights : List Nat} {k : Nat} :
    k ∈ b.possible weights ↔ ∃ draw, (b.choose r key weights draw).1 = some k := by
  have heven : k < weights.length ↔ ∃ draw, chooseEvenly weights.length draw = some k := by
    refine ⟨fun hk => ⟨k, chooseEvenly_of_lt hk⟩, ?_⟩
    rintro ⟨draw, hdraw⟩
    obtain ⟨hne, hmod⟩ : weights.length ≠ 0 ∧ draw % weights.length = k := by
      simpa [chooseEvenly] using hdraw
    exact hmod ▸ Nat.mod_lt draw (Nat.pos_of_ne_zero hne)
  cases b with
  | roundRobin => exact absurd rfl hb
  | random => simpa [possible, choose] using heven
  | weightedRandom =>
    by_cases htotal : total weights = 0
    · simpa [possible, choose, htotal, chooseWeighted_of_total_eq_zero] using heven
    · have hdrawn : (∃ draw, chooseWeighted weights draw = some k) ↔
          0 < weights[k]?.getD 0 := by
        constructor
        · rintro ⟨draw, hdraw⟩
          have hwalk : walk weights (draw % total weights) = some k := by
            simpa [chooseWeighted, htotal] using hdraw
          exact pos_of_walk hwalk
        · intro hpos
          obtain ⟨point, hpoint, hk⟩ := List.getElem_of_mem (mem_tickets.2 hpos)
          have hlt : point < total weights := length_tickets weights ▸ hpoint
          refine ⟨point, ?_⟩
          rw [chooseWeighted_of_lt hlt, walk_eq_tickets, List.getElem?_eq_getElem hpoint, hk]
      have hplace : 0 < weights[k]?.getD 0 → k < weights.length := fun hpos => by
        by_contra hge
        simp [List.getElem?_eq_none (Nat.le_of_not_lt hge)] at hpos
      simpa [possible, choose, htotal, hdrawn] using hplace

/-! ## In words -/

/-- A difference of words, where it does not fall below zero. -/
def minus? (a b : UInt64) : Option UInt64 := if b ≤ a then some (a - b) else none

theorem minus?_of_le {a b : UInt64} (h : b ≤ a) : minus? a b = some (a - b) := if_pos h

/-- The walk in words; nothing where a difference falls below zero. -/
def walkWords : List UInt32 → UInt64 → Option (Option Nat)
  | [], _ => some none
  | w :: ws, point =>
    if point < w.toUInt64 then some (some 0)
    else do
      let rest ← minus? point w.toUInt64
      let place ← walkWords ws rest
      return place.map (· + 1)

/-- The sum of the weights in words, which starts again at zero where it does not fit. -/
def totalWords (weights : List UInt32) : UInt64 :=
  weights.foldr (fun w sum => w.toUInt64 + sum) 0

/-- No difference falls below zero, and the walk in words is the one along the numbers. -/
theorem walkWords_eq (weights : List UInt32) (point : UInt64) :
    walkWords weights point = some (walk (weights.map (·.toNat)) point.toNat) := by
  induction weights generalizing point with
  | nil => rfl
  | cons w ws ih =>
    have hnat : w.toUInt64.toNat = w.toNat := UInt32.toNat_toUInt64 w
    by_cases hpoint : point < w.toUInt64
    · have hlt : point.toNat < w.toNat := hnat ▸ UInt64.lt_iff_toNat_lt.1 hpoint
      simp [walkWords, walk, hpoint, hlt]
    · have hle : w.toUInt64 ≤ point := UInt64.not_lt.1 hpoint
      have hge : ¬point.toNat < w.toNat := hnat ▸ mt UInt64.lt_iff_toNat_lt.2 hpoint
      have hsub : (point - w.toUInt64).toNat = point.toNat - w.toNat := by
        rw [UInt64.toNat_sub_of_le _ _ hle, hnat]
      simp [walkWords, walk, hpoint, hge, minus?_of_le hle, ih, hsub]

theorem total_le (weights : List UInt32) :
    total (weights.map (·.toNat)) ≤ weights.length * (2 ^ 32 - 1) := by
  induction weights with
  | nil => simp [total]
  | cons w ws ih =>
    have hw := w.toNat_lt
    simp only [List.map_cons, total_cons, List.length_cons]
    omega

theorem toNat_totalWords (weights : List UInt32) :
    (totalWords weights).toNat = total (weights.map (·.toNat)) % 2 ^ 64 := by
  induction weights with
  | nil => rfl
  | cons w ws ih =>
    have hcons : totalWords (w :: ws) = w.toUInt64 + totalWords ws := rfl
    rw [hcons, UInt64.toNat_add, ih, UInt32.toNat_toUInt64, List.map_cons, total_cons]
    omega

theorem total_eq_zero {weights : List UInt32} (h : ∀ w ∈ weights, w = 0) :
    total (weights.map (·.toNat)) = 0 := by
  induction weights with
  | nil => rfl
  | cons w ws ih =>
    obtain ⟨hw, hws⟩ := List.forall_mem_cons.1 h
    rw [List.map_cons, total_cons, ih hws, hw]
    rfl

/-- What a choice in proportion to weights comes to. Of the draw nothing is used but that it is a
point of the range that is asked for. -/
structure IsProportional (weights : List UInt32) : Prop where
  /-- Every point below the total leads to an endpoint, and to one of positive weight. -/
  exists_place : ∀ point < total (weights.map (·.toNat)), ∃ k, ∃ h : k < weights.length,
    chooseWeighted (weights.map (·.toNat)) point = some k ∧ 0 < weights[k]
  /-- Each endpoint is chosen for exactly its weight of these points. -/
  share : ∀ k (h : k < weights.length),
    (List.range (total (weights.map (·.toNat)))).countP
      (fun point => chooseWeighted (weights.map (·.toNat)) point = some k) = weights[k].toNat
  /-- The choice for such a point is where the walk in words ends, whose differences never fall
  below zero. -/
  inWords : ∀ point : UInt64, point.toNat < total (weights.map (·.toNat)) →
    walkWords weights point = some (chooseWeighted (weights.map (·.toNat)) point.toNat)
  /-- The total of up to 2 ^ 32 weights fits into a word. -/
  total_fits : weights.length ≤ 2 ^ 32 →
    (totalWords weights).toNat = total (weights.map (·.toNat))
  /-- Where all weights are zero, every endpoint is chosen for some point below their number. -/
  evenly : (∀ w ∈ weights, w = 0) → ∀ k < weights.length, ∃ point < weights.length,
    chooseWeighted (weights.map (·.toNat)) point = some k

/-- The weighted choice parts the points below the total by the weights. -/
theorem isProportional (weights : List UInt32) : IsProportional weights where
  exists_place := by
    intro point hpoint
    obtain ⟨k, hk, hwalk⟩ := exists_walk hpoint
    have hlt : k < weights.length := by simpa using hk
    have hpos : 0 < weights[k].toNat := by simpa [hlt] using pos_of_walk hwalk
    exact ⟨k, hlt, by rw [chooseWeighted_of_lt hpoint, hwalk], UInt32.lt_iff_toNat_lt.2 hpos⟩
  share := by
    intro k hk
    have hchoose : ∀ point ∈ List.range (total (weights.map (·.toNat))),
        chooseWeighted (weights.map (·.toNat)) point = walk (weights.map (·.toNat)) point :=
      fun point hpoint => chooseWeighted_of_lt (List.mem_range.1 hpoint)
    have hcount := countP_walk (weights.map (·.toNat)) k
    rw [List.countP_congr fun point hpoint => by rw [hchoose point hpoint], hcount]
    simp [hk]
  inWords := by
    intro point hpoint
    rw [walkWords_eq, chooseWeighted_of_lt hpoint]
  total_fits := by
    intro hlength
    have hle := total_le weights
    rw [toNat_totalWords]
    exact Nat.mod_eq_of_lt (by omega)
  evenly := by
    intro hzero k hk
    refine ⟨k, hk, ?_⟩
    rw [chooseWeighted_of_total_eq_zero (total_eq_zero hzero), List.length_map,
      chooseEvenly_of_lt hk]

example : (List.range 7).map (chooseWeighted [0, 5, 0, 2]) =
    [some 1, some 1, some 1, some 1, some 1, some 3, some 3] := by decide

end TrafficControl.Balancing
