import TrafficControl.Proofs.Breaker.Life

/-!
# Room for permits

How many permits a breaker would grant at an instant, one after the other (`Breaker.hasRoom`). An
acquisition may change the state first, and starts counting trials anew then, so that the room of an
open breaker whose wait is over is that of the half-open one. A breaker that has room for one permit
is available, and grants it (`Breaker.exists_take_of_hasRoom`); one that has none changes nothing.

Availability therefore foretells what a request for a permit comes to
(`BreakerRegistry.Foretells`), in every state that calls can lead to (`BreakerLife.foretells_run`).
-/

namespace TrafficControl

/-! ## Room for permits -/

namespace Breaker

variable {b : Breaker} {now j k : Nat}

/-- Whether a breaker would grant so many permits at an instant, one after the other. -/
def hasRoom (b : Breaker) (now k : Nat) : Bool :=
  match b.state with
  | .closed => true
  | .halfOpen => k ≤ b.trialLimit - b.trials
  | .opened => k ≤ if b.isDue now then b.trialLimit else 0

theorem hasRoom_of_closed (h : b.state = .closed) : b.hasRoom now k := by
  simp [hasRoom, h]

theorem hasRoom_iff_of_halfOpen (h : b.state = .halfOpen) :
    b.hasRoom now k ↔ k ≤ b.trialLimit - b.trials := by
  simp [hasRoom, h]

theorem hasRoom_iff_of_opened (h : b.state = .opened) :
    b.hasRoom now k ↔ k ≤ if b.isDue now then b.trialLimit else 0 := by
  simp [hasRoom, h]

theorem hasRoom_zero (b : Breaker) (now : Nat) : b.hasRoom now 0 := by
  unfold hasRoom
  split <;> simp

theorem hasRoom_mono (h : b.hasRoom now k) (hjk : j ≤ k) : b.hasRoom now j := by
  unfold hasRoom at h ⊢
  split at h
  · rfl
  · exact decide_eq_true (Nat.le_trans hjk (of_decide_eq_true h))
  · exact decide_eq_true (Nat.le_trans hjk (of_decide_eq_true h))

/-- An available breaker has room for one permit. -/
theorem isAvailable_iff_hasRoom : b.isAvailable now ↔ b.hasRoom now 1 := by
  have hlimit := b.trialLimit_pos
  unfold isAvailable hasRoom
  cases b.state with
  | closed => simp
  | halfOpen =>
    rw [decide_eq_true_eq, decide_eq_true_eq]
    omega
  | opened =>
    cases b.isDue now
    · simp
    · simpa using Nat.succ_le_of_lt hlimit

/-- A breaker that has room grants a permit and then has room for one less. -/
theorem exists_take_of_hasRoom (h : b.hasRoom now 1) :
    ∃ p b', (b.wake now).2.take now = (some p, b') ∧ b'.policy = b.policy ∧
      ∀ k, b'.hasRoom now k ↔ b.hasRoom now (k + 1) := by
  have hlimit := b.trialLimit_pos
  cases hstate : b.state with
  | closed =>
    have htake : b.take now =
        (some ⟨false, b.generation⟩, { b with lastAcquired := some now }) := by
      simp [take, hstate]
    rw [wake_of_not_due (by simp [hstate])]
    refine ⟨_, _, htake, rfl, fun k => ?_⟩
    exact iff_of_true (hasRoom_of_closed hstate) (hasRoom_of_closed hstate)
  | halfOpen =>
    have hfew : b.trials < b.trialLimit := by
      have hroom := (hasRoom_iff_of_halfOpen hstate).1 h
      omega
    let b' := { b with trials := b.trials + 1, lastAcquired := some now }
    have hstate' : b'.state = .halfOpen := hstate
    rw [wake_of_not_due (by simp [hstate])]
    refine ⟨_, b', take_of_few hstate hfew, rfl, fun k => ?_⟩
    rw [hasRoom_iff_of_halfOpen hstate, hasRoom_iff_of_halfOpen hstate']
    change k ≤ b.trialLimit - (b.trials + 1) ↔ _
    omega
  | opened =>
    have hdue : b.isDue now := by
      by_contra hdue
      simp [hasRoom_iff_of_opened hstate, hdue] at h
    rw [wake_of_due hstate hdue]
    refine ⟨_, _, take_of_few rfl hlimit, rfl, fun k => ?_⟩
    rw [hasRoom_iff_of_halfOpen rfl, hasRoom_iff_of_opened hstate, if_pos hdue]
    change k ≤ b.trialLimit - (0 + 1) ↔ _
    omega

/-- A breaker without room refuses. -/
theorem take_of_not_hasRoom (h : ¬b.hasRoom now 1) : ((b.wake now).2.take now).1 = none := by
  cases hstate : b.state with
  | closed => exact absurd (hasRoom_of_closed hstate) h
  | halfOpen =>
    have hfull : ¬b.trials < b.trialLimit := by
      rw [hasRoom_iff_of_halfOpen hstate] at h
      omega
    rw [wake_of_not_due (by simp [hstate])]
    simp [take, hstate, hfull]
  | opened =>
    have hdue : ¬b.isDue now := by
      intro hdue
      rw [hasRoom_iff_of_opened hstate, if_pos hdue] at h
      exact h b.trialLimit_pos
    rw [wake_of_not_due (by simp [hdue]), take_of_opened hstate]

/-- A breaker without room does not change its state before it refuses. -/
theorem wake_of_not_hasRoom (h : ¬b.hasRoom now 1) : b.wake now = (none, b) := by
  refine wake_of_not_due fun ⟨hopen, hdue⟩ => h ?_
  rw [hasRoom_iff_of_opened hopen, if_pos hdue]
  exact b.trialLimit_pos

/-- A breaker is available exactly if it grants a permit. -/
theorem isAvailable_iff_isSome_acquire : b.isAvailable now ↔ (b.acquire now).1.isSome := by
  rw [isAvailable_iff_hasRoom]
  change _ ↔ ((b.wake now).2.take now).1.isSome
  by_cases hroom : b.hasRoom now 1
  · obtain ⟨p, b', htake, -⟩ := exists_take_of_hasRoom hroom
    exact iff_of_true hroom (by rw [htake]; rfl)
  · exact iff_of_false hroom (by simp [take_of_not_hasRoom hroom])

end Breaker

namespace BreakerRegistry

variable {r : BreakerRegistry} {n now : Nat} {b : Breaker}

/-- Whether a breaker tells by its state alone what a request for a permit would come to. -/
structure Foretells (r : BreakerRegistry) (n now : Nat) (b : Breaker) : Prop where
  breaker : r.breaker? n = some b
  acquires : b.isAvailable now ↔ (b.acquire now).1.isSome
  /-- A request is refused exactly if the breaker is not available. -/
  refuses : (r.acquire n now).1 = .refused ↔ ¬b.isAvailable now
  /-- A request is granted exactly if the breaker is available, unless a listener fails. -/
  grants : r.IsReliable → (b.isAvailable now ↔ ∃ p, (r.acquire n now).1 = .granted p)
  /-- An open breaker that is available wakes and grants the first trial of a new round. -/
  wakes : r.IsReliable → b.state = .opened → b.isAvailable now →
    (r.acquire n now).1 = .granted ⟨true, b.generation + 1⟩ ∧
      ∃ b', (r.acquire n now).2.breaker? n = some b' ∧ b'.state = .halfOpen ∧
        b'.generation = b.generation + 1 ∧ b'.trials = 1

/-- A breaker that has room grants, unless a listener fails. -/
theorem exists_granted_of_hasRoom (h : r.breaker? n = some b) (hreliable : r.IsReliable)
    (hroom : b.hasRoom now 1) : ∃ p, (r.acquire n now).1 = .granted p := by
  obtain ⟨p, b', htake, -⟩ := Breaker.exists_take_of_hasRoom hroom
  rw [acquire_of_reliable hreliable h, htake]
  exact ⟨p, rfl⟩

theorem refused_iff_not_hasRoom (h : r.breaker? n = some b) :
    (r.acquire n now).1 = .refused ↔ ¬b.hasRoom now 1 := by
  constructor
  · intro hrefused hroom
    obtain ⟨p, b', htake, -⟩ := Breaker.exists_take_of_hasRoom hroom
    rcases acquire_cases h now with ⟨hacquire, -⟩ | ⟨p', b'', htake', hacquire⟩
    · simp [hacquire] at hrefused
    · obtain ⟨rfl, rfl⟩ := Prod.mk.inj (htake.symm.trans htake')
      simp [hacquire] at hrefused
  · intro hroom
    have hwake := Breaker.wake_of_not_hasRoom hroom
    have htake := Breaker.take_of_not_hasRoom hroom
    rcases acquire_cases h now with ⟨-, hfailed⟩ | ⟨p', b'', htake', hacquire⟩
    · rw [hwake] at hfailed
      cases hfailed
    · rw [htake'] at htake
      cases htake
      rw [hacquire]
      rfl

/-- An open breaker whose wait is over is half-open after a request, with one trial out. -/
theorem wakes_of_due (h : r.breaker? n = some b) (hreliable : r.IsReliable)
    (hopen : b.state = .opened) (hdue : b.isDue now) :
    (r.acquire n now).1 = .granted ⟨true, b.generation + 1⟩ ∧
      ∃ b', (r.acquire n now).2.breaker? n = some b' ∧ b'.state = .halfOpen ∧
        b'.generation = b.generation + 1 ∧ b'.trials = 1 := by
  have hwake := Breaker.wake_of_due hopen hdue
  have hwoken : (r.woken n b now).breaker? n = some (b.change .halfOpen now).2 := by
    rw [(r.onlyTells_woken n b now).breaker?, hwake, breaker?_update_self h]
  have hfew : (b.change .halfOpen now).2.trials < (b.change .halfOpen now).2.trialLimit :=
    Breaker.trialLimit_pos _
  rw [acquire_of_reliable hreliable h, hwake,
    Breaker.take_of_few (Breaker.state_change ..) hfew]
  exact ⟨rfl, _, breaker?_update_self hwoken _, rfl, rfl, rfl⟩

/-- What a breaker says of itself does not depend on how it came into its state. -/
theorem foretells (h : r.breaker? n = some b) (now : Nat) : r.Foretells n now b where
  breaker := h
  acquires := Breaker.isAvailable_iff_isSome_acquire
  refuses := by rw [refused_iff_not_hasRoom h, Breaker.isAvailable_iff_hasRoom]
  grants hreliable := by
    rw [Breaker.isAvailable_iff_hasRoom]
    refine ⟨exists_granted_of_hasRoom h hreliable, fun ⟨p, hp⟩ => ?_⟩
    by_contra hroom
    rw [(refused_iff_not_hasRoom h).2 hroom] at hp
    cases hp
  wakes hreliable hopen havailable := by
    refine wakes_of_due h hreliable hopen ?_
    simpa [Breaker.isAvailable, hopen] using havailable

end BreakerRegistry

namespace BreakerLife

/-- The breaker stays registered, whatever is called. -/
theorem exists_breaker?_run {l : BreakerLife} {b : Breaker} (h : l.registry.breaker? 0 = some b)
    (calls : List (Nat × BreakerCall)) : ∃ b', (l.run calls).registry.breaker? 0 = some b' := by
  induction calls generalizing l b with
  | nil => exact ⟨b, h⟩
  | cons c calls ih =>
    obtain ⟨w, hw, rfl⟩ := Option.map_eq_some_iff.1 h
    obtain ⟨b', -, hb', -⟩ := BreakerRegistry.exists_moves_call hw c.1 c.2
    exact ih (BreakerRegistry.breaker?_of_getElem? hb')

/-- Whatever was called, at any instants, a breaker tells by its state what the next request for a
permit comes to. -/
theorem foretells_run (o : BreakerOrigin) (calls : List (Nat × BreakerCall)) (now : Nat) :
    ∃ b, ((start o).run calls).registry.Foretells 0 now b := by
  obtain ⟨b, hb⟩ := exists_breaker?_run (l := start o) rfl calls
  exact ⟨b, BreakerRegistry.foretells hb now⟩

end BreakerLife

end TrafficControl
