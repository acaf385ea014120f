import TrafficControl.Proofs.Breaker.Matching

/-!
# What listeners are told when none fails

A listener that fails keeps the later ones from being told, and ends the operation that was telling
it. As long as nobody fails it does not matter who would : an operation of a registry comes to the
same as with listeners that never fail (`BreakerRegistry.calmed`), and every listener is told every
change of the breakers that were made after it was added (`BreakerRegistry.Offers`).
-/

namespace TrafficControl

/-! ## The same without failures -/

/-- A listener that never fails in place of the one given. -/
def StateListener.calmed (_ : StateListener) : StateListener := {}

namespace BreakerRegistry

/-- The registry with listeners that never fail. -/
def calmed (r : BreakerRegistry) : BreakerRegistry :=
  { r with listeners := r.listeners.map StateListener.calmed }

variable {r : BreakerRegistry} {n now : Nat}

theorem isReliable_calmed (r : BreakerRegistry) : r.calmed.IsReliable := by
  intro l hl k
  obtain ⟨l', -, rfl⟩ := List.mem_map.1 hl
  rfl

theorem calmed_update (r : BreakerRegistry) (n : Nat) (b : Breaker) :
    (r.update n b).calmed = r.calmed.update n b := rfl

/-- As long as nobody fails it does not matter who would. -/
theorem tell_calmed {change : StateChange} {ls : List Nat} (h : (r.tell change ls).1 = true) :
    r.calmed.tell change ls = (true, (r.tell change ls).2.calmed) := by
  induction ls generalizing r with
  | nil => rfl
  | cons l ls ih =>
    have hcalm : r.calmed.listeners[l]?.any (fun s => s.fails (r.calmed.heard l)) = false := by
      simp only [calmed, List.getElem?_map]
      cases r.listeners[l]? <;> rfl
    unfold tell at h ⊢
    dsimp only at h ⊢
    rw [hcalm]
    split at h
    · exact absurd h Bool.false_ne_true
    · next hfails =>
      rw [if_neg hfails, if_neg Bool.false_ne_true]
      exact ih (r := { r with deliveries := r.deliveries ++ [⟨l, change⟩] }) h

theorem announce_calmed {change : Option StateChange} (h : (r.announce n change).1 = true) :
    r.calmed.announce n change = (true, (r.announce n change).2.calmed) := by
  cases change with
  | none => rfl
  | some change => exact tell_calmed h

theorem acquire_calmed (h : (r.acquire n now).1 ≠ .interrupted) :
    r.calmed.acquire n now = ((r.acquire n now).1, (r.acquire n now).2.calmed) := by
  cases hb : r.breaker? n with
  | none =>
    have hb' : r.calmed.breaker? n = none := hb
    simp [acquire, hb, hb']
  | some b =>
    have hb' : r.calmed.breaker? n = some b := hb
    rw [acquire_eq hb] at h ⊢
    cases hwhole : (r.announce n (b.wake now).1).1 with
    | false => simp [hwhole, Breaker.answer] at h
    | true =>
      rw [acquire_eq hb', announce_calmed hwhole]
      rfl

theorem complete_calmed {micros : Nat} {cause : Option String}
    (h : (r.complete n micros cause now).1 = true) :
    r.calmed.complete n micros cause now = (true, (r.complete n micros cause now).2.calmed) := by
  cases hb : r.breaker? n with
  | none =>
    have hb' : r.calmed.breaker? n = none := hb
    simp [complete, hb, hb']
  | some b =>
    have hb' : r.calmed.breaker? n = some b := hb
    rw [complete_eq hb] at h ⊢
    rw [complete_eq hb', ← calmed_update, announce_calmed h]

theorem getOrCreate_calmed (r : BreakerRegistry) (service uri : String) (p : BreakPolicy)
    (now : Nat) : r.calmed.getOrCreate service uri p now =
      (r.getOrCreate service uri p now).map fun q => (q.1, q.2.calmed) := by
  have hregister : ∀ s, r.calmed.register uri s p now = (r.register uri s p now).calmed := by
    simp [register, calmed]
  have hentries : r.calmed.entries = r.entries := rfl
  have hbreaker : r.calmed.breaker? = r.breaker? := rfl
  have hbreakers : r.calmed.breakers = r.breakers := rfl
  unfold getOrCreate
  cases p.check with
  | error e => rfl
  | ok =>
    rw [hentries, hbreaker, hbreakers]
    cases r.entries.find? uri with
    | none =>
      rw [hregister]
      rfl
    | some entry =>
      simp only [hregister, bind, Except.bind, pure, Except.pure]
      split <;> rfl

theorem releasePermit_calmed (r : BreakerRegistry) (n : Nat) (p : Permit) :
    r.calmed.releasePermit n p = (r.releasePermit n p).calmed := by
  cases hb : r.breaker? n with
  | none =>
    have hb' : r.calmed.breaker? n = none := hb
    simp [releasePermit, hb, hb']
  | some b =>
    have hb' : r.calmed.breaker? n = some b := hb
    rw [releasePermit_eq hb, releasePermit_eq hb', calmed_update]

/-! ## What listeners are told -/

/-- The number of listeners that a breaker has. These are the ones that were added before it was
made. -/
def watchers (r : BreakerRegistry) (n : Nat) : Nat := (r.breakers[n]?.map (·.listeners)).getD 0

/-- The change that a breaker makes at a call, with its number. -/
def changesAt (r : BreakerRegistry) (n now : Nat) (c : BreakerCall) : List (Nat × StateChange) :=
  ((r.breaker? n).bind (·.told now c)).toList.map (n, ·)

/-- Whether every listener is told the changes given, of the breakers that it listens to and in
order. -/
structure Offers (r : BreakerRegistry) (changes : List (Nat × StateChange)) (r' : BreakerRegistry) :
    Prop where
  made : r.breakers.length ≤ r'.breakers.length
  watchers : ∀ n < r.breakers.length, r'.watchers n = r.watchers n
  known : ∀ q ∈ changes, q.1 < r'.breakers.length
  told : ∀ l, r'.changesTold l =
    r.changesTold l ++ (changes.filter fun q => l < r'.watchers q.1).map (·.2)

variable {r' r'' : BreakerRegistry}

/-- Where the breakers stay as they are and nobody is told anything there was no change. -/
theorem Offers.of_same (hbreakers : r'.breakers = r.breakers)
    (hdeliveries : r'.deliveries = r.deliveries) : r.Offers [] r' where
  made := Nat.le_of_eq (congrArg List.length hbreakers.symm)
  watchers n _ := by rw [BreakerRegistry.watchers, hbreakers, BreakerRegistry.watchers]
  known := by simp
  told l := by simp [changesTold, hdeliveries]

theorem Offers.refl (r : BreakerRegistry) : r.Offers [] r := .of_same rfl rfl

theorem Offers.trans {cs ds : List (Nat × StateChange)} (h : r.Offers cs r')
    (h' : r'.Offers ds r'') : r.Offers (cs ++ ds) r'' where
  made := Nat.le_trans h.made h'.made
  watchers n hn :=
    (h'.watchers n (Nat.lt_of_lt_of_le hn h.made)).trans (h.watchers n hn)
  known q hq := by
    rcases List.mem_append.1 hq with hq | hq
    · exact Nat.lt_of_lt_of_le (h.known q hq) h'.made
    · exact h'.known q hq
  told l := by
    have hsame : cs.filter (fun q => l < r''.watchers q.1) =
        cs.filter (fun q => l < r'.watchers q.1) :=
      List.filter_congr fun q hq => by rw [h'.watchers q.1 (h.known q hq)]
    rw [h'.told, h.told, List.filter_append, List.map_append, hsame, List.append_assoc]

/-- If nobody fails, the listeners of a breaker are told its change and the others are not. -/
theorem changesTold_announce_of_whole {change : Option StateChange}
    (h : (r.announce n change).1 = true) (l : Nat) :
    (r.announce n change).2.changesTold l =
      r.changesTold l ++ if l < r.watchers n then change.toList else [] := by
  have hcalm := congrArg (fun told => told.2.changesTold l) (announce_calmed h)
  change (r.calmed.announce n change).2.changesTold l = (r.announce n change).2.changesTold l
    at hcalm
  cases hw : r.breakers[n]? with
  | none =>
    have hnone : r.watchers n = 0 := by simp [watchers, hw]
    cases change with
    | none => simp [announce]
    | some change => simp [announce, hw, hnone, tell]
  | some w =>
    have hsome : r.watchers n = w.listeners := by simp [watchers, hw]
    have hw' : r.calmed.breakers[n]? = some w := hw
    rw [hsome]
    split
    · next hl =>
      rw [← hcalm]
      exact changesTold_announce hw' hl
        (fun j _ s hs => r.isReliable_calmed s (List.mem_of_getElem? hs)) change
    · next hl =>
      cases change with
      | none => simp [announce]
      | some change =>
        rw [announce, List.append_nil]
        refine changesTold_tell_of_not_mem r change fun hmem => hl ?_
        simpa [hw] using hmem

theorem watchers_update (r : BreakerRegistry) (n m : Nat) (b : Breaker) :
    (r.update n b).watchers m = r.watchers m := by
  unfold watchers update
  rw [List.getElem?_modify]
  split <;> cases r.breakers[m]? <;> rfl

/-- A call of a breaker at which nobody fails. -/
theorem offers_call (c : BreakerCall)
    (h : ∀ b, r.breaker? n = some b → (r.announce n (b.told now c)).1 = true) :
    r.Offers (r.changesAt n now c) (r.call n now c) := by
  cases hb : r.breaker? n with
  | none =>
    rw [call_of_none hb, changesAt, hb]
    exact .refl r
  | some b =>
    have hwhole := h b hb
    have hsame := (r.onlyTells_announce n (b.told now c)).breakers
    have hmade : (r.call n now c).breakers.length = r.breakers.length := by
      rw [call_eq hb, update, List.length_modify, hsame]
    have hwatchers : ∀ m, (r.call n now c).watchers m = r.watchers m := by
      intro m
      rw [call_eq hb, watchers_update, watchers, hsame, watchers]
    have hn : n < r.breakers.length := by
      by_contra hge
      simp [breaker?, List.getElem?_eq_none (Nat.le_of_not_lt hge)] at hb
    have hchanges : r.changesAt n now c = (b.told now c).toList.map (n, ·) := by
      simp [changesAt, hb]
    refine ⟨Nat.le_of_eq hmade.symm, fun m _ => hwatchers m, ?_, fun l => ?_⟩
    · intro q hq
      rw [hchanges] at hq
      obtain ⟨change, -, rfl⟩ := List.mem_map.1 hq
      exact hmade ▸ hn
    · have htold : (r.call n now c).changesTold l =
          (r.announce n (b.told now c)).2.changesTold l := by
        rw [call_eq hb]
        rfl
      rw [htold, changesTold_announce_of_whole hwhole, hchanges]
      cases b.told now c with
      | none => simp
      | some change => by_cases hl : l < r.watchers n <;> simp [hwatchers, hl]

theorem offers_acquire (h : (r.acquire n now).1 ≠ .interrupted) :
    r.Offers (r.changesAt n now .acquire) (r.acquire n now).2 := by
  refine offers_call .acquire fun b hb => ?_
  rw [acquire_eq hb] at h
  by_contra hfailed
  exact h (if_neg hfailed)

theorem offers_complete {micros : Nat} {cause : Option String}
    (h : (r.complete n micros cause now).1 = true) :
    r.Offers (r.changesAt n now (.complete micros cause)) (r.complete n micros cause now).2 := by
  refine offers_call (.complete micros cause) fun b hb => ?_
  rw [complete_eq hb, announce_update] at h
  exact h

theorem offers_releasePermit (r : BreakerRegistry) (n : Nat) (p : Permit) :
    r.Offers [] (r.releasePermit n p) := by
  have hcall := @offers_call r n 0 (.releasePermit p) fun b _ => rfl
  have hnone : r.changesAt n 0 (.releasePermit p) = [] := by
    cases hb : r.breaker? n <;> simp [changesAt, hb, Breaker.told]
  rwa [hnone] at hcall

theorem offers_getOrCreate {service uri : String} {p : BreakPolicy}
    (h : r.getOrCreate service uri p now = .ok (n, r')) : r.Offers [] r' := by
  rcases eq_or_register_of_getOrCreate h with rfl | ⟨service, rfl⟩
  · exact .refl _
  · refine ⟨by simp [register], fun m hm => ?_, by simp, fun l => by simp [changesTold, register]⟩
    simp [watchers, register, List.getElem?_append_left hm]

end BreakerRegistry

end TrafficControl
