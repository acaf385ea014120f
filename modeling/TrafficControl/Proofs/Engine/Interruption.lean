import TrafficControl.Proofs.Breaker.Offers
import TrafficControl.Proofs.Engine.Listeners

/-!
# Calls that nobody interrupts

A listener of a breaker that fails interrupts the request for admission or the completion in which it
was told. If it does not come to that, the engine does what it does with listeners that never fail
(`Engine.admission_calmed`, `Engine.complete_calmed`), and listeners are told all changes
(`Engine.offers_admission`, `Engine.offers_record`). With listeners that never fail it never comes to
that (`Engine.admission_of_reliable`).
-/

namespace TrafficControl

/-! ## The same without failures -/

namespace Engine

/-- The engine with listeners of breakers that never fail. -/
def calmed (e : Engine) : Engine := { e with breakers := e.breakers.calmed }

variable {e : Engine} {i : Invocation} {pacing : Pacing} {now : Nat}

theorem abandon_calmed (e : Engine) (a : Admission) :
    e.calmed.abandon a = (e.abandon a).calmed := by
  obtain ⟨held⟩ := a
  induction held generalizing e with
  | nil => rfl
  | cons q held ih =>
    have hrest := ih { e with breakers := e.breakers.releasePermit q.1 q.2 }
    simp only [abandon, calmed, List.foldl_cons, BreakerRegistry.releasePermit_calmed] at hrest ⊢
    exact hrest

theorem breakerPermits_calmed {held : Admission} {gs : List (String × BreakPolicy)}
    (h : (e.breakerPermits i now held gs).1 ≠ .interrupted) :
    e.calmed.breakerPermits i now held gs =
      ((e.breakerPermits i now held gs).1, (e.breakerPermits i now held gs).2.1.calmed,
        (e.breakerPermits i now held gs).2.2) := by
  induction gs generalizing e held with
  | nil => rfl
  | cons g gs ih =>
    obtain ⟨uri, p⟩ := g
    have hgot : e.calmed.breakers.getOrCreate i.service.name uri p now =
        (e.breakers.getOrCreate i.service.name uri p now).map fun q => (q.1, q.2.calmed) :=
      e.breakers.getOrCreate_calmed ..
    unfold breakerPermits at h ⊢
    rw [hgot]
    cases hmade : e.breakers.getOrCreate i.service.name uri p now with
    | error error =>
      rw [hmade] at h
      exact ih h
    | ok made =>
      obtain ⟨n, made⟩ := made
      rw [hmade] at h
      dsimp only [Except.map] at h ⊢
      have hacquire := @BreakerRegistry.acquire_calmed made n now
      rcases hattempt : made.acquire n now with ⟨permit | _ | _, r⟩ <;>
        rw [hattempt] at h hacquire
      · rw [hacquire (by simp)]
        exact ih (e := { e with breakers := r }) h
      · rw [hacquire (by simp)]
        have hback := abandon_calmed { e with breakers := r } held
        simp only [calmed] at hback ⊢
        rw [hback]
      · exact absurd rfl h

theorem limitersFor_calmed (e : Engine) (service : String) (now : Nat) (ps : List RatePolicy) :
    e.calmed.limitersFor service now ps =
      ((e.limitersFor service now ps).1, (e.limitersFor service now ps).2.calmed) := by
  induction ps generalizing e with
  | nil => rfl
  | cons p ps ih =>
    have hsame : e.calmed.limiters = e.limiters := rfl
    unfold limitersFor
    rw [hsame]
    cases e.limiters.getOrCreate service p now with
    | error error => exact ih e
    | ok got =>
      have hrest := ih { e with limiters := got.2 }
      simp only [calmed] at hrest ⊢
      rw [hrest]
      rfl

theorem limiterPermits_calmed (e : Engine) (pacing : Pacing) (now : Nat)
    (found : List (Nat × Int)) :
    e.calmed.limiterPermits pacing now found =
      ((e.limiterPermits pacing now found).1, (e.limiterPermits pacing now found).2.1,
        (e.limiterPermits pacing now found).2.2.calmed) := by
  induction found generalizing e now with
  | nil => rfl
  | cons limiter found ih =>
    obtain ⟨n, timeout⟩ := limiter
    have hsame : e.calmed.limiters = e.limiters := rfl
    rw [limiterPermits_cons, limiterPermits_cons, hsame]
    cases e.limiters.limiter? n with
    | none => exact ih e now
    | some l =>
      dsimp only
      cases (l.acquire 1 now timeout).1 with
      | none => rfl
      | some wait => exact ih { e with limiters := e.limiters.update n _ } _

theorem admission_calmed (h : (e.admission i pacing now).1 ≠ .interrupted) :
    e.calmed.admission i pacing now =
      ((e.admission i pacing now).1, (e.admission i pacing now).2.1,
        (e.admission i pacing now).2.2.1.calmed, (e.admission i pacing now).2.2.2) := by
  have hsettings : e.calmed.settings = e.settings := rfl
  have hpermits := @breakerPermits_calmed e i now {}
    (if e.settings.breakers.enabled then guards i else [])
  unfold admission at h ⊢
  dsimp only at h ⊢
  rw [hsettings]
  rcases hresult : e.breakerPermits i now {} (if e.settings.breakers.enabled then guards i else [])
    with ⟨a | f | _, e', i'⟩ <;> rw [hresult] at h hpermits
  · rw [hpermits (by simp)]
    dsimp only at h ⊢
    have hsettings' : e'.calmed.settings = e'.settings := rfl
    rw [hsettings', limitersFor_calmed]
    generalize e'.limitersFor i'.service.name now
      (if e'.settings.limits.enabled then limits i' else []) = found
    obtain ⟨limiters, e₁⟩ := found
    dsimp only
    rw [limiterPermits_calmed]
    generalize e₁.limiterPermits pacing now limiters = limited
    obtain ⟨_ | _, now', e₂⟩ := limited
    · simp only [abandon_calmed]
    · rfl
  · rw [hpermits (by simp)]
  · exact absurd rfl h

theorem record_calmed {ending : Ending} {ns : List Nat}
    (h : (e.record ending now ns).1 = true) :
    e.calmed.record ending now ns = (true, (e.record ending now ns).2.calmed) := by
  induction ns generalizing e with
  | nil => rfl
  | cons n ns ih =>
    rw [record_eq] at h ⊢
    rw [record_eq]
    have hcomplete := @BreakerRegistry.complete_calmed e.breakers n now ending.micros ending.cause?
    have hsame : e.calmed.breakers = e.breakers.calmed := rfl
    rw [hsame]
    rcases hresult : e.breakers.complete n ending.micros ending.cause? now with ⟨_ | _, r⟩ <;>
      rw [hresult] at h hcomplete
    · exact absurd h Bool.false_ne_true
    · rw [hcomplete rfl]
      exact ih (e := { e with breakers := r }) h

theorem complete_calmed {a : Admission} {ending : Ending}
    (h : (e.record ending now (a.held.map (·.1))).1 = true) :
    e.calmed.complete a i ending now =
      ((e.complete a i ending now).1, (e.complete a i ending now).2.1.calmed,
        (e.complete a i ending now).2.2) := by
  unfold complete
  rw [record_calmed h]
  dsimp only
  rw [abandon_calmed, h]
  rfl

theorem apply_calmed (e : Engine) (c : StoreChange) :
    e.calmed.apply c = (e.apply c).map calmed := by
  have hsame : e.calmed.store = e.store := rfl
  unfold apply
  rw [hsame]
  cases e.store.apply c with
  | error error => rfl
  | ok store => by_cases hservices : c.bringsServices <;> simp [hservices, Except.map] <;> rfl

end Engine

/-- The reports of a completion that nobody interrupts. -/
theorem BreakerRegistry.reports_calmed {r : BreakerRegistry} {ending : Ending} {now : Nat}
    {held : List (Nat × Permit)} (e : Engine) (hr : e.breakers = r)
    (h : (e.record ending now (held.map (·.1))).1 = true) (call : Nat) :
    r.calmed.reports call ending now held = r.reports call ending now held := by
  induction held generalizing e r with
  | nil => rfl
  | cons q held ih =>
    obtain ⟨n, p⟩ := q
    have hbreaker : r.calmed.breaker? n = r.breaker? n := rfl
    have hcomplete := @complete_calmed r n now ending.micros ending.cause?
    rw [List.map_cons, Engine.record_eq, hr] at h
    rw [reports, reports, hbreaker]
    rcases hresult : r.complete n ending.micros ending.cause? now with ⟨_ | _, told⟩ <;>
      rw [hresult] at h hcomplete
    · exact absurd h Bool.false_ne_true
    · rw [hcomplete rfl]
      simp only [ih { e with breakers := told } rfl h]

namespace Engine

variable {e : Engine}

/-! ## What listeners are told -/

/-- The changes that breakers make while a call gets its permits. -/
def changesAsked (e : Engine) (i : Invocation) (now : Nat) :
    List (String × BreakPolicy) → List (Nat × StateChange)
  | [] => []
  | (uri, p) :: rest =>
    match e.breakers.getOrCreate i.service.name uri p now with
    | .error _ => e.changesAsked i now rest
    | .ok (n, breakers) =>
      breakers.changesAt n now .acquire ++
        match breakers.acquire n now with
        | (.granted _, breakers) => { e with breakers }.changesAsked i now rest
        | _ => []

/-- The changes that breakers make while they are told how a call ended. -/
def changesRecorded (e : Engine) (ending : Ending) (now : Nat) : List Nat → List (Nat × StateChange)
  | [] => []
  | n :: rest =>
    e.breakers.changesAt n now (.complete ending.micros ending.cause?) ++
      match e.breakers.complete n ending.micros ending.cause? now with
      | (true, breakers) => { e with breakers }.changesRecorded ending now rest
      | (false, _) => []

theorem offers_abandon (e : Engine) (a : Admission) :
    e.breakers.Offers [] (e.abandon a).breakers := by
  obtain ⟨held⟩ := a
  induction held generalizing e with
  | nil => exact .refl _
  | cons q held ih =>
    exact (e.breakers.offers_releasePermit q.1 q.2).trans
      (ih { e with breakers := e.breakers.releasePermit q.1 q.2 })

theorem offers_breakerPermits {i : Invocation} {now : Nat} {held : Admission}
    {gs : List (String × BreakPolicy)} (h : (e.breakerPermits i now held gs).1 ≠ .interrupted) :
    e.breakers.Offers (e.changesAsked i now gs) (e.breakerPermits i now held gs).2.1.breakers := by
  induction gs generalizing e held with
  | nil => exact .refl _
  | cons g gs ih =>
    obtain ⟨uri, p⟩ := g
    unfold breakerPermits at h ⊢
    unfold changesAsked
    cases hmade : e.breakers.getOrCreate i.service.name uri p now with
    | error error =>
      rw [hmade] at h
      exact ih h
    | ok made =>
      obtain ⟨n, made⟩ := made
      rw [hmade] at h
      have hgot := BreakerRegistry.offers_getOrCreate hmade
      have hacquire := @BreakerRegistry.offers_acquire made n now
      dsimp only at h ⊢
      rcases hattempt : made.acquire n now with ⟨permit | _ | _, r⟩ <;>
        rw [hattempt] at h hacquire
      · have hrest := ih (e := { e with breakers := r }) h
        exact hgot.trans ((hacquire (by simp)).trans hrest)
      · have hback := offers_abandon { e with breakers := r } held
        exact hgot.trans ((hacquire (by simp)).trans hback)
      · exact absurd rfl h

theorem offers_admission {i : Invocation} {pacing : Pacing} {now : Nat}
    (h : (e.admission i pacing now).1 ≠ .interrupted) :
    e.breakers.Offers (e.changesAsked i now (e.guardsAsked i))
      (e.admission i pacing now).2.2.1.breakers := by
  obtain ⟨given, hgiven⟩ := e.exists_breakers_admission i pacing now
  have hpermits := offers_breakerPermits (mt (e.admission_eq_interrupted_iff i pacing now).2 h)
  have hback := hpermits.trans (offers_abandon _ given)
  rwa [List.append_nil, ← hgiven] at hback

theorem offers_record {ending : Ending} {now : Nat} {ns : List Nat}
    (h : (e.record ending now ns).1 = true) :
    e.breakers.Offers (e.changesRecorded ending now ns) (e.record ending now ns).2.breakers := by
  induction ns generalizing e with
  | nil => exact .refl _
  | cons n ns ih =>
    have hcomplete := @BreakerRegistry.offers_complete e.breakers n now ending.micros ending.cause?
    rw [record_eq] at h ⊢
    rw [changesRecorded]
    rcases hresult : e.breakers.complete n ending.micros ending.cause? now with ⟨_ | _, r⟩ <;>
      rw [hresult] at h hcomplete
    · exact absurd h Bool.false_ne_true
    · exact (hcomplete rfl).trans (ih (e := { e with breakers := r }) h)

/-! ## Listeners that do not fail -/

theorem breakerPermits_of_reliable (h : e.breakers.IsReliable) (i : Invocation) (now : Nat)
    (held : Admission) (gs : List (String × BreakPolicy)) :
    (e.breakerPermits i now held gs).1 ≠ .interrupted := by
  induction gs generalizing e held with
  | nil => simp [breakerPermits]
  | cons g gs ih =>
    obtain ⟨uri, p⟩ := g
    unfold breakerPermits
    cases hmade : e.breakers.getOrCreate i.service.name uri p now with
    | error error => exact ih h held
    | ok made =>
      obtain ⟨n, made⟩ := made
      have hreliable := h.getOrCreate hmade
      have hcalled := hreliable.call n now .acquire
      rw [BreakerRegistry.call] at hcalled
      dsimp only
      rcases hattempt : made.acquire n now with ⟨permit | _ | _, r⟩ <;> rw [hattempt] at hcalled
      · exact ih (e := { e with breakers := r }) hcalled _
      · simp
      · cases hb : made.breaker? n with
        | none => simp [BreakerRegistry.acquire, hb] at hattempt
        | some b =>
          have hnone := congrArg Prod.fst
            (hattempt.symm.trans (BreakerRegistry.acquire_of_reliable hreliable hb now))
          cases hp : ((b.wake now).2.take now).1 <;> simp [hp] at hnone

theorem admission_of_reliable (h : e.breakers.IsReliable) (i : Invocation) (pacing : Pacing)
    (now : Nat) : (e.admission i pacing now).1 ≠ .interrupted :=
  mt (e.admission_eq_interrupted_iff i pacing now).1 (breakerPermits_of_reliable h i now {} _)

end Engine

end TrafficControl
