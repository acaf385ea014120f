import TrafficControl.Proofs.Engine.Session

/-!
# Frames

What a call does to an engine is done to breakers and limiters only, and to breakers only while it
gets or records something there (`Engine.exists_admission`, `Engine.exists_complete`). So the policy
in force is another one only after a change of policy (`Session.store_run`).
-/

namespace TrafficControl

namespace Engine

theorem exists_breakerPermits (e : Engine) (i : Invocation) (now : Nat) (held : Admission)
    (guards : List (String × BreakPolicy)) :
    ∃ breakers, (e.breakerPermits i now held guards).2.1 = { e with breakers } := by
  induction guards generalizing e held with
  | nil => exact ⟨_, rfl⟩
  | cons guard guards ih =>
    obtain ⟨uri, p⟩ := guard
    rw [breakerPermits]
    cases e.breakers.getOrCreate i.service.name uri p now with
    | error error => exact ih e held
    | ok got =>
      obtain ⟨n, made⟩ := got
      dsimp only
      rcases made.acquire n now with ⟨permit | _ | _, r⟩
      · exact ih { e with breakers := r } _
      · exact ⟨_, rfl⟩
      · exact ⟨_, rfl⟩

theorem exists_limitersFor (e : Engine) (service : String) (now : Nat)
    (policies : List RatePolicy) :
    ∃ limiters, (e.limitersFor service now policies).2 = { e with limiters } := by
  induction policies generalizing e with
  | nil => exact ⟨_, rfl⟩
  | cons p policies ih =>
    rw [limitersFor]
    cases e.limiters.getOrCreate service p now with
    | error error => exact ih e
    | ok got => exact ih { e with limiters := got.2 }

theorem limiterPermits_cons (e : Engine) (pacing : Pacing) (now n : Nat) (timeout : Int)
    (rest : List (Nat × Int)) :
    e.limiterPermits pacing now ((n, timeout) :: rest) =
      match e.limiters.limiter? n with
      | none => e.limiterPermits pacing now rest
      | some l =>
        let e := { e with limiters := e.limiters.update n (l.acquire 1 now timeout).2 }
        match (l.acquire 1 now timeout).1 with
        | none => (false, now, e)
        | some wait => e.limiterPermits pacing (now + pacing.elapsed now wait) rest := by
  rfl

theorem exists_limiterPermits (e : Engine) (pacing : Pacing) (now : Nat)
    (found : List (Nat × Int)) :
    ∃ limiters, (e.limiterPermits pacing now found).2.2 = { e with limiters } := by
  induction found generalizing e now with
  | nil => exact ⟨_, rfl⟩
  | cons limiter found ih =>
    obtain ⟨n, timeout⟩ := limiter
    rw [limiterPermits_cons]
    cases e.limiters.limiter? n with
    | none => exact ih e now
    | some l =>
      dsimp only
      cases (l.acquire 1 now timeout).1 with
      | none => exact ⟨_, rfl⟩
      | some wait => exact ih { e with limiters := e.limiters.update n _ } _

theorem limiters_breakerPermits (e : Engine) (i : Invocation) (now : Nat) (held : Admission)
    (guards : List (String × BreakPolicy)) :
    (e.breakerPermits i now held guards).2.1.limiters = e.limiters := by
  obtain ⟨breakers, h⟩ := e.exists_breakerPermits i now held guards
  rw [h]

theorem breakers_limitersFor (e : Engine) (service : String) (now : Nat)
    (policies : List RatePolicy) :
    (e.limitersFor service now policies).2.breakers = e.breakers := by
  obtain ⟨limiters, h⟩ := e.exists_limitersFor service now policies
  rw [h]

theorem breakers_limiterPermits (e : Engine) (pacing : Pacing) (now : Nat)
    (found : List (Nat × Int)) :
    (e.limiterPermits pacing now found).2.2.breakers = e.breakers := by
  obtain ⟨limiters, h⟩ := e.exists_limiterPermits pacing now found
  rw [h]

theorem exists_admission (e : Engine) (i : Invocation) (pacing : Pacing) (now : Nat) :
    ∃ breakers limiters, (e.admission i pacing now).2.2.1 = { e with breakers, limiters } := by
  obtain ⟨breakers, hpermits⟩ := e.exists_breakerPermits i now {}
    (if e.settings.breakers.enabled then guards i else [])
  unfold admission
  dsimp only
  rcases hresult : e.breakerPermits i now {} (if e.settings.breakers.enabled then guards i else [])
    with ⟨a | _ | _, e₁, i₁⟩ <;>
    rw [hresult] at hpermits <;> obtain rfl : e₁ = { e with breakers } := hpermits
  · dsimp only
    generalize (if e.settings.limits.enabled then limits i₁ else []) = policies
    obtain ⟨limiters, hfound⟩ :=
      { e with breakers }.exists_limitersFor i₁.service.name now policies
    obtain ⟨limiters', hlimited⟩ := exists_limiterPermits { e with breakers, limiters } pacing now
      ({ e with breakers }.limitersFor i₁.service.name now policies).1
    rw [hfound]
    generalize limiterPermits _ pacing now _ = limited at hlimited ⊢
    obtain ⟨_ | _, now', e₂⟩ := limited <;>
      obtain rfl : e₂ = { e with breakers, limiters := limiters' } := hlimited
    · exact ⟨_, limiters', rfl⟩
    · exact ⟨_, limiters', rfl⟩
  · exact ⟨_, _, rfl⟩
  · exact ⟨_, _, rfl⟩

theorem record_eq (e : Engine) (ending : Ending) (now n : Nat) (rest : List Nat) :
    e.record ending now (n :: rest) =
      match e.breakers.complete n ending.micros ending.cause? now with
      | (true, breakers) => { e with breakers }.record ending now rest
      | (false, breakers) => (false, { e with breakers }) := by
  cases ending <;> rfl

theorem exists_record (e : Engine) (ending : Ending) (now : Nat) (ns : List Nat) :
    ∃ breakers, (e.record ending now ns).2 = { e with breakers } := by
  induction ns generalizing e with
  | nil => exact ⟨_, rfl⟩
  | cons n ns ih =>
    rw [record_eq]
    rcases e.breakers.complete n ending.micros ending.cause? now with ⟨_ | _, r⟩
    · exact ⟨_, rfl⟩
    · exact ih { e with breakers := r }

theorem engine_complete (e : Engine) (a : Admission) (i : Invocation) (ending : Ending)
    (now : Nat) : (e.complete a i ending now).2.1 =
      (e.record ending now (a.held.map (·.1))).2.abandon a := by
  unfold complete
  dsimp only
  split <;> rfl

theorem exists_complete (e : Engine) (a : Admission) (i : Invocation) (ending : Ending)
    (now : Nat) : ∃ breakers, (e.complete a i ending now).2.1 = { e with breakers } := by
  obtain ⟨breakers, h⟩ := e.exists_record ending now (a.held.map (·.1))
  rw [engine_complete, h]
  exact ⟨_, rfl⟩

end Engine

namespace Session

variable {s : Session}

/-- Nothing but a change of policy puts another snapshot in force. -/
theorem store_step {event : Event} (h : ∀ c, event ≠ .change c) :
    (s.step event).engine.store = s.engine.store := by
  cases event with
  | ask i pacing =>
    obtain ⟨breakers, limiters, hadmission⟩ := s.engine.exists_admission i pacing s.now
    have hstore := congrArg Engine.store hadmission
    simp only [step]
    rcases hresult : s.engine.admission i pacing s.now with ⟨a | _ | _, now, e, i'⟩ <;>
      rwa [hresult] at hstore
  | complete number ending =>
    simp only [step]
    cases s.call? number with
    | none => rfl
    | some c =>
      obtain ⟨breakers, hcomplete⟩ :=
        s.engine.exists_complete c.admission c.invocation ending s.now
      have hstore := congrArg Engine.store hcomplete
      exact hstore
  | drop number =>
    simp only [step]
    cases s.call? number <;> rfl
  | change c => exact absurd rfl (h c)
  | recycle snapshot => rfl
  | listen l => rfl
  | advance micros => rfl

theorem store_run {events : List Event} (h : ∀ c, .change c ∉ events) :
    (s.run events).engine.store = s.engine.store := by
  induction events generalizing s with
  | nil => rfl
  | cons event events ih =>
    have hevent : ∀ c, event ≠ .change c := by
      rintro c rfl
      exact h c List.mem_cons_self
    have hrest : ∀ c, .change c ∉ events := fun c hc => h c (List.mem_cons_of_mem _ hc)
    exact (ih hrest).trans (store_step hevent)

end Session

end TrafficControl
