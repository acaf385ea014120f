import TrafficControl.Proofs.Breaker.Lookups
import TrafficControl.Proofs.Limit.Lookups

/-!
# Look-ups of a session

Every admission looks up breakers and limiters, one for each policy that applies and is valid
(`Session.breakerLookups`, `Session.limiterLookups`). Nothing else that can happen in a session does
so, and all else that can happen to what is registered is that it is dropped. So the look-ups of a
run tell what is registered in the end (`Session.records_run`).
-/

namespace TrafficControl

/-! ## What is asked for -/

/-- What a look-up asks for : the object for a resource, under a version. -/
def Lookup.asked {ρ : Type} (l : Lookup ρ) : ρ × UInt64 := (l.resource, l.version)

/-- Breakers are looked up for the policies given, in order. -/
theorem BreakerRegistry.sublist_lookups (r : BreakerRegistry) (service : String) (now : Nat)
    (gs : List (BreakTarget × BreakPolicy)) :
    List.Sublist ((r.lookups service now gs).map Lookup.asked)
      (gs.map fun g => (g.1, g.2.version)) := by
  induction gs generalizing r with
  | nil => exact .slnil
  | cons g gs ih =>
    obtain ⟨x, p⟩ := g
    rw [lookups]
    cases r.getOrCreate service x.uri p now with
    | error error => exact .cons _ (ih r)
    | ok got =>
      obtain ⟨n, made⟩ := got
      dsimp only
      rcases made.acquire n now with ⟨permit | _ | _, r'⟩
      · exact .cons_cons _ (ih r')
      · exact .cons_cons _ (List.nil_sublist _)
      · exact .cons_cons _ (List.nil_sublist _)

/-- Limiters are looked up for the policies given, in order. -/
theorem LimiterRegistry.sublist_lookups (r : LimiterRegistry) (service : String) (now : Nat)
    (ps : List RatePolicy) :
    List.Sublist ((r.lookups service now ps).map Lookup.asked)
      (ps.map fun p => (⟨service, p.name⟩, p.version)) := by
  induction ps generalizing r with
  | nil => exact .slnil
  | cons p ps ih =>
    rw [lookups]
    cases r.getOrCreate service p now with
    | error error => exact .cons _ (ih r)
    | ok got => exact .cons_cons _ (ih got.2)

/-! ## Admissions -/

namespace Engine

variable {e : Engine} {i : Invocation} {now : Nat}

/-- What the breakers that guard a call are for, with their policies. -/
def guarded (i : Invocation) : List (BreakTarget × BreakPolicy) :=
  (i.breaksAt .service).map (fun p => (⟨i.service.name, p.name, none⟩, p)) ++
    match i.selection.choice with
    | some c =>
      (i.breaksAt .endpoint).map fun p => (⟨i.service.name, p.name, some c.endpoint.id⟩, p)
    | none => []

theorem guards_eq (i : Invocation) : guards i = (guarded i).map fun g => (g.1.uri, g.2) := by
  unfold guards guarded
  cases i.selection.choice with
  | none => simp [Function.comp_def, BreakTarget.uri]
  | some c => simp [Function.comp_def, BreakTarget.uri]

theorem guards_enabled (e : Engine) (i : Invocation) :
    (if e.settings.breakers.enabled then guards i else []) =
      (if e.settings.breakers.enabled then guarded i else []).map fun g => (g.1.uri, g.2) := by
  rw [guards_eq]
  split <;> rfl

/-- The look-ups of breakers at a request for admission. -/
def breakerLookups (e : Engine) (i : Invocation) (now : Nat) : List (Lookup BreakTarget) :=
  e.breakers.lookups i.service.name now (if e.settings.breakers.enabled then guarded i else [])

/-- The look-ups of limiters at a request for admission. There are none if a breaker refuses. -/
def limiterLookups (e : Engine) (i : Invocation) (now : Nat) : List (Lookup LimitTarget) :=
  match e.breakerPermits i now {} (if e.settings.breakers.enabled then guards i else []) with
  | (.admitted _, e, i) =>
    e.limiters.lookups i.service.name now (if e.settings.limits.enabled then limits i else [])
  | (.refused _, _, _) | (.interrupted, _, _) => []

/-- What a call may ask of breakers : those that guard it, under the versions of their policies. -/
def breaksAsked (i : Invocation) : List (BreakTarget × UInt64) :=
  (guarded i).map fun g => (g.1, g.2.version)

/-- What a call may ask of limiters : those of the policies that apply to it. -/
def limitsAsked (i : Invocation) : List (LimitTarget × UInt64) :=
  (limits i).map fun p => (⟨i.service.name, p.name⟩, p.version)

theorem sublist_breakerLookups (e : Engine) (i : Invocation) (now : Nat) :
    List.Sublist ((e.breakerLookups i now).map Lookup.asked) (breaksAsked i) := by
  unfold breakerLookups
  split
  · exact BreakerRegistry.sublist_lookups ..
  · exact List.nil_sublist _

theorem goes_breakerPermits (h : e.breakers.shelf.IsBounded) (i : Invocation) (now : Nat)
    (held : Admission) (gs : List (BreakTarget × BreakPolicy)) :
    e.breakers.Goes (e.breakers.lookups i.service.name now gs)
      (e.breakerPermits i now held (gs.map fun g => (g.1.uri, g.2))).2.1.breakers := by
  induction gs generalizing e held with
  | nil => exact .refl h
  | cons g gs ih =>
    obtain ⟨x, p⟩ := g
    rw [List.map_cons, BreakerRegistry.lookups, breakerPermits]
    cases hgot : e.breakers.getOrCreate i.service.name x.uri p now with
    | error error => exact ih h held
    | ok got =>
      obtain ⟨n, made⟩ := got
      have hmade := BreakerRegistry.goes_getOrCreate h hgot
      have hasked := hmade.trans_nil (BreakerRegistry.goes_call hmade.isBounded n now .acquire)
      rw [BreakerRegistry.call] at hasked
      dsimp only
      generalize made.acquire n now = asked at hasked ⊢
      obtain ⟨permit | _ | _, r⟩ := asked
      · exact hasked.trans (ih (e := { e with breakers := r }) hasked.isBounded _)
      · exact hasked.trans_nil (BreakerRegistry.goes_giveBack hasked.isBounded _)
      · exact hasked.trans_nil (BreakerRegistry.goes_giveBack hasked.isBounded _)

/-- An admitted call holds permits of the breakers that it looked up. -/
theorem held_breakerPermits {held a : Admission} {gs : List (BreakTarget × BreakPolicy)}
    {e' : Engine} {i' : Invocation}
    (h : e.breakerPermits i now held (gs.map fun g => (g.1.uri, g.2)) = (.admitted a, e', i')) :
    i' = i ∧ a.held.map (·.1) =
      held.held.map (·.1) ++ (e.breakers.lookups i.service.name now gs).map (·.given) := by
  induction gs generalizing e held with
  | nil =>
    obtain ⟨ha, he⟩ := Prod.mk.inj h
    obtain rfl := AdmitResult.admitted.inj ha
    exact ⟨(Prod.mk.inj he).2.symm, (List.append_nil _).symm⟩
  | cons g gs ih =>
    obtain ⟨x, p⟩ := g
    rw [List.map_cons, breakerPermits] at h
    rw [BreakerRegistry.lookups]
    cases hgot : e.breakers.getOrCreate i.service.name x.uri p now with
    | error error =>
      rw [hgot] at h
      exact ih h
    | ok got =>
      obtain ⟨n, made⟩ := got
      rw [hgot] at h
      dsimp only at h ⊢
      rcases hattempt : made.acquire n now with ⟨permit | _ | _, r⟩
      · rw [hattempt] at h
        obtain ⟨hi, hheld⟩ := ih h
        refine ⟨hi, hheld.trans ?_⟩
        simp
      · rw [hattempt] at h
        cases (Prod.mk.inj h).1
      · rw [hattempt] at h
        cases (Prod.mk.inj h).1

theorem sublist_limiterLookups (e : Engine) (i : Invocation) (now : Nat) :
    List.Sublist ((e.limiterLookups i now).map Lookup.asked) (limitsAsked i) := by
  unfold limiterLookups
  rcases hresult : e.breakerPermits i now {} (if e.settings.breakers.enabled then guards i else [])
    with ⟨a | _ | _, e', i'⟩
  · rw [guards_enabled] at hresult
    obtain ⟨rfl, -⟩ := held_breakerPermits hresult
    dsimp only
    split
    · exact LimiterRegistry.sublist_lookups ..
    · exact List.nil_sublist _
  · exact List.nil_sublist _
  · exact List.nil_sublist _

theorem goes_limitersFor (h : e.limiters.shelf.IsBounded) (service : String) (now : Nat)
    (ps : List RatePolicy) : e.limiters.Goes (e.limiters.lookups service now ps)
      (e.limitersFor service now ps).2.limiters := by
  induction ps generalizing e with
  | nil => exact .refl h
  | cons p ps ih =>
    rw [LimiterRegistry.lookups, limitersFor]
    cases hgot : e.limiters.getOrCreate service p now with
    | error error => exact ih h
    | ok got =>
      have hgoes := LimiterRegistry.goes_getOrCreate h hgot
      exact hgoes.trans (ih (e := { e with limiters := got.2 }) hgoes.isBounded)

theorem goes_limiterPermits (h : e.limiters.shelf.IsBounded) (pacing : Pacing) (now : Nat)
    (found : List (Nat × Int)) :
    e.limiters.Goes [] (e.limiterPermits pacing now found).2.2.limiters := by
  induction found generalizing e now with
  | nil => exact .refl h
  | cons limiter found ih =>
    obtain ⟨n, timeout⟩ := limiter
    rw [limiterPermits_cons]
    cases hl : e.limiters.limiter? n with
    | none => exact ih h now
    | some l =>
      have hasked := LimiterRegistry.goes_update h hl 1 now timeout
      dsimp only
      cases (l.acquire 1 now timeout).1 with
      | none => exact hasked
      | some wait => exact hasked.trans (ih (e := { e with limiters := _ }) hasked.isBounded _)

/-- A request for admission changes what is registered by its look-ups only. -/
theorem goes_admission (hbreakers : e.breakers.shelf.IsBounded)
    (hlimiters : e.limiters.shelf.IsBounded) (i : Invocation) (pacing : Pacing) (now : Nat) :
    e.breakers.Goes (e.breakerLookups i now) (e.admission i pacing now).2.2.1.breakers ∧
      e.limiters.Goes (e.limiterLookups i now) (e.admission i pacing now).2.2.1.limiters := by
  have hpermits := goes_breakerPermits hbreakers i now {}
    (if e.settings.breakers.enabled then guarded i else [])
  have hsame := e.limiters_breakerPermits i now {}
    (if e.settings.breakers.enabled then guards i else [])
  rw [← guards_enabled] at hpermits
  unfold admission limiterLookups
  dsimp only
  rcases hresult : e.breakerPermits i now {} (if e.settings.breakers.enabled then guards i else [])
    with ⟨a | _ | _, e', i'⟩
  · rw [hresult] at hpermits hsame
    dsimp only at hpermits hsame ⊢
    generalize (if e'.settings.limits.enabled then limits i' else []) = policies
    have hlimiters' : e'.limiters.shelf.IsBounded := hsame ▸ hlimiters
    have hfound := goes_limitersFor hlimiters' i'.service.name now policies
    have hbreakers' := e'.breakers_limitersFor i'.service.name now policies
    rw [← hsame]
    generalize e'.limitersFor i'.service.name now policies = found at hfound hbreakers' ⊢
    obtain ⟨limiters, e₁⟩ := found
    have hasked := goes_limiterPermits hfound.isBounded pacing now limiters
    have hbreakers₁ := e₁.breakers_limiterPermits pacing now limiters
    dsimp only at hfound hbreakers' hasked hbreakers₁ ⊢
    generalize e₁.limiterPermits pacing now limiters = limited at hasked hbreakers₁ ⊢
    have hlimited := hfound.trans_nil hasked
    obtain ⟨granted, now', e₂⟩ := limited
    have hbreakers₂ : e₂.breakers = e'.breakers := hbreakers₁.trans hbreakers'
    rw [← hbreakers₂] at hpermits
    cases granted with
    | true => exact ⟨hpermits, hlimited⟩
    | false =>
      exact ⟨hpermits.trans_nil (BreakerRegistry.goes_giveBack hpermits.isBounded _), hlimited⟩
  · rw [hresult] at hpermits hsame
    exact ⟨hpermits, by rw [hsame]; exact .refl hlimiters⟩
  · rw [hresult] at hpermits hsame
    exact ⟨hpermits, by rw [hsame]; exact .refl hlimiters⟩

theorem goes_record (h : e.breakers.shelf.IsBounded) (ending : Ending) (now : Nat)
    (ns : List Nat) : e.breakers.Goes [] (e.record ending now ns).2.breakers := by
  induction ns generalizing e with
  | nil => exact .refl h
  | cons n ns ih =>
    have hcalled := BreakerRegistry.goes_call h n now (.complete ending.micros ending.cause?)
    rw [BreakerRegistry.call] at hcalled
    rw [record_eq]
    generalize e.breakers.complete n ending.micros ending.cause? now = told at hcalled ⊢
    obtain ⟨_ | _, r⟩ := told
    · exact hcalled
    · exact hcalled.trans (ih (e := { e with breakers := r }) hcalled.isBounded)

theorem goes_complete (h : e.breakers.shelf.IsBounded) (a : Admission) (i : Invocation)
    (ending : Ending) (now : Nat) :
    e.breakers.Goes [] (e.complete a i ending now).2.1.breakers ∧
      (e.complete a i ending now).2.1.limiters = e.limiters := by
  have hrecord := goes_record h ending now (a.held.map (·.1))
  obtain ⟨breakers, hsame⟩ := e.exists_complete a i ending now
  refine ⟨?_, by rw [hsame]⟩
  rw [engine_complete]
  exact hrecord.trans (BreakerRegistry.goes_giveBack hrecord.isBounded _)

/-- A change of policy drops what is registered or leaves it alone. -/
theorem eq_or_recycle_of_apply {c : StoreChange} {e' : Engine} (h : e.apply c = .ok e') :
    ∃ store, e' = { e with store } ∨ e' = (recycle { e with store } store.current).2 := by
  unfold apply at h
  cases hchange : e.store.apply c with
  | error error =>
    rw [hchange] at h
    exact nomatch h
  | ok store =>
    rw [hchange] at h
    refine ⟨store, ?_⟩
    rw [← Except.ok.inj h]
    split
    · exact .inr rfl
    · exact .inl rfl

end Engine

/-! ## Sessions -/

namespace Event

/-- What is asked of breakers at an event. -/
def breaksAsked : Event → List (BreakTarget × UInt64)
  | .ask i _ => Engine.breaksAsked i
  | _ => []

/-- What is asked of limiters at an event. -/
def limitsAsked : Event → List (LimitTarget × UInt64)
  | .ask i _ => Engine.limitsAsked i
  | _ => []

end Event

/-- Whether no two resources that are asked for at events have one key. -/
structure KeysDiffer (events : List Event) : Prop where
  breakers : ∀ q ∈ events.flatMap Event.breaksAsked, ∀ q' ∈ events.flatMap Event.breaksAsked,
    q.1.uri = q'.1.uri → q.1 = q'.1
  limiters : ∀ q ∈ events.flatMap Event.limitsAsked, ∀ q' ∈ events.flatMap Event.limitsAsked,
    q.1.key = q'.1.key → q.1 = q'.1

namespace Session

/-- The look-ups of breakers at an event. -/
def breakerLookups (s : Session) : Event → List (Lookup BreakTarget)
  | .ask i _ => s.engine.breakerLookups i s.now
  | _ => []

/-- The look-ups of limiters at an event. -/
def limiterLookups (s : Session) : Event → List (Lookup LimitTarget)
  | .ask i _ => s.engine.limiterLookups i s.now
  | _ => []

/-- All that is observed at events, in order. -/
def trace {α : Type} (observe : Session → Event → List α) (s : Session) : List Event → List α
  | [] => []
  | event :: events => observe s event ++ (s.step event).trace observe events

theorem sublist_trace {ρ : Type} {observe : Session → Event → List (Lookup ρ)}
    {asked : Event → List (ρ × UInt64)}
    (h : ∀ s event, List.Sublist ((observe s event).map Lookup.asked) (asked event)) (s : Session)
    (events : List Event) :
    List.Sublist ((s.trace observe events).map Lookup.asked) (events.flatMap asked) := by
  induction events generalizing s with
  | nil => exact .slnil
  | cons event events ih =>
    rw [trace, List.map_append, List.flatMap_cons]
    exact (h s event).append (ih (s.step event))

theorem sublist_breakerLookups (s : Session) (event : Event) :
    List.Sublist ((s.breakerLookups event).map Lookup.asked) event.breaksAsked := by
  cases event with
  | ask i pacing => exact s.engine.sublist_breakerLookups i s.now
  | _ => exact .slnil

theorem sublist_limiterLookups (s : Session) (event : Event) :
    List.Sublist ((s.limiterLookups event).map Lookup.asked) event.limitsAsked := by
  cases event with
  | ask i pacing => exact s.engine.sublist_limiterLookups i s.now
  | _ => exact .slnil

/-- Whether all that is registered is there. -/
structure IsBounded (s : Session) : Prop where
  breakers : s.engine.breakers.shelf.IsBounded
  limiters : s.engine.limiters.shelf.IsBounded

variable {s : Session}

theorem isBounded_start (settings : Settings) (context : Context) (snapshot : Snapshot)
    (balancing : Balancing) (now : Nat) :
    (start settings context snapshot balancing now).IsBounded where
  breakers _ _ h := nomatch h
  limiters _ _ h := nomatch h

/-- What is registered changes at an event by its look-ups only, or is dropped. -/
theorem goes_step (h : s.IsBounded) (event : Event) :
    s.engine.breakers.Goes (s.breakerLookups event) (s.step event).engine.breakers ∧
      s.engine.limiters.Goes (s.limiterLookups event) (s.step event).engine.limiters := by
  have hbreakers : s.engine.breakers.Goes [] s.engine.breakers := .refl h.breakers
  have hlimiters : s.engine.limiters.Goes [] s.engine.limiters := .refl h.limiters
  cases event with
  | ask i pacing =>
    have hadmission := Engine.goes_admission h.breakers h.limiters i pacing s.now
    simp only [step]
    rcases hresult : s.engine.admission i pacing s.now with ⟨a | _ | _, now, e, i'⟩ <;>
      rwa [hresult] at hadmission
  | complete number ending =>
    simp only [step]
    cases s.call? number with
    | none => exact ⟨hbreakers, hlimiters⟩
    | some c =>
      obtain ⟨hgoes, hsame⟩ :=
        Engine.goes_complete h.breakers c.admission c.invocation ending s.now
      exact ⟨hgoes, by rw [hsame]; exact hlimiters⟩
  | drop number =>
    simp only [step]
    cases s.call? number with
    | none => exact ⟨hbreakers, hlimiters⟩
    | some c => exact ⟨BreakerRegistry.goes_giveBack h.breakers _, hlimiters⟩
  | change c =>
    simp only [step]
    cases hchange : s.engine.apply c with
    | error error => exact ⟨hbreakers, hlimiters⟩
    | ok e =>
      obtain ⟨store, rfl | rfl⟩ := Engine.eq_or_recycle_of_apply hchange
      · exact ⟨hbreakers, hlimiters⟩
      · exact ⟨BreakerRegistry.goes_recycle h.breakers _,
          LimiterRegistry.goes_recycle h.limiters _⟩
  | recycle snapshot =>
    exact ⟨BreakerRegistry.goes_recycle h.breakers _, LimiterRegistry.goes_recycle h.limiters _⟩
  | listen l => exact ⟨hbreakers, hlimiters⟩
  | advance micros => exact ⟨hbreakers, hlimiters⟩

/-- What is registered changes in a run by its look-ups only, or is dropped. -/
theorem goes_run (h : s.IsBounded) (events : List Event) :
    s.engine.breakers.Goes (s.trace breakerLookups events) (s.run events).engine.breakers ∧
      s.engine.limiters.Goes (s.trace limiterLookups events) (s.run events).engine.limiters := by
  induction events generalizing s with
  | nil => exact ⟨.refl h.breakers, .refl h.limiters⟩
  | cons event events ih =>
    obtain ⟨hbreakers, hlimiters⟩ := goes_step h event
    obtain ⟨hbreakers', hlimiters'⟩ := ih ⟨hbreakers.isBounded, hlimiters.isBounded⟩
    exact ⟨hbreakers.trans hbreakers', hlimiters.trans hlimiters'⟩

/-- What is registered after a run, and the look-ups of the run, have to do with each other. -/
theorem records_run (settings : Settings) (context : Context) (snapshot : Snapshot)
    (balancing : Balancing) (now : Nat) (events : List Event) :
    let s := start settings context snapshot balancing now
    Roster.Records BreakTarget.uri (s.trace breakerLookups events)
        (s.run events).engine.breakers.roster ∧
      Roster.Records LimitTarget.key (s.trace limiterLookups events)
        (s.run events).engine.limiters.roster := by
  obtain ⟨hbreakers, hlimiters⟩ :=
    goes_run (isBounded_start settings context snapshot balancing now) events
  exact ⟨Roster.records_run hbreakers.run, Roster.records_run hlimiters.run⟩

end Session

end TrafficControl
