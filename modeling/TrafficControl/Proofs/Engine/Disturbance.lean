import TrafficControl.Proofs.Engine.Interruption
import TrafficControl.Proofs.Engine.Lookups

/-!
# Listeners that disturb

What the failures of listeners of breakers disturb is seen by comparing a session with the one whose
listeners never fail (`Session.calmed`). Where nobody is interrupted the two go on alike
(`Session.step_calmed`), and every listener is told every change of the breakers that were made
after it was added (`Session.offers_run`). So nothing is disturbed exactly if nobody is interrupted
(`Session.disturbsNothing_iff`) : the failure of a listener is never without effect.
-/

namespace TrafficControl

/-! ## What callers get -/

/-- What a caller of the engine gets. -/
inductive CallAnswer where
  /-- The answer to a request for admission, and its instant. -/
  | asked (result : AdmitResult) (now : Nat)
  /-- What the listeners of a completed call heard, and whether no listener of a breaker failed. -/
  | completed (notices : List Notice) (whole : Bool)
deriving DecidableEq

/-- Whether the caller gets the failure of a listener instead of an answer. -/
def CallAnswer.isInterrupted : CallAnswer → Bool
  | asked result _ => result = .interrupted
  | completed _ whole => !whole

/-- The event, if the listener that it may add never failed. -/
def Event.calmed : Event → Event
  | listen l => listen l.calmed
  | event => event

namespace Session

/-- The session with listeners of breakers that never fail. -/
def calmed (s : Session) : Session := { s with engine := s.engine.calmed }

/-- What the caller gets at an event. -/
def callAnswers (s : Session) : Event → List CallAnswer
  | .ask i pacing =>
    let (result, now, _, _) := s.engine.admission i pacing s.now
    [.asked result now]
  | .complete number ending =>
    match s.call? number with
    | none => []
    | some c =>
      let (notices, _, _) := s.engine.complete c.admission c.invocation ending s.now
      [.completed notices (s.engine.record ending s.now (c.admission.held.map (·.1))).1]
  | _ => []

/-- The breakers, with all that they count, after an event. -/
def breakersAfter (s : Session) (event : Event) : List (List Breaker) :=
  [(s.step event).engine.breakers.all]

variable {s : Session} {event : Event}

/-- An event at which nobody is interrupted is answered as if no listener failed. -/
theorem callAnswers_calmed (h : ∀ a ∈ s.callAnswers event, a.isInterrupted = false) :
    s.calmed.callAnswers event.calmed = s.callAnswers event := by
  cases event with
  | ask i pacing =>
    have hresult : (s.engine.admission i pacing s.now).1 ≠ .interrupted := by
      simpa [callAnswers, CallAnswer.isInterrupted] using h
    simp only [callAnswers, Event.calmed, calmed, Engine.admission_calmed hresult]
  | complete number ending =>
    have hcall : s.calmed.call? number = s.call? number := rfl
    simp only [callAnswers, Event.calmed, hcall] at h ⊢
    cases hfound : s.call? number with
    | none => rfl
    | some c =>
      have hwhole : (s.engine.record ending s.now (c.admission.held.map (·.1))).1 = true := by
        simpa [hfound, CallAnswer.isInterrupted] using h
      simp only [calmed, Engine.complete_calmed hwhole, Engine.record_calmed hwhole, hwhole]
  | _ => rfl

/-- A session goes on as if no listener failed, as long as nobody is interrupted. -/
theorem step_calmed (h : ∀ a ∈ s.callAnswers event, a.isInterrupted = false) :
    s.calmed.step event.calmed = (s.step event).calmed := by
  cases event with
  | ask i pacing =>
    have hresult : (s.engine.admission i pacing s.now).1 ≠ .interrupted := by
      simpa [callAnswers, CallAnswer.isInterrupted] using h
    have hadmission := Engine.admission_calmed hresult
    simp only [step, Event.calmed, calmed] at hadmission ⊢
    rw [hadmission]
    rcases s.engine.admission i pacing s.now with ⟨a | f | _, now, e, i'⟩ <;> rfl
  | complete number ending =>
    have hcall : s.calmed.call? number = s.call? number := rfl
    have hbreakers : s.calmed.engine.breakers = s.engine.breakers.calmed := rfl
    simp only [callAnswers] at h
    simp only [step, Event.calmed, hcall]
    cases hfound : s.call? number with
    | none => rfl
    | some c =>
      have hwhole : (s.engine.record ending s.now (c.admission.held.map (·.1))).1 = true := by
        simpa [hfound, CallAnswer.isInterrupted] using h
      have hreports := BreakerRegistry.reports_calmed s.engine rfl hwhole number
      have hcomplete := Engine.complete_calmed (i := c.invocation) hwhole
      simp only [calmed, hcomplete]
      simp only [Engine.calmed, hreports]
      rfl
  | drop number =>
    have hcall : s.calmed.call? number = s.call? number := rfl
    simp only [step, Event.calmed, hcall]
    cases s.call? number with
    | none => rfl
    | some c => simp only [calmed, Engine.abandon_calmed]; rfl
  | change c =>
    simp only [step, Event.calmed, calmed, Engine.apply_calmed]
    cases s.engine.apply c <;> rfl
  | recycle snapshot => rfl
  | listen l =>
    simp only [step, Event.calmed, calmed, Engine.addStateListener, Engine.calmed,
      BreakerRegistry.addListener, BreakerRegistry.calmed, List.map_append, List.map_cons,
      List.map_nil]
  | advance micros => rfl

theorem run_calmed {events : List Event}
    (h : ∀ a ∈ s.trace callAnswers events, a.isInterrupted = false) :
    s.calmed.run (events.map Event.calmed) = (s.run events).calmed := by
  induction events generalizing s with
  | nil => rfl
  | cons event events ih =>
    rw [trace, List.forall_mem_append] at h
    have hstep := step_calmed h.1
    have hrest := ih h.2
    rw [← hstep] at hrest
    exact hrest

/-- What is observed at the events of a session, alike if no listener failed, is so along a run. -/
theorem trace_calmed {α : Type} {observe : Session → Event → List α}
    (hobserve : ∀ (s : Session) (event : Event),
      (∀ a ∈ s.callAnswers event, a.isInterrupted = false) →
        observe s.calmed event.calmed = observe s event)
    {events : List Event} (h : ∀ a ∈ s.trace callAnswers events, a.isInterrupted = false) :
    s.calmed.trace observe (events.map Event.calmed) = s.trace observe events := by
  induction events generalizing s with
  | nil => rfl
  | cons event events ih =>
    rw [trace, List.forall_mem_append] at h
    rw [List.map_cons, trace, trace, hobserve s event h.1, step_calmed h.1, ih h.2]

/-! ## Listeners that do not fail -/

theorem not_isInterrupted_of_reliable (h : s.engine.breakers.IsReliable) (event : Event) :
    ∀ a ∈ s.callAnswers event, a.isInterrupted = false := by
  cases event with
  | ask i pacing =>
    have hresult := Engine.admission_of_reliable h i pacing s.now
    simpa [callAnswers, CallAnswer.isInterrupted] using hresult
  | complete number ending =>
    simp only [callAnswers]
    cases s.call? number with
    | none => simp
    | some c => simp [CallAnswer.isInterrupted, Engine.record_of_reliable h]
  | _ => simp [callAnswers]

theorem not_isInterrupted_calmed (events : List Event) (h : s.engine.breakers.IsReliable) :
    ∀ a ∈ s.trace callAnswers (events.map Event.calmed), a.isInterrupted = false := by
  induction events generalizing s with
  | nil => simp [trace]
  | cons event events ih =>
    have hcalm : ∀ l, event.calmed = .listen l → ∀ k, l.fails k = false := by
      intro l hl k
      cases event with
      | listen l' =>
        obtain rfl := Event.listen.inj hl
        rfl
      | _ => simp [Event.calmed] at hl
    rw [List.map_cons, trace, List.forall_mem_append]
    exact ⟨not_isInterrupted_of_reliable h event.calmed, ih (isReliable_step h hcalm)⟩

/-! ## What listeners are told -/

/-- The changes that breakers make at an event, with the numbers of the breakers. -/
def changes (s : Session) : Event → List (Nat × StateChange)
  | .ask i _ => s.engine.changesAsked i s.now (s.engine.guardsAsked i)
  | .complete number ending =>
    match s.call? number with
    | none => []
    | some c => s.engine.changesRecorded ending s.now (c.admission.held.map (·.1))
  | _ => []

variable {s : Session}

/-- Where nobody is interrupted, listeners are told all changes. -/
theorem offers_step {event : Event} (h : ∀ a ∈ s.callAnswers event, a.isInterrupted = false) :
    s.engine.breakers.Offers (s.changes event) (s.step event).engine.breakers := by
  cases event with
  | ask i pacing =>
    have hresult : (s.engine.admission i pacing s.now).1 ≠ .interrupted := by
      simpa [callAnswers, CallAnswer.isInterrupted] using h
    have hadmission := Engine.offers_admission hresult
    simp only [step, changes]
    rcases hanswer : s.engine.admission i pacing s.now with ⟨a | f | _, now, e, i'⟩ <;>
      rwa [hanswer] at hadmission
  | complete number ending =>
    simp only [callAnswers] at h
    simp only [step, changes]
    cases hfound : s.call? number with
    | none => exact .refl _
    | some c =>
      have hwhole : (s.engine.record ending s.now (c.admission.held.map (·.1))).1 = true := by
        simpa [hfound, CallAnswer.isInterrupted] using h
      have hback := Engine.offers_abandon
        (s.engine.record ending s.now (c.admission.held.map (·.1))).2 c.admission
      have hcomplete := (Engine.offers_record hwhole).trans hback
      rwa [List.append_nil, ← Engine.engine_complete _ _ c.invocation] at hcomplete
  | drop number =>
    simp only [step, changes]
    cases s.call? number with
    | none => exact .refl _
    | some c => exact s.engine.offers_abandon c.admission
  | change c =>
    have hsame : ∀ e, s.engine.apply c = .ok e →
        e.breakers.breakers = s.engine.breakers.breakers ∧
          e.breakers.deliveries = s.engine.breakers.deliveries := by
      intro e happly
      unfold Engine.apply at happly
      split at happly
      · cases happly
      · obtain rfl := Except.ok.inj happly
        split <;> exact ⟨rfl, rfl⟩
    simp only [step, changes]
    split
    · next e happly =>
      obtain ⟨hbreakers, hdeliveries⟩ := hsame e happly
      exact .of_same hbreakers hdeliveries
    · exact .refl _
  | recycle snapshot => exact .of_same rfl rfl
  | listen l => exact .of_same rfl rfl
  | advance micros => exact .refl _

theorem offers_run {events : List Event}
    (h : ∀ a ∈ s.trace callAnswers events, a.isInterrupted = false) :
    s.engine.breakers.Offers (s.trace changes events) (s.run events).engine.breakers := by
  induction events generalizing s with
  | nil => exact .refl _
  | cons event events ih =>
    rw [trace, List.forall_mem_append] at h
    exact (offers_step h.1).trans (ih h.2)

/-! ## Disturbance -/

/-- Whether the failures of listeners of breakers disturb nothing in a run. -/
structure DisturbsNothing (s : Session) (events : List Event) : Prop where
  /-- Every listener is told every change of every breaker made after it was added, in order. -/
  offered : ∀ l, (s.run events).engine.breakers.changesTold l =
    ((s.trace changes events).filter fun q =>
      l < (s.run events).engine.breakers.watchers q.1).map (·.2)
  /-- Every request for admission and every completion comes to the same as without failures. -/
  answers : s.trace callAnswers events = s.calmed.trace callAnswers (events.map Event.calmed)
  /-- So do the breakers after every event, with all that they count. -/
  breakers : s.trace breakersAfter events = s.calmed.trace breakersAfter (events.map Event.calmed)

/-- Listeners disturb nothing exactly if no call is interrupted by the failure of one. -/
theorem disturbsNothing_iff (settings : Settings) (context : Context) (snapshot : Snapshot)
    (balancing : Balancing) (now : Nat) (events : List Event) :
    (start settings context snapshot balancing now).DisturbsNothing events ↔
      ∀ a ∈ (start settings context snapshot balancing now).trace callAnswers events,
        a.isInterrupted = false := by
  set s := start settings context snapshot balancing now
  constructor
  · intro h
    rw [h.answers]
    exact not_isInterrupted_calmed events s.engine.breakers.isReliable_calmed
  · intro h
    have hbreakers (s : Session) (event : Event)
        (h : ∀ a ∈ s.callAnswers event, a.isInterrupted = false) :
        s.calmed.breakersAfter event.calmed = s.breakersAfter event := by
      rw [breakersAfter, step_calmed h]
      rfl
    exact
      { offered := (offers_run h).told
        answers := (trace_calmed (fun _ _ => callAnswers_calmed) h).symm
        breakers := (trace_calmed hbreakers h).symm }

end Session

/-! ## Two breakers -/

namespace TwoBreakers

/-- A service with two breakers, which open at the first failed call. -/
def service : Service where
  name := "orders"
  bundle := some
    { breaks := [{ name := "first", minimumCalls := 1 }, { name := "second", minimumCalls := 1 }] }

def session : Session := .start {} {} (.ofDocument { services := [service] }) .roundRobin 0

/-- A call fails, and so does the only listener, at the first change that it hears. -/
def failing : List Event :=
  [.listen { fails := fun _ => true },
    .ask (session.engine.invocation { service := "orders" } []) .blocking,
    .complete 0 (.failure 5 "down")]

end TwoBreakers

open TwoBreakers in
/-- The first breaker opens. Its listener fails, so the second is not told of the failed call and
stays closed. Without failures it would have opened too. -/
theorem not_disturbsNothing :
    (session.run failing).engine.breakers.all.map (·.state) = [.opened, .closed] ∧
      (session.calmed.run (failing.map Event.calmed)).engine.breakers.all.map (·.state) =
        [.opened, .opened] ∧
      ¬session.DisturbsNothing failing := by
  refine ⟨by decide, by decide, fun h => ?_⟩
  have hanswers := h.answers
  exact absurd hanswers (by decide)

end TrafficControl
