import TrafficControl.Proofs.Engine.Faults
import TrafficControl.Proofs.Engine.Listeners
import TrafficControl.Proofs.Engine.Permits

/-!
# The end of a call is heard once

A call may be told several times how it ended : by the completion of each admission that it was
given, and directly. A `Watched` call goes on by whatever happens to it and in its engine, and keeps
what it was told. The first ending that gets through is heard by all its listeners, in order and
whichever of them fail, and no other ending is heard at all (`Watched.hears_step`). Only a listener
of a breaker can keep an ending from getting through, by failing while the breakers are told.

The breakers know nothing of that. Every completion tells those whose permits its admission holds,
up to the first whose listener fails, and gives the permits back (`Watched.isToldToBreakers_step`),
also if the call has heard an ending before.
-/

namespace TrafficControl

/-! ## Endings of a call -/

/-- Something that happens to a call, or meanwhile in its engine. -/
inductive CallEvent where
  | engine (event : Event)
  /-- An endpoint is looked for. -/
  | route (draw : Nat)
  /-- The call is checked where it was received. -/
  | inbound
  /-- The call asks for admission. -/
  | ask (pacing : Pacing)
  /-- The admission that was given a number is completed with the call. -/
  | complete (number : Nat) (ending : Ending)
  /-- The call is told how it ended. -/
  | finish (ending : Ending)

/-- What came of telling a call how it ended. -/
structure Telling where
  ending : Ending
  /-- Whether the breakers were told without a failure of one of their listeners. -/
  whole : Bool := true
  /-- What the listeners of the call heard. -/
  notices : List Notice

/-- A call with the engine that it is in, and what it was told. -/
structure Watched where
  session : Session
  call : Invocation
  tellings : List Telling := []

namespace Watched

/-- The call after an event. -/
def step (w : Watched) : CallEvent → Watched
  | .engine event => { w with session := w.session.step event }
  | .route draw =>
    let (_, engine, call) := w.session.engine.route w.call w.session.now draw
    { w with session := { w.session with engine }, call }
  | .inbound => { w with call := (Engine.inbound w.call).2 }
  | .ask pacing =>
    let (_, _, _, call) := w.session.engine.admission w.call pacing w.session.now
    { w with session := w.session.step (.ask w.call pacing), call }
  | .complete number ending =>
    match w.session.call? number with
    | none => w
    | some c =>
      let s := w.session
      let (notices, engine, call) := s.engine.complete c.admission w.call ending s.now
      let whole := (s.engine.record ending s.now (c.admission.held.map (·.1))).1
      { session := { s.step (.complete number ending) with engine }, call
        tellings := w.tellings ++ [{ ending, whole, notices }] }
  | .finish ending =>
    let (notices, call) := w.call.finish ending
    { w with call, tellings := w.tellings ++ [{ ending, notices }] }

/-- The call after events. -/
def run (w : Watched) (events : List CallEvent) : Watched := events.foldl step w

end Watched

/-! ## What listeners hear -/

/-- Whether listeners hear of an ending, each once and in the order in which they were added,
whichever of them fail at it. -/
structure HeardByAll (listeners : List RequestListener) (ending : Ending) (notices : List Notice) :
    Prop where
  inOrder : notices.map (·.listener) = List.range listeners.length
  sameEnding : ∀ m ∈ notices, m.ending = ending
  failed : ∀ m ∈ notices, ∀ l, listeners[m.listener]? = some l → m.failed = l.fails ending

/-- A call that was not told an ending before lets all its listeners hear it. -/
theorem Invocation.heardByAll_finish {i : Invocation} (h : i.isFinished = false) (e : Ending) :
    HeardByAll i.listeners e (i.finish e).1 := by
  have hnotices : (i.finish e).1 =
      i.listeners.zipIdx.map fun q => ⟨q.2, e, q.1.fails e⟩ := by
    simp [finish, h]
  rw [hnotices]
  refine ⟨?_, ?_, ?_⟩
  · simp [List.map_map, Function.comp_def, List.range_eq_range']
  · intro m hm
    obtain ⟨q, -, rfl⟩ := List.mem_map.1 hm
    rfl
  · intro m hm l hl
    obtain ⟨⟨l', n⟩, hq, rfl⟩ := List.mem_map.1 hm
    have hl' : i.listeners[n]? = some l' := by simpa [List.mem_zipIdx_iff_getElem?] using hq
    obtain rfl : l' = l := Option.some.inj (hl'.symm.trans hl)
    rfl

theorem Invocation.finish_of_isFinished {i : Invocation} (h : i.isFinished = true) (e : Ending) :
    i.finish e = ([], i) := by
  simp [finish, h]

theorem Invocation.finish_snd (i : Invocation) (e : Ending) :
    (i.finish e).2.listeners = i.listeners ∧ (i.finish e).2.isFinished = true := by
  unfold finish
  split
  · next h => exact ⟨rfl, h⟩
  · exact ⟨rfl, rfl⟩

/-- Whether the listeners heard what they should of the tellings so far, of which some got through
if the call is finished. -/
inductive HeardOnce (listeners : List RequestListener) : Bool → List Telling → Prop where
  | nothing {tellings : List Telling}
      (lost : ∀ t ∈ tellings, t.whole = false ∧ t.notices = []) : HeardOnce listeners false tellings
  | first {before after : List Telling} {t : Telling}
      (lost : ∀ u ∈ before, u.whole = false ∧ u.notices = []) (whole : t.whole = true)
      (heard : HeardByAll listeners t.ending t.notices) (late : ∀ u ∈ after, u.notices = []) :
      HeardOnce listeners true (before ++ t :: after)

namespace HeardOnce

variable {listeners : List RequestListener} {finished : Bool} {tellings : List Telling}
  {t : Telling}

/-- An ending that does not get through is not heard. -/
theorem append_lost (h : HeardOnce listeners finished tellings) (hwhole : t.whole = false)
    (hnotices : t.notices = []) : HeardOnce listeners finished (tellings ++ [t]) := by
  cases h with
  | nothing lost =>
    exact .nothing (List.forall_mem_append.2 ⟨lost, List.forall_mem_singleton.2 ⟨hwhole, hnotices⟩⟩)
  | first lost whole heard late =>
    rw [List.append_assoc, List.cons_append]
    exact .first lost whole heard
      (List.forall_mem_append.2 ⟨late, List.forall_mem_singleton.2 hnotices⟩)

/-- An ending that gets through is heard if it is the first that does. -/
theorem append_whole {i : Invocation} (h : HeardOnce listeners i.isFinished tellings)
    (hlisteners : i.listeners = listeners) (hwhole : t.whole = true)
    (hnotices : t.notices = (i.finish t.ending).1) : HeardOnce listeners true (tellings ++ [t]) := by
  generalize hfinished : i.isFinished = finished at h
  cases h with
  | nothing lost =>
    have hheard := Invocation.heardByAll_finish hfinished t.ending
    rw [hlisteners, ← hnotices] at hheard
    exact .first lost hwhole hheard (by simp)
  | first lost whole heard late =>
    rw [Invocation.finish_of_isFinished hfinished] at hnotices
    rw [List.append_assoc, List.cons_append]
    exact .first lost whole heard
      (List.forall_mem_append.2 ⟨late, List.forall_mem_singleton.2 hnotices⟩)

/-- If the first ending gets through, it is the one that is heard. -/
theorem of_whole {later : List Telling} (h : HeardOnce listeners finished (t :: later))
    (hwhole : t.whole = true) :
    HeardByAll listeners t.ending t.notices ∧ ∀ u ∈ later, u.notices = [] := by
  generalize htellings : t :: later = tellings at h
  cases h with
  | nothing lost =>
    have hlost := lost t (htellings ▸ List.mem_cons_self)
    exact Bool.noConfusion (hlost.1.symm.trans hwhole)
  | @first before after t' lost whole heard late =>
    cases before with
    | nil =>
      obtain ⟨rfl, rfl⟩ := List.cons.inj htellings
      exact ⟨heard, late⟩
    | cons u before =>
      obtain ⟨rfl, -⟩ := List.cons.inj htellings
      have hlost := lost t List.mem_cons_self
      exact Bool.noConfusion (hlost.1.symm.trans hwhole)

end HeardOnce

/-- A decision about a call leaves alone who listens and whether they heard the end. -/
theorem Invocation.Settles.hearing {P : Fault → Prop} {i i' : Invocation} {fault : Option Fault}
    (h : i.Settles P fault i') : i'.listeners = i.listeners ∧ i'.isFinished = i.isFinished := by
  cases h <;> exact ⟨rfl, rfl⟩

namespace Watched

/-- Whether the listeners that a call had heard what they should. -/
structure Hears (listeners : List RequestListener) (w : Watched) : Prop where
  sameListeners : w.call.listeners = listeners
  heard : HeardOnce listeners w.call.isFinished w.tellings

variable {listeners : List RequestListener} {w : Watched}

theorem Hears.of_settles {P : Fault → Prop} {i : Invocation} {fault : Option Fault}
    (h : w.Hears listeners) (hsettles : w.call.Settles P fault i) (s : Session) :
    Hears listeners { w with session := s, call := i } := by
  obtain ⟨hsame, hfinished⟩ := hsettles.hearing
  exact ⟨hsame.trans h.sameListeners, hfinished ▸ h.heard⟩

/-- Whatever happens, the listeners of a call hear what they should. -/
theorem hears_step (h : w.Hears listeners) (event : CallEvent) :
    (w.step event).Hears listeners := by
  cases event with
  | engine event => exact ⟨h.sameListeners, h.heard⟩
  | route draw => exact h.of_settles (w.session.engine.settles_route w.call w.session.now draw) _
  | inbound => exact h.of_settles (Engine.settles_inbound w.call) w.session
  | ask pacing =>
    exact h.of_settles (w.session.engine.settles_admission w.call pacing w.session.now) _
  | complete number ending =>
    simp only [step]
    cases w.session.call? number with
    | none => exact h
    | some c =>
      obtain ⟨hlisteners, hfinished⟩ := w.call.finish_snd ending
      simp only [Engine.complete]
      split
      · next hwhole =>
        refine ⟨hlisteners.trans h.sameListeners, ?_⟩
        rw [hfinished]
        exact h.heard.append_whole h.sameListeners hwhole rfl
      · next hwhole =>
        exact ⟨h.sameListeners, h.heard.append_lost (by simpa using hwhole) rfl⟩
  | finish ending =>
    obtain ⟨hlisteners, hfinished⟩ := w.call.finish_snd ending
    refine ⟨hlisteners.trans h.sameListeners, ?_⟩
    rw [step, hfinished]
    exact h.heard.append_whole h.sameListeners rfl rfl

theorem hears_run (h : w.Hears listeners) (events : List CallEvent) :
    (w.run events).Hears listeners := by
  induction events generalizing w with
  | nil => exact h
  | cons event events ih => exact ih (hears_step h event)

end Watched

/-! ## What breakers are told -/

/-- What becomes of a breaker with the end of a call that holds permits of it. It is told the outcome
once for each of those by which it is told at all, and all of them are given back. -/
def Breaker.ended (b : Breaker) (ending : Ending) (now : Nat) (told held : List Permit) : Breaker :=
  held.foldl releasePermit
    (told.foldl (fun b _ => (b.complete ending.micros ending.cause? now).2) b)

namespace Engine

variable {e : Engine}

theorem breakers_route (e : Engine) (i : Invocation) (now draw : Nat) :
    (e.route i now draw).2.1.breakers = e.breakers := by
  unfold route
  dsimp only
  split <;> rfl

theorem breaker?_abandon (e : Engine) (a : Admission) (n : Nat) :
    (e.abandon a).breakers.breaker? n =
      (e.breakers.breaker? n).map ((permitsOf n a.held).foldl Breaker.releasePermit) := by
  obtain ⟨held⟩ := a
  induction held generalizing e with
  | nil => exact Option.map_id'.symm
  | cons q held ih =>
    obtain ⟨m, p⟩ := q
    have hcons : e.abandon ⟨(m, p) :: held⟩ =
        { e with breakers := e.breakers.releasePermit m p }.abandon ⟨held⟩ := rfl
    rw [hcons, ih, BreakerRegistry.breaker?_releasePermit, map_foldl_permitsOf_cons]

/-- Of breakers that are told of an ending, those up to the first whose listener fails are told. -/
theorem exists_told_record (e : Engine) (ending : Ending) (now : Nat)
    (held : List (Nat × Permit)) : ∃ told, told <+: held ∧
      ((e.record ending now (held.map (·.1))).1 = true → told = held) ∧
      ∀ n, (e.record ending now (held.map (·.1))).2.breakers.breaker? n =
        (e.breakers.breaker? n).map fun b => b.ended ending now (permitsOf n told) [] := by
  let tell (b : Breaker) (_ : Permit) := (b.complete ending.micros ending.cause? now).2
  induction held generalizing e with
  | nil => exact ⟨[], List.prefix_refl _, fun _ => rfl, fun n => Option.map_id'.symm⟩
  | cons q held ih =>
    obtain ⟨m, p⟩ := q
    have hfirst := fun n => e.breakers.breaker?_complete m n ending.micros ending.cause? now
    rw [List.map_cons, record_eq]
    rcases hresult : e.breakers.complete m ending.micros ending.cause? now with ⟨_ | _, r⟩ <;>
      rw [hresult] at hfirst
    · refine ⟨[(m, p)], ⟨held, rfl⟩, fun h => absurd h Bool.false_ne_true, fun n => ?_⟩
      exact (hfirst n).trans ((map_foldl_permitsOf_cons tell _ p []).trans Option.map_id').symm
    · obtain ⟨told, hprefix, hwhole, htold⟩ := ih { e with breakers := r }
      refine ⟨(m, p) :: told, (List.prefix_cons_inj _).2 hprefix,
        fun h => congrArg _ (hwhole h), fun n => ?_⟩
      rw [htold n, hfirst n]
      exact (map_foldl_permitsOf_cons tell _ p told).symm

end Engine

namespace Watched

variable {w : Watched}

/-- The engine after a completion does not depend on the call that hears of it. -/
theorem session_complete (w : Watched) {number : Nat} {c : LiveCall}
    (h : w.session.call? number = some c) (ending : Ending) :
    (w.step (.complete number ending)).session = w.session.step (.complete number ending) := by
  simp only [step, Session.step, h, Engine.engine_complete]

/-- For the breakers a call goes on by an event of the engine, or not at all. -/
theorem session_step (w : Watched) (event : CallEvent) :
    (∃ e, (w.step event).session = w.session.step e ∧
        ∀ l, e = .listen l → event = .engine (.listen l)) ∨
      ∃ engine, (w.step event).session = { w.session with engine } ∧
        engine.breakers = w.session.engine.breakers := by
  cases event with
  | engine e =>
    refine .inl ⟨e, rfl, fun l hl => ?_⟩
    rw [hl]
  | route draw => exact .inr ⟨_, rfl, w.session.engine.breakers_route w.call w.session.now draw⟩
  | inbound => exact .inr ⟨_, rfl, rfl⟩
  | ask pacing => exact .inl ⟨.ask w.call pacing, rfl, by simp⟩
  | complete number ending =>
    cases hcall : w.session.call? number with
    | none => exact .inr ⟨w.session.engine, by simp only [step, hcall], rfl⟩
    | some c => exact .inl ⟨.complete number ending, w.session_complete hcall ending, by simp⟩
  | finish ending => exact .inr ⟨_, rfl, rfl⟩

/-- Whether permits that are out are of breakers that were made. -/
def HoldsKnown (w : Watched) : Prop := w.session.ledger.Satisfies fun _ _ _ => True

theorem holdsKnown_step (h : w.HoldsKnown) (event : CallEvent) : (w.step event).HoldsKnown := by
  have htrivial : Breaker.Invariant fun _ _ _ => True := by constructor <;> intros <;> trivial
  unfold HoldsKnown at h ⊢
  rcases w.session_step event with ⟨e, hstep, -⟩ | ⟨engine, hstep, hsame⟩
  · rw [hstep]
    exact h.steps htrivial (w.session.steps_step e)
  · have hledger : (w.step event).session.ledger = w.session.ledger := by
      rw [hstep, Session.ledger, hsame]
      rfl
    rwa [hledger]

theorem holdsKnown_run (h : w.HoldsKnown) (events : List CallEvent) :
    (w.run events).HoldsKnown := by
  induction events generalizing w with
  | nil => exact h
  | cons event events ih => exact ih (holdsKnown_step h event)

/-- Whether the completion of an admission is a telling, in which the breakers are told whose permits
the admission holds. -/
structure IsToldToBreakers (w : Watched) (c : LiveCall) (ending : Ending) (w' : Watched) : Prop where
  /-- The breakers are there. -/
  known : ∀ q ∈ c.admission.held, (w.session.breaker? q.1).isSome
  /-- They are told the outcome, and get the permits back. Unless the ending is lost they are all
  told. Other breakers stay as they are. -/
  told : ∃ t told, w'.tellings = w.tellings ++ [t] ∧ t.ending = ending ∧
    told <+: c.admission.held ∧ (t.whole = true → told = c.admission.held) ∧
    ∀ n, w'.session.breaker? n = (w.session.breaker? n).map fun b =>
      b.ended ending w.session.now (permitsOf n told) (permitsOf n c.admission.held)

theorem isToldToBreakers_step (h : w.HoldsKnown) {number : Nat} {c : LiveCall}
    (hcall : w.session.call? number = some c) (ending : Ending) :
    w.IsToldToBreakers c ending (w.step (.complete number ending)) where
  known q hq := by
    have hout := h.out q (List.mem_flatMap.2 ⟨c, List.mem_of_find?_eq_some hcall, hq⟩)
    have hlt : q.1 < w.session.engine.breakers.breakers.length := by
      simpa [Session.ledger, BreakerRegistry.ledger, BreakerRegistry.all] using hout
    simp [Session.breaker?, BreakerRegistry.breaker?, hlt]
  told := by
    obtain ⟨told, hprefix, hwhole, htold⟩ :=
      w.session.engine.exists_told_record ending w.session.now c.admission.held
    simp only [step, hcall]
    refine ⟨_, told, rfl, rfl, hprefix, hwhole, fun n => ?_⟩
    simp only [Session.breaker?, Engine.engine_complete]
    rw [Engine.breaker?_abandon, htold n, Option.map_map]
    rfl

/-- Whether no listener of breakers fails, and every ending got through. -/
structure GetsThrough (w : Watched) : Prop where
  reliable : w.session.engine.breakers.IsReliable
  whole : ∀ t ∈ w.tellings, t.whole = true

theorem getsThrough_step (h : w.GetsThrough) {event : CallEvent}
    (hevent : ∀ l, event = .engine (.listen l) → ∀ k, l.fails k = false) :
    (w.step event).GetsThrough where
  reliable := by
    rcases w.session_step event with ⟨e, hstep, hlisten⟩ | ⟨engine, hstep, hsame⟩
    · rw [hstep]
      exact Session.isReliable_step h.reliable fun l hl => hevent l (hlisten l hl)
    · rw [hstep]
      exact h.reliable.of_listeners (congrArg (·.listeners) hsame)
  whole := by
    cases event with
    | complete number ending =>
      simp only [step]
      cases w.session.call? number with
      | none => exact h.whole
      | some c =>
        exact List.forall_mem_append.2
          ⟨h.whole, List.forall_mem_singleton.2 (Engine.record_of_reliable h.reliable ..)⟩
    | finish ending =>
      exact List.forall_mem_append.2 ⟨h.whole, List.forall_mem_singleton.2 rfl⟩
    | _ => exact h.whole

theorem getsThrough_run (h : w.GetsThrough) {events : List CallEvent}
    (hevents : ∀ l, .engine (.listen l) ∈ events → ∀ k, l.fails k = false) :
    (w.run events).GetsThrough := by
  induction events generalizing w with
  | nil => exact h
  | cons event events ih =>
    have hfirst : ∀ l, event = .engine (.listen l) → ∀ k, l.fails k = false := by
      rintro l rfl
      exact hevents l List.mem_cons_self
    exact ih (getsThrough_step h hfirst) fun l hl => hevents l (List.mem_cons_of_mem _ hl)

/-- Whether the listeners of a call hear just the first ending that it is told, and the breakers
every one. -/
structure HearsFirst (w : Watched) (events : List CallEvent) : Prop where
  /-- The first ending is heard by every listener, and the later ones by none. -/
  first : (∀ l, .engine (.listen l) ∈ events → ∀ k, l.fails k = false) →
    ∀ t later, (w.run events).tellings = t :: later →
      HeardByAll w.call.listeners t.ending t.notices ∧ ∀ u ∈ later, u.notices = []
  /-- An ending that is told is lost only if a listener of a breaker fails. -/
  whole : (∀ l, .engine (.listen l) ∈ events → ∀ k, l.fails k = false) →
    ∀ t ∈ (w.run events).tellings, t.whole = true
  /-- If some are lost, the first one that is not is heard by every listener, and no other one. -/
  heard : HeardOnce w.call.listeners (w.run events).call.isFinished (w.run events).tellings
  /-- The breakers of a completed admission are told its outcome, whatever the call heard before. -/
  reported : ∀ past number ending rest, events = past ++ .complete number ending :: rest →
    ∀ c, (w.run past).session.call? number = some c →
      (w.run past).IsToldToBreakers c ending (w.run (past ++ [.complete number ending]))

/-- However a call is told its end, and whichever of its listeners fail, they hear the first ending
and the breakers all of them. -/
theorem hearsFirst_run (settings : Settings) (context : Context) (snapshot : Snapshot)
    (balancing : Balancing) (now : Nat) {call : Invocation} (h : call.isFinished = false)
    (events : List CallEvent) :
    HearsFirst { session := .start settings context snapshot balancing now, call } events := by
  set w : Watched := { session := .start settings context snapshot balancing now, call }
  have hstart : w.Hears call.listeners := by
    have hopen : w.call.isFinished = false := h
    refine ⟨rfl, ?_⟩
    rw [hopen]
    exact .nothing nofun
  have hheard : HeardOnce call.listeners (w.run events).call.isFinished (w.run events).tellings :=
    (hears_run hstart events).heard
  have hwhole (hreliable : ∀ l, .engine (.listen l) ∈ events → ∀ k, l.fails k = false) :=
    (getsThrough_run (w := w) ⟨nofun, nofun⟩ hreliable).whole
  refine ⟨fun hreliable t later htold => ?_, hwhole, hheard, ?_⟩
  · have hall := hwhole hreliable
    rw [htold] at hheard hall
    exact hheard.of_whole (hall t List.mem_cons_self)
  · intro past number ending rest _ c hcall
    have hknown := holdsKnown_run (w := w) Ledger.satisfies_empty past
    have hrun : w.run (past ++ [.complete number ending]) =
        (w.run past).step (.complete number ending) := by simp [run]
    rw [hrun]
    exact isToldToBreakers_step hknown hcall ending

end Watched

open OneBreaker in
/-- A call is admitted twice, and told three times that it ended. Two of its listeners fail. All
three hear of the success, and none of the failure, which opens the breaker. -/
theorem hearsFirst_twice :
    let fragile : RequestListener := { fails := fun _ => true }
    let watched : Watched := { session, call := { call with listeners := [fragile, {}, fragile] } }
    let events := [.ask .blocking, .ask .blocking, .complete 1 (.success 7),
      .complete 0 (.failure 5 "down"), .finish (.success 9)]
    watched.call.isFinished = false ∧ watched.HearsFirst events ∧
      (watched.run events).tellings.map (·.notices.length) = [3, 0, 0] ∧
      ((watched.run events).session.breaker? 0).map (·.state) = some .opened :=
  ⟨rfl, Watched.hearsFirst_run {} {} _ .roundRobin 0 rfl _, by decide, by decide⟩

end TrafficControl
