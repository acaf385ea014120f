import TrafficControl.Proofs.Engine.Matching

/-!
# Silence

What the calls of one part of the breakers and limiters are answered is set beside the same run in
which all other calls are governed by nothing (`Session.silenced`). If keys tell the two kinds of
calls apart, the answers are the same (`Session.Matches.trace_eq`) : both sessions match on the keys
that the first kind asks for (`Session.Matches`), whatever the second kind does in one of them.
-/

namespace TrafficControl

/-! ## Calls that are governed by nothing -/

/-- The call of a service that has no policy. -/
def Invocation.ungoverned (i : Invocation) : Invocation :=
  { i with service := { i.service with service := none } }

namespace Engine

theorem guarded_ungoverned (i : Invocation) : guarded i.ungoverned = [] := by
  have hbreaks : ∀ level, i.ungoverned.breaksAt level = [] := fun level => rfl
  unfold guarded
  rw [hbreaks, hbreaks]
  split <;> rfl

theorem limits_ungoverned (i : Invocation) : limits i.ungoverned = [] := rfl

theorem admission_ungoverned (e : Engine) (i : Invocation) (pacing : Pacing) (now : Nat) :
    e.admission i.ungoverned pacing now = (.admitted {}, now, e, i.ungoverned) := by
  have hguards : guards i.ungoverned = [] := by rw [guards_eq, guarded_ungoverned, List.map_nil]
  unfold admission
  rw [hguards, ite_self]
  dsimp only [breakerPermits]
  rw [limits_ungoverned, ite_self]
  rfl

/-- An answer is not given before it was asked for. -/
theorem le_limiterPermits (e : Engine) (pacing : Pacing) (now : Nat) (found : List (Nat × Int)) :
    now ≤ (e.limiterPermits pacing now found).2.1 := by
  induction found generalizing e now with
  | nil => exact Nat.le_refl now
  | cons q found ih =>
    obtain ⟨n, timeout⟩ := q
    rw [limiterPermits_cons]
    cases e.limiters.limiter? n with
    | none => exact ih e now
    | some l =>
      dsimp only
      cases (l.acquire 1 now timeout).1 with
      | none => exact Nat.le_refl now
      | some wait => exact Nat.le_trans (Nat.le_add_right ..) (ih _ _)

theorem le_admission (e : Engine) (i : Invocation) (pacing : Pacing) (now : Nat) :
    now ≤ (e.admission i pacing now).2.1 := by
  unfold admission
  dsimp only
  rcases e.breakerPermits i now {} _ with ⟨a | f | _, e₁, i₁⟩
  · dsimp only
    generalize e₁.limitersFor i₁.service.name now _ = found
    have hlater := found.2.le_limiterPermits pacing now found.1
    generalize found.2.limiterPermits pacing now found.1 = limited at hlater ⊢
    obtain ⟨_ | _, now₁, e₂⟩ := limited
    · exact hlater
    · exact hlater
  · exact Nat.le_refl now
  · exact Nat.le_refl now

end Engine

/-! ## Answers -/

/-- What a request for admission comes to, as seen from outside : an admitted call holds permits of
breakers, which are in the states given. -/
inductive Reply where
  | admitted (held : List (Option Breaker × Permit))
  | refused (f : Fault)
  | interrupted
deriving DecidableEq

/-- The reply at a result. -/
def Engine.reply (e : Engine) : AdmitResult → Reply
  | .admitted a => .admitted (a.held.map fun q => (e.breakers.breaker? q.1, q.2))
  | .refused f => .refused f
  | .interrupted => .interrupted

/-- A set of breakers and limiters, by what they are for. -/
structure Resources where
  breakers : BreakTarget → Bool
  limiters : LimitTarget → Bool

namespace Resources

/-- Whether all that a call asks for is in the set. -/
def covers (R : Resources) (i : Invocation) : Bool :=
  (Engine.breaksAsked i).all (R.breakers ·.1) && (Engine.limitsAsked i).all (R.limiters ·.1)

/-- Whether nothing that a call asks for is in the set. -/
def spares (R : Resources) (i : Invocation) : Bool :=
  (Engine.breaksAsked i).all (!R.breakers ·.1) && (Engine.limitsAsked i).all (!R.limiters ·.1)

end Resources

namespace Session

/-- The answers to calls that ask for something in a set, each with its instant. -/
def answers (R : Resources) (s : Session) : Event → List (Reply × Nat)
  | .ask i pacing =>
    if R.spares i then []
    else
      let (result, now, engine, _) := s.engine.admission i pacing s.now
      [(engine.reply result, now)]
  | _ => []

/-- What is left of an event if calls that ask for nothing in a set are governed by nothing. They
take no longer, and are under way only if they were admitted. -/
def silenced (R : Resources) (s : Session) : Event → List Event
  | .ask i pacing =>
    if R.spares i then
      match s.engine.admission i pacing s.now with
      | (.admitted _, now, _, _) => [.ask i.ungoverned .blocking, .advance (now - s.now)]
      | (_, now, _, _) => [.advance (now - s.now)]
    else [.ask i pacing]
  | event => [event]

end Session

/-! ## Sessions that match -/

section
variable {K L : String → Prop} {B B' C : Nat → Nat → Prop}

/-- Whether two calls under way have one number, and hold permits of the same breakers, or the first
one of foreign breakers and the second one none. -/
structure LiveCall.Alike (B : Nat → Nat → Prop) (r : BreakerRegistry) (c c' : LiveCall) : Prop where
  number : c'.number = c.number
  held : NumberedAlike B c.admission.held c'.admission.held ∨
    (∀ q ∈ c.admission.held, r.shelf.IsForeign B q.1) ∧ c'.admission.held = []

theorem LiveCall.Alike.grows {r r' : BreakerRegistry} {c c' : LiveCall} (h : c.Alike B r c')
    (hgrows : r.shelf.Grows B r'.shelf B') : c.Alike B' r' c' where
  number := h.number
  held := h.held.imp (·.mono hgrows.keeps) fun hforeign =>
    ⟨fun q hq => (hforeign.1 q hq).grows hgrows, hforeign.2⟩

/-- Whether all that is asked for at an event has keys of the ones given, and no listener fails. -/
def Event.IsWithin (K L : String → Prop) : Event → Prop
  | .ask i _ => (∀ g ∈ Engine.guarded i, K g.1.uri) ∧
      ∀ p ∈ Engine.limits i, L (limiterKey i.service.name p.name)
  | .listen l => ∀ k, l.fails k = false
  | _ => True

namespace Session

/-- Whether two sessions have the same breakers and limiters under the keys given, and the same
calls under way that hold permits of them. -/
structure Matches (K L : String → Prop) (B C : Nat → Nat → Prop) (s s' : Session) : Prop where
  engine : s.engine.Matches K L B C s'.engine
  now : s'.now = s.now
  admitted : s'.admitted = s.admitted
  live : List.Forall₂ (LiveCall.Alike B s.engine.breakers) s.live s'.live

namespace Matches

variable {s s' : Session}

/-- What calls under way hold is still alike after breakers were added. -/
theorem live_grows (h : s.Matches K L B C s') {r : BreakerRegistry}
    (hgrows : s.engine.breakers.shelf.Grows B r.shelf B') :
    List.Forall₂ (LiveCall.Alike B' r) s.live s'.live :=
  h.live.imp fun _ _ hc => hc.grows hgrows

/-- The same call is found under a number. -/
theorem call? (h : s.Matches K L B C s') (number : Nat) :
    Option.Rel (LiveCall.Alike B s.engine.breakers) (s.call? number) (s'.call? number) ∧
      List.Forall₂ (LiveCall.Alike B s.engine.breakers) (s.without number) (s'.without number) := by
  have hlive := h.live
  unfold Session.call? Session.without
  generalize s.live = live, s'.live = live' at hlive
  induction hlive with
  | nil => exact ⟨.none, .nil⟩
  | @cons c c' live live' hc hrest ih =>
    by_cases hnumber : c.number = number
    · have hnumber' : c'.number = number := hc.number.trans hnumber
      simp only [List.find?_cons, List.eraseP_cons, hnumber, hnumber', decide_true]
      exact ⟨.some hc, hrest⟩
    · have hnumber' : c'.number ≠ number := fun heq => hnumber (hc.number.symm.trans heq)
      simp only [List.find?_cons, List.eraseP_cons, hnumber, hnumber', decide_false]
      exact ⟨ih.1, .cons hc ih.2⟩

/-- So it is for the calls that go on when one has ended. -/
theorem without_grows (h : s.Matches K L B C s') {r : BreakerRegistry}
    (hgrows : s.engine.breakers.shelf.Grows B r.shelf B') (number : Nat) :
    List.Forall₂ (LiveCall.Alike B' r) (s.without number) (s'.without number) :=
  (h.call? number).2.imp fun _ _ hc => hc.grows hgrows

/-- The same is done in both sessions. -/
theorem step (h : s.Matches K L B C s') {event : Event} (hevent : event.IsWithin K L) :
    ∃ B' C', (s.step event).Matches K L B' C' (s'.step event) := by
  cases event with
  | ask i pacing =>
    obtain ⟨B', C', hgrows, hmatches, halike, hnow⟩ :=
      h.engine.admission hevent.1 hevent.2 pacing s.now
    refine ⟨B', C', ?_⟩
    simp only [Session.step]
    rw [h.now]
    generalize s.engine.admission i pacing s.now = asked at *
    generalize s'.engine.admission i pacing s.now = asked' at *
    obtain ⟨result, now, e, i₁⟩ := asked
    obtain ⟨result', now', e', i₁'⟩ := asked'
    have hlive := h.live_grows hgrows
    cases halike with
    | admitted hheld =>
      refine ⟨hmatches, hnow, congrArg (· + 1) h.admitted, ?_⟩
      exact List.rel_append hlive (.cons ⟨h.admitted, .inl hheld⟩ .nil)
    | refused f => exact ⟨hmatches, hnow, h.admitted, hlive⟩
  | complete number ending =>
    refine ⟨B, C, ?_⟩
    have hfound := (h.call? number).1
    simp only [Session.step]
    rw [h.now]
    generalize s.call? number = found, s'.call? number = found' at hfound ⊢
    cases hfound with
    | none => exact h
    | @some c c' hc =>
      rcases hc.held with hheld | ⟨hforeign, hnone⟩
      · obtain ⟨hgrows, hmatches⟩ :=
          h.engine.complete hheld c.invocation c'.invocation ending s.now
        exact ⟨hmatches, rfl, h.admitted, h.without_grows hgrows number⟩
      · obtain ⟨hgrows, hmatches⟩ :=
          h.engine.complete_foreign hforeign c.invocation ending s.now
        have hsame : (s'.engine.complete c'.admission c'.invocation ending s.now).2.1 =
            s'.engine := by
          rw [Engine.engine_complete, Engine.abandon, hnone]
          rfl
        dsimp only
        rw [hsame]
        exact ⟨hmatches, rfl, h.admitted, h.without_grows hgrows number⟩
  | drop number =>
    refine ⟨B, C, ?_⟩
    have hfound := (h.call? number).1
    simp only [Session.step]
    generalize s.call? number = found, s'.call? number = found' at hfound ⊢
    cases hfound with
    | none => exact h
    | @some c c' hc =>
      rcases hc.held with hheld | ⟨hforeign, hnone⟩
      · obtain ⟨hgrows, hmatches⟩ := h.engine.abandon hheld
        exact ⟨hmatches, h.now, h.admitted, h.without_grows hgrows number⟩
      · obtain ⟨hgrows, hmatches⟩ := h.engine.abandon_foreign hforeign
        have hsame : s'.engine.abandon c'.admission = s'.engine := by
          rw [Engine.abandon, hnone]
          rfl
        dsimp only
        rw [hsame]
        exact ⟨hmatches, h.now, h.admitted, h.without_grows hgrows number⟩
  | change c =>
    refine ⟨B, C, ?_⟩
    simp only [Session.step]
    rcases h.engine.apply c with ⟨error, he, he'⟩ | ⟨e, e', he, he', hgrows, hmatches⟩
    · rw [he, he']
      exact h
    · rw [he, he']
      exact ⟨hmatches, h.now, h.admitted, h.live_grows hgrows⟩
  | recycle snapshot =>
    obtain ⟨hgrows, hmatches⟩ := h.engine.recycle snapshot
    exact ⟨B, C, hmatches, h.now, h.admitted, h.live_grows hgrows⟩
  | listen l =>
    have hlistens : ∀ {r : BreakerRegistry}, r.IsReliable → (r.addListener l).IsReliable := by
      intro r hr m hm
      rcases List.mem_append.1 hm with hold | hnew
      · exact hr m hold
      · rw [List.mem_singleton.1 hnew]
        exact hevent
    have hbreakers := h.engine.breakers
    exact ⟨B, C, h.engine.withBreakers ⟨hbreakers.shelf, hlistens hbreakers.reliable,
      hlistens hbreakers.reliable'⟩, h.now, h.admitted, h.live_grows (.refl _ B)⟩
  | advance micros => exact ⟨B, C, h.engine, congrArg (· + micros) h.now, h.admitted, h.live⟩

/-- A call is asked for that asks for nothing under the keys given. -/
theorem silence (h : s.Matches K L B C s') {R : Resources} {i : Invocation}
    (hspared : R.spares i) (hbreakers : ∀ g ∈ Engine.guarded i, ¬K g.1.uri)
    (hlimiters : ∀ p ∈ Engine.limits i, ¬L (limiterKey i.service.name p.name)) (pacing : Pacing) :
    (s.step (.ask i pacing)).Matches K L B C (s'.run (s.silenced R (.ask i pacing))) := by
  obtain ⟨hgrows, hmatches, hforeign⟩ :=
    h.engine.admission_foreign hbreakers hlimiters pacing s.now
  have hlater := s.engine.le_admission i pacing s.now
  simp only [Session.step, Session.silenced, hspared, if_true]
  generalize s.engine.admission i pacing s.now = asked at *
  obtain ⟨result, now, e, i₁⟩ := asked
  have hnow : s'.now + (now - s.now) = now := by
    rw [h.now]
    exact Nat.add_sub_of_le hlater
  have hlive := h.live_grows hgrows
  cases result with
  | admitted a =>
    have hidle : s'.step (.ask i.ungoverned .blocking) =
        { s' with admitted := s'.admitted + 1,
                  live := s'.live ++ [⟨s'.admitted, {}, i.ungoverned⟩] } := by
      simp only [Session.step]
      rw [Engine.admission_ungoverned]
    simp only [Session.run, List.foldl_cons, List.foldl_nil, hidle]
    refine ⟨hmatches, hnow, congrArg (· + 1) h.admitted, ?_⟩
    exact List.rel_append hlive (.cons ⟨h.admitted, .inr ⟨hforeign, rfl⟩⟩ .nil)
  | refused f => exact ⟨hmatches, hnow, h.admitted, hlive⟩
  | interrupted => exact ⟨hmatches, hnow, h.admitted, hlive⟩

theorem reply_eq {e e' : Engine} {result result' : AdmitResult} (h : e.Matches K L B C e')
    (halike : result.Alike B result') : e'.reply result' = e.reply result := by
  cases halike with
  | refused f => rfl
  | admitted hheld =>
    refine congrArg Reply.admitted (hheld.map_eq fun {n n'} hn => ?_)
    obtain ⟨b, hb, hb'⟩ := h.breakers.breaker? hn
    rw [hb, hb']

/-- A call that asks for something in the set gets the same answer in both sessions. -/
theorem answers_eq (h : s.Matches K L B C s') {event : Event} (hevent : event.IsWithin K L)
    (R : Resources) : s'.answers R event = s.answers R event := by
  cases event with
  | ask i pacing =>
    obtain ⟨B', C', -, hmatches, halike, hnow⟩ :=
      h.engine.admission hevent.1 hevent.2 pacing s.now
    have hreply := reply_eq hmatches halike
    simp only [answers]
    rw [h.now, hreply, hnow]
  | _ => rfl

end Matches

theorem trace_append {α : Type} (observe : Session → Event → List α) (s : Session)
    (earlier later : List Event) : s.trace observe (earlier ++ later) =
      s.trace observe earlier ++ (s.run earlier).trace observe later := by
  induction earlier generalizing s with
  | nil => rfl
  | cons event earlier ih =>
    rw [List.cons_append, trace, trace, ih, List.append_assoc]
    rfl

theorem spares_ungoverned (R : Resources) (i : Invocation) : R.spares i.ungoverned = true := by
  simp [Resources.spares, Engine.breaksAsked, Engine.limitsAsked, Engine.guarded_ungoverned,
    Engine.limits_ungoverned]

/-- A call that asks for nothing in the set gets no answer that counts, governed or not. -/
theorem answers_silenced (s s' : Session) {R : Resources} {i : Invocation} (h : R.spares i)
    (pacing : Pacing) : s'.trace (answers R) (s.silenced R (.ask i pacing)) = [] := by
  simp only [silenced, h, if_true]
  split <;> simp [trace, answers, spares_ungoverned]

variable {s s' : Session}

/-- Where keys tell calls that ask for something in a set from those that do not, the others can be
left ungoverned. -/
theorem Matches.trace_eq (h : s.Matches K L B C s') {R : Resources} {events : List Event}
    (hspared : ∀ i pacing, .ask i pacing ∈ events → R.spares i →
      (∀ g ∈ Engine.guarded i, ¬K g.1.uri) ∧
        ∀ p ∈ Engine.limits i, ¬L (limiterKey i.service.name p.name))
    (hwithin : ∀ event ∈ events, (∀ i pacing, event = .ask i pacing → ¬R.spares i) →
      event.IsWithin K L) :
    s'.trace (answers R) (s.trace (silenced R) events) = s.trace (answers R) events := by
  induction events generalizing s s' B C with
  | nil => rfl
  | cons event events ih =>
    have hspared' := fun i pacing hmem => hspared i pacing (List.mem_cons_of_mem _ hmem)
    have hwithin' := fun event hmem => hwithin event (List.mem_cons_of_mem _ hmem)
    rw [trace, trace, trace_append]
    by_cases hask : ∃ i pacing, event = .ask i pacing ∧ R.spares i
    · obtain ⟨i, pacing, rfl, hi⟩ := hask
      obtain ⟨hbreakers, hlimiters⟩ := hspared i pacing List.mem_cons_self hi
      have hmatches := h.silence hi hbreakers hlimiters pacing
      have hnone : s.answers R (.ask i pacing) = [] := by simp [answers, hi]
      rw [answers_silenced s s' hi, hnone, ih hmatches hspared' hwithin']
    · have hkept : ∀ i pacing, event = .ask i pacing → ¬R.spares i :=
        fun i pacing heq hi => hask ⟨i, pacing, heq, hi⟩
      have hevent := hwithin event List.mem_cons_self hkept
      obtain ⟨B', C', hmatches⟩ := h.step hevent
      have hsilenced : s.silenced R event = [event] := by
        cases event with
        | ask i pacing => simp [silenced, hkept i pacing rfl]
        | _ => rfl
      rw [hsilenced]
      have hone : s'.trace (answers R) [event] = s'.answers R event := List.append_nil _
      have hrun : s'.run [event] = s'.step event := rfl
      rw [hone, hrun, h.answers_eq hevent, ih hmatches hspared' hwithin']

end Session

end

end TrafficControl
