import TrafficControl.Proofs.Breaker.Matching
import TrafficControl.Proofs.Engine.Faults
import TrafficControl.Proofs.Engine.Ledger

/-!
# Listeners of breakers

Whatever an engine does to its breakers, it makes some and calls some. What these two keep is kept
by an admission and by a completion (`BreakerRegistry.IsKept`). So the listeners of breakers are
those that were added, in order (`Session.listeners_run`), and as long as none of these fails no
completion is cut short (`Engine.record_of_reliable`).
-/

namespace TrafficControl

namespace Engine

/-- An admission gets permits of breakers, and may give some of them back. -/
theorem exists_breakers_admission (e : Engine) (i : Invocation) (pacing : Pacing) (now : Nat) :
    ∃ given, (e.admission i pacing now).2.2.1.breakers =
      ((e.breakerPermits i now {} (e.guardsAsked i)).2.1.abandon given).breakers := by
  rw [admission_eq]
  rcases e.breakerPermits i now {} (e.guardsAsked i) with ⟨a | f | _, e', i'⟩
  · have hfound : (e'.limitersAsked i' now).2.breakers = e'.breakers :=
      e'.breakers_limitersFor i'.service.name now _
    have hlimited := (e'.limitersAsked i' now).2.breakers_limiterPermits pacing now
      (e'.limitersAsked i' now).1
    rw [hfound] at hlimited
    dsimp only
    generalize (e'.limitersAsked i' now).2.limiterPermits pacing now (e'.limitersAsked i' now).1 =
      limited at hlimited ⊢
    obtain ⟨granted, now', e₂⟩ := limited
    cases granted with
    | false =>
      have hsame : e₂.breakers = e'.breakers := hlimited
      exact ⟨a, by simp only [abandon, hsame]⟩
    | true => exact ⟨{}, hlimited⟩
  · exact ⟨{}, rfl⟩
  · exact ⟨{}, rfl⟩

/-- Only while it gets permits of breakers can an admission be interrupted. -/
theorem admission_eq_interrupted_iff (e : Engine) (i : Invocation) (pacing : Pacing) (now : Nat) :
    (e.admission i pacing now).1 = .interrupted ↔
      (e.breakerPermits i now {} (e.guardsAsked i)).1 = .interrupted := by
  rw [admission_eq]
  rcases e.breakerPermits i now {} (e.guardsAsked i) with ⟨a | f | _, e', i'⟩
  · dsimp only
    split <;> simp
  · simp
  · simp

end Engine

/-- Whether a property of registries survives the making of a breaker and the call of one. -/
structure BreakerRegistry.IsKept (P : BreakerRegistry → Prop) : Prop where
  getOrCreate : ∀ {r made : BreakerRegistry} {service uri : String} {p : BreakPolicy} {now n : Nat},
    P r → r.getOrCreate service uri p now = .ok (n, made) → P made
  call : ∀ {r : BreakerRegistry} (n now : Nat) (c : BreakerCall), P r → P (r.call n now c)

namespace BreakerRegistry.IsKept

variable {P : BreakerRegistry → Prop} {e : Engine}

theorem abandon (hP : IsKept P) (h : P e.breakers) (a : Admission) : P (e.abandon a).breakers := by
  obtain ⟨held⟩ := a
  induction held generalizing e with
  | nil => exact h
  | cons q held ih => exact ih (e := { e with breakers := _ }) (hP.call q.1 0 (.releasePermit q.2) h)

theorem breakerPermits (hP : IsKept P) (h : P e.breakers) (i : Invocation) (now : Nat)
    (held : Admission) (guards : List (String × BreakPolicy)) :
    P (e.breakerPermits i now held guards).2.1.breakers := by
  induction guards generalizing e held with
  | nil => exact h
  | cons guard guards ih =>
    obtain ⟨uri, p⟩ := guard
    rw [Engine.breakerPermits]
    cases hmade : e.breakers.getOrCreate i.service.name uri p now with
    | error error => exact ih h held
    | ok made =>
      obtain ⟨n, made⟩ := made
      have hcalled := hP.call n now .acquire (hP.getOrCreate h hmade)
      rw [BreakerRegistry.call] at hcalled
      dsimp only
      rcases hattempt : made.acquire n now with ⟨permit | _ | _, r⟩ <;> rw [hattempt] at hcalled
      · exact ih (e := { e with breakers := r }) hcalled _
      · exact hP.abandon (e := { e with breakers := r }) hcalled held
      · exact hP.abandon (e := { e with breakers := r }) hcalled held

theorem admission (hP : IsKept P) (h : P e.breakers) (i : Invocation) (pacing : Pacing)
    (now : Nat) : P (e.admission i pacing now).2.2.1.breakers := by
  obtain ⟨given, hgiven⟩ := e.exists_breakers_admission i pacing now
  rw [hgiven]
  exact hP.abandon (hP.breakerPermits h i now {} (e.guardsAsked i)) given

theorem record (hP : IsKept P) (h : P e.breakers) (ending : Ending) (now : Nat) (ns : List Nat) :
    P (e.record ending now ns).2.breakers := by
  induction ns generalizing e with
  | nil => exact h
  | cons n ns ih =>
    have hcalled := hP.call n now (.complete ending.micros ending.cause?) h
    rw [BreakerRegistry.call] at hcalled
    rw [Engine.record_eq]
    rcases hresult : e.breakers.complete n ending.micros ending.cause? now with ⟨_ | _, r⟩ <;>
      rw [hresult] at hcalled
    · exact hcalled
    · exact ih (e := { e with breakers := r }) hcalled

theorem complete (hP : IsKept P) (h : P e.breakers) (a : Admission) (i : Invocation)
    (ending : Ending) (now : Nat) : P (e.complete a i ending now).2.1.breakers := by
  rw [Engine.engine_complete]
  exact hP.abandon (hP.record h ending now _) a

end BreakerRegistry.IsKept

/-! ## Who listens -/

/-- The listener of breakers that an event adds. -/
def Event.listener? : Event → Option StateListener
  | listen l => some l
  | _ => none

namespace BreakerRegistry

theorem isKept_listeners (ls : List StateListener) : IsKept (fun r => r.listeners = ls) where
  getOrCreate := by
    intro r made service uri p now n h hmade
    rcases eq_or_register_of_getOrCreate hmade with rfl | ⟨service, rfl⟩
    · exact h
    · exact h
  call := by
    intro r n now c h
    cases hb : r.breaker? n with
    | none => rwa [call_of_none hb]
    | some b =>
      rw [call_eq hb, listeners_update, (r.onlyTells_announce n (b.told now c)).listeners, h]

end BreakerRegistry

namespace Engine

variable {e : Engine}

/-- Breakers whose listeners do not fail are told how a call ended, up to the last one. -/
theorem record_of_reliable (h : e.breakers.IsReliable) (ending : Ending) (now : Nat)
    (ns : List Nat) : (e.record ending now ns).1 = true := by
  induction ns generalizing e with
  | nil => rfl
  | cons n ns ih =>
    have hwhole := h.complete n ending.micros ending.cause? now
    have hcalled := h.call n now (.complete ending.micros ending.cause?)
    rw [BreakerRegistry.call] at hcalled
    rw [record_eq]
    rcases hresult : e.breakers.complete n ending.micros ending.cause? now with ⟨_ | _, r⟩ <;>
      rw [hresult] at hwhole hcalled
    · exact absurd hwhole Bool.false_ne_true
    · exact ih (e := { e with breakers := r }) hcalled

end Engine

namespace Session

theorem listeners_step (s : Session) (event : Event) :
    (s.step event).engine.breakers.listeners =
      s.engine.breakers.listeners ++ event.listener?.toList := by
  have hkept := BreakerRegistry.isKept_listeners s.engine.breakers.listeners
  have hnone : s.engine.breakers.listeners =
      s.engine.breakers.listeners ++ (none : Option StateListener).toList :=
    (List.append_nil _).symm
  cases event with
  | ask i pacing =>
    refine Eq.trans ?_ hnone
    have hadmission := hkept.admission rfl i pacing s.now
    simp only [step]
    rcases hresult : s.engine.admission i pacing s.now with ⟨a | _ | _, now, e, i'⟩ <;>
      rwa [hresult] at hadmission
  | complete number ending =>
    refine Eq.trans ?_ hnone
    simp only [step]
    cases s.call? number with
    | none => rfl
    | some c => exact hkept.complete rfl c.admission c.invocation ending s.now
  | drop number =>
    refine Eq.trans ?_ hnone
    simp only [step]
    cases s.call? number with
    | none => rfl
    | some c => exact hkept.abandon rfl c.admission
  | change c =>
    refine Eq.trans ?_ hnone
    simp only [step]
    split
    · next e happly =>
      unfold Engine.apply at happly
      split at happly
      · cases happly
      · obtain rfl := Except.ok.inj happly
        split <;> rfl
    · rfl
  | recycle snapshot => exact hnone
  | listen l => rfl
  | advance micros => exact hnone

/-- The listeners of breakers are those that were added. -/
theorem listeners_run (s : Session) (events : List Event) :
    (s.run events).engine.breakers.listeners =
      s.engine.breakers.listeners ++ events.filterMap Event.listener? := by
  induction events generalizing s with
  | nil => exact (List.append_nil _).symm
  | cons event events ih =>
    have hrun : s.run (event :: events) = (s.step event).run events := rfl
    rw [hrun, ih, listeners_step, List.filterMap_cons, List.append_assoc]
    cases event.listener? <;> rfl

theorem isReliable_step {s : Session} {event : Event} (h : s.engine.breakers.IsReliable)
    (hevent : ∀ l, event = .listen l → ∀ k, l.fails k = false) :
    (s.step event).engine.breakers.IsReliable := by
  intro l hl
  rw [listeners_step, List.mem_append] at hl
  rcases hl with hold | hnew
  · exact h l hold
  · cases event with
    | listen l' =>
      obtain rfl : l = l' := by simpa [Event.listener?] using hnew
      exact hevent l rfl
    | _ => simp [Event.listener?] at hnew

end Session

end TrafficControl
