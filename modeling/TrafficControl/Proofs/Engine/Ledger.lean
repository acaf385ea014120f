import Mathlib.Logic.Relation
import TrafficControl.Proofs.Breaker.Registry
import TrafficControl.Proofs.Engine.Frame

/-!
# Ledgers

A `Ledger` is what a session looks like from its breakers : the breakers by number, the permits that
are out, and the reports. Whatever happens, it goes on by few kinds of steps (`Ledger.Step`), each
of which makes one breaker or operates one. In particular a permit that is given back was out, and a
report comes from a call whose permit is out. `Session.steps_step` says so of every event of a
session, whichever calls are refused and whichever listeners fail.
-/

namespace TrafficControl

/-- Breakers by number, the permits that are out with the numbers of their breakers, and reports. -/
structure Ledger where
  breakers : List Breaker := []
  out : List (Nat × Permit) := []
  reports : List Report := []

/-- A step of a ledger. -/
inductive Ledger.Step : Ledger → Ledger → Prop where
  | make (l : Ledger) (uri : String) (p : BreakPolicy) (now : Nat) :
      Step l { l with breakers := l.breakers ++ [.create uri p now] }
  | wake {l : Ledger} {n : Nat} {b : Breaker} (h : l.breakers[n]? = some b) (now : Nat) :
      Step l { l with breakers := l.breakers.set n (b.wake now).2 }
  | take {l : Ledger} {n now : Nat} {b b' : Breaker} {p : Option Permit}
      (h : l.breakers[n]? = some b) (answer : b.take now = (p, b')) :
      Step l { l with breakers := l.breakers.set n b', out := l.out ++ p.toList.map (n, ·) }
  | giveBack {l : Ledger} {n : Nat} {p : Permit} {older newer : List (Nat × Permit)}
      (out : l.out = older ++ (n, p) :: newer) :
      Step l { l with breakers := l.breakers.modify n (·.releasePermit p), out := older ++ newer }
  | report {l : Ledger} (r : Report) (h : l.breakers[r.breaker]? = some r.before)
      (out : (r.breaker, r.permit) ∈ l.out) :
      Step l { l with breakers := l.breakers.set r.breaker r.after, reports := l.reports ++ [r] }

/-- Any number of steps of a ledger. -/
def Ledger.Steps : Ledger → Ledger → Prop := Relation.ReflTransGen Ledger.Step

/-- The permit that an attempt brought. -/
def Attempt.permit? : Attempt → Option Permit
  | granted p => some p
  | refused | interrupted => none

namespace BreakerRegistry

variable {r : BreakerRegistry} {n : Nat} {b : Breaker}

/-- The breakers by number. -/
def all (r : BreakerRegistry) : List Breaker := r.breakers.map (·.breaker)

theorem getElem?_all (r : BreakerRegistry) (n : Nat) : r.all[n]? = r.breaker? n :=
  List.getElem?_map ..

theorem all_update (r : BreakerRegistry) (n : Nat) (b : Breaker) :
    (r.update n b).all = r.all.set n b := by
  apply List.ext_getElem?
  intro m
  rw [getElem?_all, breaker?_update, List.getElem?_set', getElem?_all]
  rfl

theorem OnlyTells.all {r' : BreakerRegistry} (h : r.OnlyTells r') : r'.all = r.all := by
  rw [BreakerRegistry.all, h.breakers, BreakerRegistry.all]

theorem all_register (r : BreakerRegistry) (uri service : String) (p : BreakPolicy) (now : Nat) :
    (r.register uri service p now).all = r.all ++ [.create uri p now] := by
  simp [all, register]

/-- The ledger of a registry. -/
def ledger (r : BreakerRegistry) (out : List (Nat × Permit)) (reports : List Report) : Ledger :=
  ⟨r.all, out, reports⟩

/-! ## Operations of the registry -/

section
variable (out : List (Nat × Permit)) (reports : List Report)

theorem steps_acquire_some (h : r.breaker? n = some b) (now : Nat) :
    (r.ledger out reports).Steps ((r.acquire n now).2.ledger
      (out ++ (r.acquire n now).1.permit?.toList.map (n, ·)) reports) := by
  have hwoken : (r.woken n b now).breaker? n = some (b.wake now).2 := by
    rw [(r.onlyTells_woken n b now).breaker?, breaker?_update_self h]
  have hwake : (r.ledger out reports).Step ((r.woken n b now).ledger out reports) := by
    have hall : (r.woken n b now).all = r.all.set n (b.wake now).2 := by
      rw [(r.onlyTells_woken n b now).all, all_update]
    rw [ledger, ledger, hall]
    exact .wake ((r.getElem?_all n).trans h) now
  rcases acquire_cases h now with ⟨hacquire, -⟩ | ⟨p, b', htake, hacquire⟩
  · rw [hacquire, Attempt.permit?, Option.toList_none, List.map_nil, List.append_nil]
    exact .single hwake
  · have hpermit : (p.elim Attempt.refused .granted).permit? = p := by cases p <;> rfl
    rw [hacquire, hpermit]
    refine .tail (.single hwake) ?_
    rw [ledger, ledger, all_update]
    exact .take ((getElem?_all ..).trans hwoken) htake

theorem steps_acquire (r : BreakerRegistry) (n now : Nat) :
    (r.ledger out reports).Steps ((r.acquire n now).2.ledger
      (out ++ (r.acquire n now).1.permit?.toList.map (n, ·)) reports) := by
  cases h : r.breaker? n with
  | none =>
    have hacquire : r.acquire n now = (.refused, r) := by simp [acquire, h]
    rw [hacquire, Attempt.permit?, Option.toList_none, List.map_nil, List.append_nil]
    exact .refl
  | some b => exact steps_acquire_some out reports h now

theorem all_releasePermit (r : BreakerRegistry) (n : Nat) (p : Permit) :
    (r.releasePermit n p).all = r.all.modify n (·.releasePermit p) := by
  apply List.ext_getElem?
  intro m
  rw [List.getElem?_modify, getElem?_all, getElem?_all, breaker?_releasePermit]
  split
  · rfl
  · exact Option.map_id'.symm

/-- Giving back the permits of a call leaves those of the others out. -/
theorem steps_giveBack (held older newer : List (Nat × Permit)) (r : BreakerRegistry) :
    (r.ledger (older ++ (held ++ newer)) reports).Steps
      ((held.foldl (fun r (n, p) => r.releasePermit n p) r).ledger (older ++ newer) reports) := by
  induction held generalizing r with
  | nil => exact .refl
  | cons q held ih =>
    obtain ⟨n, p⟩ := q
    refine .head ?_ (ih (r.releasePermit n p))
    rw [ledger, ledger, all_releasePermit]
    exact .giveBack rfl

/-- A breaker that is told of an end is reported on. -/
theorem steps_complete (call : Nat) {p : Permit} (hout : (n, p) ∈ out) (r : BreakerRegistry)
    (micros : Nat) (cause : Option String) (now : Nat) :
    (r.ledger out reports).Steps ((r.complete n micros cause now).2.ledger out (reports ++
      ((r.breaker? n).map fun b => Report.mk call n p micros cause now b).toList)) := by
  cases h : r.breaker? n with
  | none =>
    have hcomplete : r.complete n micros cause now = (true, r) := by simp [complete, h]
    rw [hcomplete, Option.map_none, Option.toList_none, List.append_nil]
    exact .refl
  | some b =>
    rw [complete_eq h, ledger, ledger, (onlyTells_announce ..).all, all_update]
    exact .single (.report ⟨call, n, p, micros, cause, now, b⟩ ((r.getElem?_all n).trans h) hout)

theorem eq_or_register_of_getOrCreate {service uri : String} {p : BreakPolicy} {now : Nat}
    {r' : BreakerRegistry} (h : r.getOrCreate service uri p now = .ok (n, r')) :
    r' = r ∨ ∃ service, r' = r.register uri service p now := by
  unfold getOrCreate at h
  cases hcheck : p.check with
  | error error =>
    rw [hcheck] at h
    exact nomatch h
  | ok =>
    cases hfound : r.entries.find? uri with
    | none =>
      rw [hcheck, hfound] at h
      exact .inr ⟨_, (Prod.mk.inj (Except.ok.inj h)).2.symm⟩
    | some entry =>
      rw [hcheck, hfound] at h
      change (if _ then Except.ok _ else Except.ok _) = _ at h
      split at h
      · exact .inl (Prod.mk.inj (Except.ok.inj h)).2.symm
      · exact .inr ⟨_, (Prod.mk.inj (Except.ok.inj h)).2.symm⟩

theorem steps_getOrCreate {service uri : String} {p : BreakPolicy} {now : Nat}
    {r' : BreakerRegistry} (h : r.getOrCreate service uri p now = .ok (n, r')) :
    (r.ledger out reports).Steps (r'.ledger out reports) := by
  rcases eq_or_register_of_getOrCreate h with rfl | ⟨service, rfl⟩
  · exact .refl
  · rw [ledger, ledger, all_register]
    exact .single (.make _ uri p now)

end

end BreakerRegistry

/-! ## Operations of the engine -/

/-- The permits that the answer to a request for admission brings. -/
def AdmitResult.held : AdmitResult → List (Nat × Permit)
  | admitted a => a.held
  | refused _ | interrupted => []

namespace Engine

variable (reports : List Report)

theorem steps_abandon (e : Engine) (a : Admission) (older newer : List (Nat × Permit)) :
    (e.breakers.ledger (older ++ (a.held ++ newer)) reports).Steps
      ((e.abandon a).breakers.ledger (older ++ newer) reports) :=
  BreakerRegistry.steps_giveBack reports a.held older newer e.breakers

/-- If a breaker refuses, the permits of those before it are given back. -/
theorem steps_breakerPermits (out : List (Nat × Permit)) (e : Engine) (i : Invocation) (now : Nat)
    (held : Admission) (guards : List (String × BreakPolicy)) :
    (e.breakers.ledger (out ++ held.held) reports).Steps
      ((e.breakerPermits i now held guards).2.1.breakers.ledger
        (out ++ (e.breakerPermits i now held guards).1.held) reports) := by
  induction guards generalizing e held with
  | nil => exact .refl
  | cons guard guards ih =>
    obtain ⟨uri, p⟩ := guard
    unfold breakerPermits
    cases hmade : e.breakers.getOrCreate i.service.name uri p now with
    | error error => exact ih e held
    | ok made =>
      obtain ⟨n, made⟩ := made
      have hmake := BreakerRegistry.steps_getOrCreate (out ++ held.held) reports hmade
      have hacquire := hmake.trans (made.steps_acquire (out ++ held.held) reports n now)
      have hfailed : ∀ {attempt r}, made.acquire n now = (attempt, r) → attempt.permit? = none →
          (e.breakers.ledger (out ++ held.held) reports).Steps
            (({ e with breakers := r }.abandon held).breakers.ledger (out ++ []) reports) := by
        intro attempt r hattempt hnone
        have hback := steps_abandon reports { e with breakers := r } held out []
        rw [hattempt, hnone, Option.toList_none, List.map_nil, List.append_nil] at hacquire
        rw [List.append_nil held.held] at hback
        exact hacquire.trans hback
      rcases hattempt : made.acquire n now with ⟨permit | _ | _, r⟩
      · rw [hattempt, List.append_assoc] at hacquire
        simp only [hattempt]
        exact hacquire.trans (ih { e with breakers := r } ⟨held.held ++ [(n, permit)]⟩)
      · simp only [hattempt]
        exact hfailed hattempt rfl
      · simp only [hattempt]
        exact hfailed hattempt rfl

/-- If a limiter refuses, the permits of all breakers are given back. -/
theorem steps_admission (out : List (Nat × Permit)) (e : Engine) (i : Invocation) (pacing : Pacing)
    (now : Nat) :
    (e.breakers.ledger out reports).Steps ((e.admission i pacing now).2.2.1.breakers.ledger
      (out ++ (e.admission i pacing now).1.held) reports) := by
  have hpermits := e.steps_breakerPermits reports out i now {}
    (if e.settings.breakers.enabled then guards i else [])
  rw [List.append_nil] at hpermits
  unfold admission
  dsimp only
  rcases hresult : e.breakerPermits i now {} (if e.settings.breakers.enabled then guards i else [])
    with ⟨a | _ | _, e', i'⟩
  · rw [hresult] at hpermits
    dsimp only
    generalize (if e'.settings.limits.enabled then limits i' else []) = policies
    have hfound := e'.breakers_limitersFor i'.service.name now policies
    generalize e'.limitersFor i'.service.name now policies = found at hfound ⊢
    obtain ⟨limiters, e₁⟩ := found
    have hlimited := e₁.breakers_limiterPermits pacing now limiters
    dsimp only at hfound ⊢
    generalize e₁.limiterPermits pacing now limiters = limited at hlimited ⊢
    obtain ⟨_ | _, now', e₂⟩ := limited
    · have hback := steps_abandon reports e₂ a out []
      rw [List.append_nil a.held, hlimited.trans hfound] at hback
      exact hpermits.trans hback
    · have hsame : e₂.breakers = e'.breakers := hlimited.trans hfound
      dsimp only
      rw [hsame]
      exact hpermits
  · rw [hresult] at hpermits
    exact hpermits
  · rw [hresult] at hpermits
    exact hpermits

theorem steps_record {out held : List (Nat × Permit)} (h : ∀ q ∈ held, q ∈ out) (e : Engine)
    (ending : Ending) (now call : Nat) :
    (e.breakers.ledger out reports).Steps
      ((e.record ending now (held.map (·.1))).2.breakers.ledger out
        (reports ++ e.breakers.reports call ending now held)) := by
  induction held generalizing e reports with
  | nil =>
    rw [BreakerRegistry.reports, List.append_nil]
    exact .refl
  | cons q held ih =>
    obtain ⟨n, p⟩ := q
    have htold := BreakerRegistry.steps_complete out reports call (h (n, p) List.mem_cons_self)
      e.breakers ending.micros ending.cause? now
    rw [List.map_cons, record_eq, BreakerRegistry.reports]
    rcases hcomplete : e.breakers.complete n ending.micros ending.cause? now with ⟨_ | _, r⟩
    · rw [hcomplete] at htold
      exact htold
    · rw [hcomplete] at htold
      dsimp only
      rw [← List.append_assoc]
      have hrest : ∀ q ∈ held, q ∈ out := fun q hq => h q (List.mem_cons_of_mem _ hq)
      exact htold.trans (ih _ hrest { e with breakers := r })

theorem steps_complete (older newer : List (Nat × Permit)) (e : Engine) (a : Admission)
    (i : Invocation) (ending : Ending) (now call : Nat) :
    (e.breakers.ledger (older ++ (a.held ++ newer)) reports).Steps
      ((e.complete a i ending now).2.1.breakers.ledger (older ++ newer)
        (reports ++ e.breakers.reports call ending now a.held)) := by
  have hheld : ∀ q ∈ a.held, q ∈ older ++ (a.held ++ newer) := by
    intro q hq
    simp [hq]
  have hrecord := e.steps_record reports hheld ending now call
  have hback := steps_abandon (reports ++ e.breakers.reports call ending now a.held)
    (e.record ending now (a.held.map (·.1))).2 a older newer
  have hbreakers : (e.complete a i ending now).2.1.breakers =
      ((e.record ending now (a.held.map (·.1))).2.abandon a).breakers := by
    unfold complete
    dsimp only
    split <;> rfl
  rw [hbreakers]
  exact hrecord.trans hback

end Engine

namespace Session

/-- The session as its breakers see it. -/
def ledger (s : Session) : Ledger := s.engine.breakers.ledger s.held s.reports

/-- The permits of a call under way are out, and the others are those out without it. -/
theorem exists_held {s : Session} {number : Nat} {c : LiveCall} (h : s.call? number = some c) :
    ∃ older newer, s.held = older ++ (c.admission.held ++ newer) ∧
      (s.without number).flatMap (·.admission.held) = older ++ newer := by
  obtain ⟨hc, older, newer, hlive, hothers⟩ := List.find?_eq_some_iff_append.1 h
  refine ⟨older.flatMap (·.admission.held), newer.flatMap (·.admission.held), ?_, ?_⟩
  · rw [held, hlive, List.flatMap_append, List.flatMap_cons]
  · rw [without, hlive, List.eraseP_append_right _ (by simpa using hothers),
      List.eraseP_cons_of_pos (by simpa using hc), List.flatMap_append]

/-- Every event of a session is a number of steps of its ledger. -/
theorem steps_step (s : Session) (event : Event) : s.ledger.Steps (s.step event).ledger := by
  cases event with
  | ask i pacing =>
    have hadmission := s.engine.steps_admission s.reports s.held i pacing s.now
    simp only [step]
    rcases hresult : s.engine.admission i pacing s.now with ⟨a | _ | _, now, e, i'⟩
    · rw [hresult] at hadmission
      simpa [ledger, held, AdmitResult.held] using hadmission
    · rw [hresult, AdmitResult.held, List.append_nil] at hadmission
      exact hadmission
    · rw [hresult, AdmitResult.held, List.append_nil] at hadmission
      exact hadmission
  | complete number ending =>
    cases hcall : s.call? number with
    | none =>
      simp only [step, hcall]
      exact .refl
    | some c =>
      obtain ⟨older, newer, hheld, hwithout⟩ := exists_held hcall
      have hcomplete := s.engine.steps_complete s.reports older newer c.admission c.invocation
        ending s.now number
      simp only [step, hcall]
      rw [ledger, ledger, hheld, held, hwithout]
      exact hcomplete
  | drop number =>
    cases hcall : s.call? number with
    | none =>
      simp only [step, hcall]
      exact .refl
    | some c =>
      obtain ⟨older, newer, hheld, hwithout⟩ := exists_held hcall
      have hback := s.engine.steps_abandon s.reports c.admission older newer
      simp only [step, hcall]
      rw [ledger, ledger, hheld, held, hwithout]
      exact hback
  | change c =>
    have hsame : ∀ e, s.engine.apply c = .ok e → e.breakers.all = s.engine.breakers.all := by
      intro e h
      unfold Engine.apply at h
      split at h
      · cases h
      · obtain rfl := Except.ok.inj h
        split <;> rfl
    simp only [step]
    split
    · next e h =>
      rw [ledger, ledger, BreakerRegistry.ledger, BreakerRegistry.ledger, hsame e h]
      exact .refl
    · exact .refl
  | recycle snapshot => exact .refl
  | listen l => exact .refl
  | advance micros => exact .refl

theorem steps_run (s : Session) (events : List Event) : s.ledger.Steps (s.run events).ledger := by
  induction events generalizing s with
  | nil => exact .refl
  | cons event events ih => exact (s.steps_step event).trans (ih (s.step event))

end Session

end TrafficControl
