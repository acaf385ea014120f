import TrafficControl.Proofs.Engine.Frame
import TrafficControl.Proofs.Routing.Narrowing

/-!
# Faults that end a decision

A decision about a call returns a fault exactly where it tells the request of it. `Settles` says
what a decision may do to an invocation : narrow the selection, and either end well and leave fault
and signal alone, or stop the request once, with the fault that it returns. Each filter settles the
call (`Filter.Settles`), so a run of them does (`Filter.settles_run`), and with it routing and the
check of received calls (`Engine.settles_route`, `Engine.settles_inbound`). Admission goes through
the guards of the call (`Engine.settles_breakerPermits`) and then through its limiters, whose
refusals are the only origin of limit faults (`Engine.limiterPermits_eq_false_iff`).
-/

namespace TrafficControl

namespace Invocation

variable {P Q : Fault → Prop} {i i' : Invocation} {s : Selection} {fault : Option Fault}

/-! ## Faults with their responses -/

/-- Whether a response is prepared by a circuit break policy of the call. -/
def Prepares (i : Invocation) (d : Degrade) : Prop :=
  ∃ b, i.service.bundle? = some b ∧ ∃ p ∈ b.breaks, p.degrade = some d

/-- Whether a fault of a call may go with a response : faults that degrade the call are about
circuit breakers and have a prepared one, other faults have none. -/
structure Answers (i : Invocation) (f : Fault) (response : Option Degrade) : Prop where
  isSome_iff : response.isSome ↔ f.kind = .degrade
  type : f.kind = .degrade → f.type = .circuitBreak
  prepares : ∀ d, response = some d → i.Prepares d

/-- The end of a decision about a call, in an invocation afterwards : without a fault only the
selection is another one; a fault, which satisfies `P`, has stopped the request. -/
inductive Settles (P : Fault → Prop) (i : Invocation) : Option Fault → Invocation → Prop where
  | quiet (s : Selection) : Settles P i none (i.withSelection s)
  | stopped (s : Selection) {f : Fault} {response : Option Degrade} (holds : P f)
      (answers : i.Answers f response) :
      Settles P i (some f) ((i.withSelection s).stop f response)

namespace Settles

/-- What was done to the selection before does not matter. -/
theorem of_withSelection (h : (i.withSelection s).Settles P fault i') : i.Settles P fault i' := by
  cases h with
  | quiet t => exact .quiet t
  | stopped t holds answers => exact .stopped t holds ⟨answers.1, answers.2, answers.3⟩

theorem mono (h : i.Settles P fault i') (hPQ : ∀ f, P f → Q f) : i.Settles Q fault i' := by
  cases h with
  | quiet s => exact .quiet s
  | stopped s holds answers => exact .stopped s (hPQ _ holds) answers

/-- A fault without a response that does not degrade the call. -/
theorem stop {f : Fault} (holds : P f) (hkind : f.kind ≠ .degrade) :
    i.Settles P (some f) (i.stop f none) :=
  .stopped i.selection holds
    { isSome_iff := by simp [hkind]
      type := fun h => absurd h hkind
      prepares := by simp }

theorem reject {type : FaultType} {reason : String} (holds : P ⟨.reject, type, reason⟩) :
    i.Settles P (some (i.reject type reason).1) (i.reject type reason).2 :=
  stop holds FaultKind.noConfusion

theorem failover {type : FaultType} {reason : String} (holds : P ⟨.failover, type, reason⟩) :
    i.Settles P (some (i.failover type reason).1) (i.failover type reason).2 :=
  stop holds FaultKind.noConfusion

theorem breakOff {response : Option Degrade} (hP : ∀ f, f.type = .circuitBreak →
      f.kind ≠ .failover → P f) (hprepares : ∀ d, response = some d → i.Prepares d) :
    i.Settles P (some (i.breakOff response).1) (i.breakOff response).2 := by
  cases response with
  | none => exact reject (hP _ rfl (by simp))
  | some d =>
    exact .stopped i.selection (f := ⟨.degrade, .circuitBreak, _⟩) (hP _ rfl (by simp))
      { isSome_iff := by simp
        type := fun _ => rfl
        prepares := hprepares }

end Settles

theorem prepares_of_mem_breaksAt {level : BreakLevel} {p : BreakPolicy} {d : Degrade}
    (hp : p ∈ i.breaksAt level) (hd : p.degrade = some d) : i.Prepares d := by
  unfold breaksAt at hp
  cases hb : i.service.bundle? with
  | none => simp [hb] at hp
  | some b =>
    rw [hb] at hp
    exact ⟨b, hb, p, (List.mem_filter.1 hp).1, hd⟩

end Invocation

/-! ## Filters -/

/-- The fault with which a filter ends, if it does. -/
def Verdict.fault? : Verdict → Option Fault
  | proceed | finish => none
  | fault f => some f

namespace Filter

variable {σ : Type} {P : Fault → Prop}

/-- Whether a filter settles every call. -/
def Settles (P : Fault → Prop) (f : Filter σ) : Prop :=
  ∀ (s : σ) (i : Invocation), i.Settles P (f.apply s i).1.fault? (f.apply s i).2.2

/-- If all filters settle the call so does their run : up to the first that does not proceed, each
only changes the selection. -/
theorem settles_run {fs : List (Filter σ)} (h : ∀ f ∈ fs, f.Settles P) (s : σ) (i : Invocation) :
    i.Settles P (run fs s i).1 (run fs s i).2.2 := by
  induction fs generalizing s i with
  | nil => exact .quiet i.selection
  | cons f fs ih =>
    have hfirst := h f List.mem_cons_self s i
    have hrest := fun s i => ih (fun g hg => h g (List.mem_cons_of_mem _ hg)) s i
    rw [run]
    generalize f.apply s i = result at hfirst ⊢
    obtain ⟨verdict, s', i'⟩ := result
    cases verdict with
    | proceed =>
      cases hfirst with
      | quiet left => exact (hrest s' _).of_withSelection
    | finish => exact hfirst
    | fault e => exact hfirst

theorem settles_healthy : (healthy : Filter σ).Settles P := fun _ _ => .quiet _

theorem settles_lane : (lane : Filter σ).Settles P := by
  intro s i
  rw [Invocation.apply_lane]
  exact .quiet _

theorem settles_unit (hP : ∀ reason, P ⟨.reject, .unit, reason⟩) :
    (unit : Filter σ).Settles P := by
  intro s i
  by_cases hrefused : i.IsRefused
  · obtain ⟨hlive, why, hwhy⟩ := hrefused
    simp only [unit, ofInvocation, hlive, if_true, hwhy]
    exact .reject (hP _)
  · rw [Invocation.apply_unit s hrefused]
    exact .quiet _

theorem settles_breaker (hP : ∀ f, f.type = .circuitBreak → f.kind ≠ .failover → P f)
    (breakers : BreakerRegistry) (now : Nat) : (breaker breakers now : Filter σ).Settles P := by
  intro s i
  simp only [breaker, ofInvocation]
  split
  · exact .quiet i.selection
  · split
    · exact .quiet _
    · refine (Invocation.Settles.breakOff hP fun d hd => ?_).of_withSelection
      obtain ⟨p, hp, hd⟩ := List.exists_of_findSome?_eq_some hd
      exact Invocation.prepares_of_mem_breaksAt hp hd

theorem settles_balance (hP : ∀ reason, P ⟨.reject, .unready, reason⟩) (default : Balancing)
    (draw : Nat) : (balance default draw).Settles P := by
  intro turns i
  simp only [balance]
  split
  · exact .reject (hP _)
  · exact .quiet _

theorem settles_unitInbound (hP : ∀ kind reason, kind ≠ .degrade → P ⟨kind, .unit, reason⟩) :
    (unitInbound : Filter σ).Settles P := by
  intro s i
  simp only [unitInbound, ofInvocation]
  split
  · split
    · unfold Invocation.turnAway
      split
      · exact .failover (hP _ _ (by simp))
      · exact .reject (hP _ _ (by simp))
    · exact .quiet i.selection
  · exact .quiet i.selection

theorem settles_cellInbound (hP : ∀ reason, P ⟨.failover, .cell, reason⟩) :
    (cellInbound : Filter σ).Settles P := by
  intro s i
  simp only [cellInbound, ofInvocation]
  split
  · split
    · exact .failover (hP _)
    · exact .quiet i.selection
  · exact .quiet i.selection

end Filter

/-! ## Routing and received calls -/

namespace Engine

/-- The fault with which routing ended, if it did. -/
def faultOf : Except Fault Choice → Option Fault
  | .ok _ => none
  | .error f => some f

/-- Whether a fault may end the routing of a call. -/
def EndsRouting (f : Fault) : Prop := f.kind ≠ .failover ∧ f.type ≠ .limit

/-- Whether a fault may end the check of a received call. -/
def EndsInbound (f : Fault) : Prop := f.kind ≠ .degrade ∧ f.type ≠ .limit

variable {e : Engine} {i : Invocation}

theorem settles_outboundFilters (e : Engine) (now draw : Nat) :
    ∀ f ∈ e.outboundFilters now draw, f.Settles EndsRouting := by
  have hbreaker : ∀ f : Fault, f.type = .circuitBreak → f.kind ≠ .failover → EndsRouting f :=
    fun f htype hkind => ⟨hkind, by simp [htype]⟩
  intro f hf
  simp only [outboundFilters, List.mem_append, List.mem_cons, List.not_mem_nil, or_false] at hf
  rcases hf with ((rfl | rfl | rfl) | hguard) | rfl
  · exact Filter.settles_healthy
  · exact Filter.settles_unit fun _ => by simp [EndsRouting]
  · exact Filter.settles_lane
  · split at hguard
    · obtain rfl := List.mem_singleton.1 hguard
      exact Filter.settles_breaker hbreaker e.breakers now
    · simp at hguard
  · exact Filter.settles_balance (fun _ => by simp [EndsRouting]) e.balancing draw

theorem settles_route (e : Engine) (i : Invocation) (now draw : Nat) :
    i.Settles EndsRouting (faultOf (e.route i now draw).1) (e.route i now draw).2.2 := by
  have hrun := Filter.settles_run (e.settles_outboundFilters now draw) e.turns i
  unfold route
  generalize Filter.run (e.outboundFilters now draw) e.turns i = result at hrun ⊢
  obtain ⟨fault, turns, i'⟩ := result
  cases fault with
  | some f => exact hrun
  | none =>
    cases hchoice : i'.selection.choice with
    | some choice =>
      simp only [hchoice]
      exact hrun
    | none =>
      simp only [hchoice]
      cases hrun with
      | quiet left =>
        exact Invocation.Settles.of_withSelection (.reject (by simp [EndsRouting]))

theorem settles_inboundFilters : ∀ f ∈ inboundFilters, f.Settles EndsInbound := by
  intro f hf
  simp only [inboundFilters, List.mem_cons, List.not_mem_nil, or_false] at hf
  rcases hf with rfl | rfl
  · exact Filter.settles_unitInbound fun _ _ hkind => ⟨hkind, by simp⟩
  · exact Filter.settles_cellInbound fun _ => by simp [EndsInbound]

theorem settles_inbound (i : Invocation) :
    i.Settles EndsInbound (inbound i).1 (inbound i).2 :=
  Filter.settles_run settles_inboundFilters () i

/-! ## Admission -/

/-- Whether a limiter refuses a call that asks all those given in turn : the limiters before it
grant a permit, and as they leave it this one does not. -/
def LimiterRefuses (e : Engine) (pacing : Pacing) (now : Nat) (limiters : List (Nat × Int)) :
    Prop :=
  ∃ prior n timeout rest now' e' l, limiters = prior ++ (n, timeout) :: rest ∧
    e.limiterPermits pacing now prior = (true, now', e') ∧ e'.limiters.limiter? n = some l ∧
    (l.acquire 1 now' timeout).1 = none

variable {pacing : Pacing} {now now' : Nat}

theorem limiterPermits_nil : e.limiterPermits pacing now [] = (true, now, e) := rfl

theorem limiterPermits_append {e' : Engine} {prior : List (Nat × Int)}
    (h : e.limiterPermits pacing now prior = (true, now', e')) (rest : List (Nat × Int)) :
    e.limiterPermits pacing now (prior ++ rest) = e'.limiterPermits pacing now' rest := by
  induction prior generalizing e now with
  | nil =>
    obtain ⟨rfl, rfl⟩ := Prod.mk.inj (Prod.mk.inj h).2
    rfl
  | cons limiter prior ih =>
    obtain ⟨n, timeout⟩ := limiter
    rw [List.cons_append, limiterPermits_cons]
    rw [limiterPermits_cons] at h
    cases hl : e.limiters.limiter? n with
    | none =>
      simp only [hl] at h ⊢
      exact ih h
    | some l =>
      simp only [hl] at h ⊢
      cases hwait : (l.acquire 1 now timeout).1 with
      | none => simp [hwait] at h
      | some wait =>
        simp only [hwait] at h ⊢
        exact ih h

theorem LimiterRefuses.cons {e' : Engine} {limiter : Nat × Int} {rest : List (Nat × Int)}
    (h : e'.LimiterRefuses pacing now' rest)
    (hfirst : e.limiterPermits pacing now [limiter] = (true, now', e')) :
    e.LimiterRefuses pacing now (limiter :: rest) := by
  obtain ⟨prior, n, timeout, rest', now'', e'', l, rfl, hprior, hl⟩ := h
  exact ⟨limiter :: prior, n, timeout, rest', now'', e'', l, rfl,
    (limiterPermits_append hfirst prior).trans hprior, hl⟩

/-- The call does not get its permits exactly if one of the limiters refuses it. -/
theorem limiterPermits_eq_false_iff {limiters : List (Nat × Int)} :
    (e.limiterPermits pacing now limiters).1 = false ↔ e.LimiterRefuses pacing now limiters := by
  constructor
  · intro h
    induction limiters generalizing e now with
    | nil => simp [limiterPermits_nil] at h
    | cons limiter rest ih =>
      obtain ⟨n, timeout⟩ := limiter
      rw [limiterPermits_cons] at h
      cases hl : e.limiters.limiter? n with
      | none =>
        simp only [hl] at h
        exact (ih h).cons (by simp [limiterPermits_cons, hl, limiterPermits_nil])
      | some l =>
        simp only [hl] at h
        cases hwait : (l.acquire 1 now timeout).1 with
        | none => exact ⟨[], n, timeout, rest, now, e, l, rfl, rfl, hl, hwait⟩
        | some wait =>
          simp only [hwait] at h
          exact (ih h).cons (by simp [limiterPermits_cons, hl, hwait, limiterPermits_nil])
  · rintro ⟨prior, n, timeout, rest, now', e', l, rfl, hprior, hl, hwait⟩
    rw [limiterPermits_append hprior, limiterPermits_cons, hl]
    simp only [hwait]

/-- The breakers that admission asks. -/
def guardsAsked (e : Engine) (i : Invocation) : List (String × BreakPolicy) :=
  if e.settings.breakers.enabled then guards i else []

/-- The limiters that admission asks after the breakers. -/
def limitersAsked (e : Engine) (i : Invocation) (now : Nat) : List (Nat × Int) × Engine :=
  e.limitersFor i.service.name now (if e.settings.limits.enabled then limits i else [])

/-- Whether a limiter refuses a call that asks for admission, after all its breakers have granted a
permit. -/
def IsLimited (e : Engine) (i : Invocation) (pacing : Pacing) (now : Nat) : Prop :=
  ∃ a e' i', e.breakerPermits i now {} (e.guardsAsked i) = (.admitted a, e', i') ∧
    (e'.limitersAsked i' now).2.LimiterRefuses pacing now (e'.limitersAsked i' now).1

end Engine

/-- The fault with which admission ended, if it did. -/
def AdmitResult.fault? : AdmitResult → Option Fault
  | .refused f => some f
  | .admitted _ | .interrupted => none

namespace Engine

variable {e : Engine} {i : Invocation} {pacing : Pacing} {now : Nat}

theorem prepares_of_mem_guards {uri : String} {p : BreakPolicy} {d : Degrade}
    (hp : (uri, p) ∈ guards i) (hd : p.degrade = some d) : i.Prepares d := by
  rw [guards, List.mem_append] at hp
  rcases hp with hservice | hendpoint
  · obtain ⟨q, hq, hpair⟩ := List.mem_map.1 hservice
    obtain ⟨-, rfl⟩ := Prod.mk.inj hpair
    exact Invocation.prepares_of_mem_breaksAt hq hd
  · cases hchoice : i.selection.choice with
    | none => simp [hchoice] at hendpoint
    | some choice =>
      rw [hchoice] at hendpoint
      obtain ⟨q, hq, hpair⟩ := List.mem_map.1 hendpoint
      obtain ⟨-, rfl⟩ := Prod.mk.inj hpair
      exact Invocation.prepares_of_mem_breaksAt hq hd

/-- Breakers stop a call because of a breaker and for no other reason. -/
theorem settles_breakerPermits (e : Engine) (i : Invocation) (now : Nat) (held : Admission)
    {gs : List (String × BreakPolicy)}
    (h : ∀ uri p, (uri, p) ∈ gs → ∀ d, p.degrade = some d → i.Prepares d) :
    i.Settles (fun f => f.kind ≠ .failover ∧ f.type = .circuitBreak)
      (e.breakerPermits i now held gs).1.fault? (e.breakerPermits i now held gs).2.2 := by
  induction gs generalizing e held with
  | nil => exact .quiet i.selection
  | cons guard gs ih =>
    obtain ⟨uri, p⟩ := guard
    have hrest := fun uri p hp => h uri p (List.mem_cons_of_mem _ hp)
    rw [breakerPermits]
    cases e.breakers.getOrCreate i.service.name uri p now with
    | error error => exact ih e held hrest
    | ok got =>
      obtain ⟨n, made⟩ := got
      dsimp only
      rcases made.acquire n now with ⟨permit | _ | _, r⟩
      · exact ih { e with breakers := r } _ hrest
      · exact .breakOff (fun f htype hkind => ⟨hkind, htype⟩) (h uri p List.mem_cons_self)
      · exact .quiet i.selection

theorem admission_eq (e : Engine) (i : Invocation) (pacing : Pacing) (now : Nat) :
    e.admission i pacing now =
      match e.breakerPermits i now {} (e.guardsAsked i) with
      | (.admitted a, e, i) =>
        match (e.limitersAsked i now).2.limiterPermits pacing now (e.limitersAsked i now).1 with
        | (true, now, e) => (.admitted a, now, e, i)
        | (false, now, e) =>
          let (fault, i) := i.reject .limit (i.reason Reason.limitExceeded)
          (.refused fault, now, e.abandon a, i)
      | (r, e, i) => (r, now, e, i) := by
  rfl

theorem isLimited_iff_of_admitted {a : Admission} {e' : Engine} {i' : Invocation}
    (pacing : Pacing) (h : e.breakerPermits i now {} (e.guardsAsked i) = (.admitted a, e', i')) :
    e.IsLimited i pacing now ↔
      ((e'.limitersAsked i' now).2.limiterPermits pacing now (e'.limitersAsked i' now).1).1 =
        false := by
  rw [limiterPermits_eq_false_iff]
  constructor
  · rintro ⟨a₁, e₁, i₁, h₁, hrefuses⟩
    obtain ⟨-, hrest⟩ := Prod.mk.inj (h.symm.trans h₁)
    obtain ⟨rfl, rfl⟩ := Prod.mk.inj hrest
    exact hrefuses
  · exact fun hrefuses => ⟨a, e', i', h, hrefuses⟩

/-- Of the faults that end an admission those about limits are the refusals of limiters. -/
theorem settles_admission (e : Engine) (i : Invocation) (pacing : Pacing) (now : Nat) :
    i.Settles (fun f => f.kind ≠ .failover ∧ (f.type = .limit ↔ e.IsLimited i pacing now))
      (e.admission i pacing now).1.fault? (e.admission i pacing now).2.2.2 := by
  have hguards : ∀ uri p, (uri, p) ∈ e.guardsAsked i → ∀ d, p.degrade = some d →
      i.Prepares d := by
    intro uri p hp d hd
    unfold guardsAsked at hp
    split at hp
    · exact prepares_of_mem_guards hp hd
    · simp at hp
  have hsettles := e.settles_breakerPermits i now {} hguards
  rw [admission_eq]
  rcases hpermits : e.breakerPermits i now {} (e.guardsAsked i) with ⟨a | f | _, e₁, i₁⟩ <;>
    rw [hpermits] at hsettles
  · cases hsettles with
    | quiet left =>
      have hlimited := isLimited_iff_of_admitted pacing hpermits
      dsimp only
      generalize limiterPermits _ pacing now _ = answer at hlimited ⊢
      obtain ⟨_ | _, now', e₂⟩ := answer
      · exact Invocation.Settles.of_withSelection (.reject ⟨by simp, by simp [hlimited]⟩)
      · exact .quiet left
  · have hnot : ¬e.IsLimited i pacing now := by
      rintro ⟨a, e', i', hadmitted, -⟩
      simp [hpermits] at hadmitted
    exact hsettles.mono fun g hg => ⟨hg.1, by simp [hg.2, hnot]⟩
  · cases hsettles with
    | quiet left => exact .quiet left

end Engine

/-! ## All decisions -/

namespace Invocation

/-- Whether a decision about a call has told the request exactly what it returned : its fault is the
latest one, and the signal has it with its response; without a fault the signal is as before. -/
structure Tells (before : Invocation) (returned : Option Fault) (after : Invocation) : Prop where
  fault : after.fault = returned
  quiet : returned = none → after.request.signal = before.request.signal
  signal : ∀ f, returned = some f → ∃ response,
    after.request.signal = some ⟨f, response⟩ ∧ before.Answers f response

theorem Settles.tells {P : Fault → Prop} {i i' : Invocation} {fault : Option Fault}
    (h : i.Settles P fault i') (hfault : i.fault = none) : i.Tells fault i' := by
  cases h with
  | quiet s =>
    exact { fault := hfault, quiet := fun _ => rfl, signal := by simp }
  | @stopped s f response holds answers =>
    refine { fault := rfl, quiet := by simp, signal := ?_ }
    rintro _ ⟨⟩
    exact ⟨response, rfl, answers⟩

theorem Settles.holds {P : Fault → Prop} {i i' : Invocation} {fault : Option Fault}
    (h : i.Settles P fault i') (f : Fault) (hf : fault = some f) : P f := by
  cases h with
  | quiet s => simp at hf
  | stopped s holds answers =>
    obtain rfl := Option.some.inj hf
    exact holds

end Invocation

namespace Engine

/-- Whether all decisions of an engine about a call tell the request exactly what they return, and
each returns only faults that are its own. -/
structure TellsDecisions (e : Engine) (i : Invocation) (pacing : Pacing) (now draw : Nat) : Prop
    where
  route : i.Tells (faultOf (e.route i now draw).1) (e.route i now draw).2.2
  inbound : i.Tells (inbound i).1 (inbound i).2
  admission : i.Tells (e.admission i pacing now).1.fault? (e.admission i pacing now).2.2.2
  ends_route : ∀ f, (e.route i now draw).1 = .error f → f.kind ≠ .failover ∧ f.type ≠ .limit
  ends_inbound : ∀ f, (Engine.inbound i).1 = some f → f.kind ≠ .degrade ∧ f.type ≠ .limit
  ends_admission : ∀ f, (e.admission i pacing now).1 = .refused f →
    f.kind ≠ .failover ∧ (f.type = .limit ↔ e.IsLimited i pacing now)

/-- A fault is returned exactly where it is signalled. -/
theorem tellsDecisions (e : Engine) {i : Invocation} (h : i.fault = none) (pacing : Pacing)
    (now draw : Nat) : e.TellsDecisions i pacing now draw where
  route := (e.settles_route i now draw).tells h
  inbound := (settles_inbound i).tells h
  admission := (e.settles_admission i pacing now).tells h
  ends_route f hf := (e.settles_route i now draw).holds f (by rw [hf]; rfl)
  ends_inbound := (settles_inbound i).holds
  ends_admission f hf := (e.settles_admission i pacing now).holds f (by rw [hf]; rfl)

end Engine

namespace Degraded

/-- A policy with a prepared response. -/
def policy : BreakPolicy := { name := "errors", degrade := some { responseCode := 503 } }

/-- An engine whose service is behind a breaker that is opened and not due. -/
def engine : Engine where
  settings := {}
  context := {}
  store := .start (.ofDocument
    { services := [{ name := "orders", bundle := some { breaks := [policy] } }] })
  balancing := .roundRobin
  breakers :=
    let uri := serviceUri "orders" policy.name
    { entries := .ofList [(uri, ⟨"orders", 0⟩)]
      breakers := [⟨{ Breaker.create uri policy 0 with state := .opened, retryAt := 9 }, 0⟩] }

/-- A call of the service. -/
def call : Invocation := engine.invocation { service := "orders" } []

end Degraded

open Degraded in
/-- The call is answered with the prepared response, and told so. -/
theorem tellsDecisions_degraded :
    call.fault = none ∧
      (engine.admission call .blocking 0).1.fault?.map (·.kind) = some .degrade ∧
      ((engine.admission call .blocking 0).2.2.2.request.signal.bind (·.degrade)) =
        policy.degrade ∧
      engine.TellsDecisions call .blocking 0 0 :=
  ⟨rfl, by decide +kernel, by decide +kernel, engine.tellsDecisions rfl .blocking 0 0⟩

end TrafficControl
