import TrafficControl.Proofs.Engine.Ledger

/-!
# Invariants of breakers in use

A property of a breaker, of the permits of it that are out and of the reports on it holds in every
session if it holds of a new breaker and each operation of one breaker preserves it
(`Breaker.Invariant`). What the engine does around these operations, and in which order calls come
and end, is settled here once and for all (`Session.satisfies_run`).
-/

namespace TrafficControl

/-- A property that the operations of one breaker preserve. -/
structure Breaker.Invariant (I : Breaker → List Permit → List Report → Prop) : Prop where
  make : ∀ uri p now, I (.create uri p now) [] []
  wake : ∀ {b out reports} now, I b out reports → I (b.wake now).2 out reports
  take : ∀ {b out reports now p b'}, I b out reports → b.take now = (p, b') →
    I b' (out ++ p.toList) reports
  giveBack : ∀ {b older p newer reports}, I b (older ++ p :: newer) reports →
    I (b.releasePermit p) (older ++ newer) reports
  report : ∀ {out reports} (r : Report), I r.before out reports → r.permit ∈ out →
    I r.after out (reports ++ [r])

/-! ## The part of one breaker -/

/-- The permits of one breaker. -/
def permitsOf (n : Nat) (out : List (Nat × Permit)) : List Permit :=
  out.filterMap fun q => if q.1 = n then some q.2 else none

/-- The reports on one breaker. -/
def reportsOf (n : Nat) (reports : List Report) : List Report := reports.filter (·.breaker = n)

section
variable {n m : Nat}

theorem permitsOf_append (n : Nat) (older newer : List (Nat × Permit)) :
    permitsOf n (older ++ newer) = permitsOf n older ++ permitsOf n newer :=
  List.filterMap_append ..

theorem permitsOf_cons_self (p : Permit) (out : List (Nat × Permit)) :
    permitsOf n ((n, p) :: out) = p :: permitsOf n out := by
  simp [permitsOf]

theorem permitsOf_cons_of_ne (h : n ≠ m) (p : Permit) (out : List (Nat × Permit)) :
    permitsOf m ((n, p) :: out) = permitsOf m out := by
  simp [permitsOf, h]

/-- What is done to a breaker with each of its permits begins with the first permit of all, if that
is one of them. -/
theorem map_foldl_permitsOf_cons (f : Breaker → Permit → Breaker) (b : Option Breaker) (p : Permit)
    (out : List (Nat × Permit)) :
    b.map ((permitsOf m ((n, p) :: out)).foldl f) =
      (if n = m then b.map (f · p) else b).map ((permitsOf m out).foldl f) := by
  by_cases h : n = m
  · subst h
    rw [permitsOf_cons_self, if_pos rfl, Option.map_map]
    rfl
  · rw [permitsOf_cons_of_ne h, if_neg h]

theorem permitsOf_taken (n : Nat) (p : Option Permit) :
    permitsOf n (p.toList.map (n, ·)) = p.toList := by
  cases p <;> simp [permitsOf]

theorem permitsOf_taken_of_ne (h : n ≠ m) (p : Option Permit) :
    permitsOf m (p.toList.map (n, ·)) = [] := by
  cases p <;> simp [permitsOf, h]

theorem mem_permitsOf {out : List (Nat × Permit)} {p : Permit} (h : (n, p) ∈ out) :
    p ∈ permitsOf n out :=
  List.mem_filterMap.2 ⟨(n, p), h, if_pos rfl⟩

theorem permitsOf_eq_nil {out : List (Nat × Permit)} (h : ∀ q ∈ out, q.1 < n) :
    permitsOf n out = [] := by
  refine List.filterMap_eq_nil_iff.2 fun q hq => ?_
  exact if_neg (Nat.ne_of_lt (h q hq))

theorem reportsOf_eq_nil {reports : List Report} (h : ∀ r ∈ reports, r.breaker < n) :
    reportsOf n reports = [] := by
  refine List.filter_eq_nil_iff.2 fun r hr => ?_
  simpa using Nat.ne_of_lt (h r hr)

end

/-! ## Invariants of ledgers -/

namespace Ledger

/-- Whether permits and reports are of known breakers, and a property holds of each breaker. -/
structure Satisfies (l : Ledger) (I : Breaker → List Permit → List Report → Prop) : Prop where
  out : ∀ q ∈ l.out, q.1 < l.breakers.length
  reports : ∀ r ∈ l.reports, r.breaker < l.breakers.length
  each : ∀ n b, l.breakers[n]? = some b → I b (permitsOf n l.out) (reportsOf n l.reports)

variable {I : Breaker → List Permit → List Report → Prop} {l l' : Ledger}

theorem satisfies_empty : Satisfies {} I where
  out := by simp
  reports := by simp
  each := by simp

/-- It is enough to look at the breaker that changes, if the permits and reports of the others stay
the same. -/
theorem Satisfies.set (h : l.Satisfies I) {n : Nat} {b b' : Breaker}
    (hb : l.breakers[n]? = some b) {out : List (Nat × Permit)} {reports : List Report}
    (hout : ∀ q ∈ out, q ∈ l.out ∨ q.1 = n)
    (hreports : ∀ r ∈ reports, r ∈ l.reports ∨ r.breaker = n)
    (hothers : ∀ m, n ≠ m → permitsOf m out = permitsOf m l.out ∧
      reportsOf m reports = reportsOf m l.reports)
    (hself : I b' (permitsOf n out) (reportsOf n reports)) :
    Satisfies ⟨l.breakers.set n b', out, reports⟩ I where
  out q hq := by
    rw [List.length_set]
    rcases hout q hq with hold | rfl
    · exact h.out q hold
    · exact (List.getElem?_eq_some_iff.1 hb).1
  reports r hr := by
    rw [List.length_set]
    rcases hreports r hr with hold | rfl
    · exact h.reports r hold
    · exact (List.getElem?_eq_some_iff.1 hb).1
  each m c hc := by
    by_cases hm : n = m
    · subst hm
      rw [List.getElem?_set_self (List.getElem?_eq_some_iff.1 hb).1] at hc
      obtain rfl := Option.some.inj hc
      exact hself
    · rw [List.getElem?_set_ne hm] at hc
      rw [(hothers m hm).1, (hothers m hm).2]
      exact h.each m c hc

theorem Satisfies.step (hI : Breaker.Invariant I) (h : l.Satisfies I) (hstep : l.Step l') :
    l'.Satisfies I := by
  cases hstep with
  | make uri p now =>
    refine ⟨fun q hq => ?_, fun r hr => ?_, fun n b hb => ?_⟩
    · exact Nat.lt_of_lt_of_le (h.out q hq) (by simp)
    · exact Nat.lt_of_lt_of_le (h.reports r hr) (by simp)
    · rcases Nat.lt_or_ge n l.breakers.length with hn | hn
      · rw [List.getElem?_append_left hn] at hb
        exact h.each n b hb
      · obtain ⟨hlt, rfl⟩ := List.getElem?_eq_some_iff.1 hb
        obtain rfl : n = l.breakers.length := by simp at hlt; omega
        rw [permitsOf_eq_nil h.out, reportsOf_eq_nil h.reports, List.getElem_concat_length rfl]
        exact hI.make uri p now
  | wake hb now =>
    exact h.set hb (fun q hq => .inl hq) (fun r hr => .inl hr) (fun _ _ => ⟨rfl, rfl⟩)
      (hI.wake now (h.each _ _ hb))
  | @take n now b b' p hb answer =>
    refine h.set hb (fun q hq => ?_) (fun r hr => .inl hr) (fun m hm => ⟨?_, rfl⟩) ?_
    · rcases List.mem_append.1 hq with hold | hnew
      · exact .inl hold
      · obtain ⟨p, -, rfl⟩ := List.mem_map.1 hnew
        exact .inr rfl
    · rw [permitsOf_append, permitsOf_taken_of_ne hm, List.append_nil]
    · rw [permitsOf_append, permitsOf_taken]
      exact hI.take (h.each _ _ hb) answer
  | @giveBack n p older newer hout =>
    have hn : n < l.breakers.length := h.out (n, p) (by simp [hout])
    have hb : l.breakers[n]? = some l.breakers[n] := List.getElem?_eq_getElem hn
    have hmodify : l.breakers.modify n (·.releasePermit p) =
        l.breakers.set n (l.breakers[n].releasePermit p) := by
      rw [List.modify_eq_set_getElem?, hb]
      rfl
    have hself := h.each n _ hb
    rw [hout, permitsOf_append, permitsOf_cons_self] at hself
    have hsub := (List.sublist_cons_self (n, p) newer).append_left older
    rw [hmodify]
    refine h.set hb (fun q hq => .inl ?_) (fun r hr => .inl hr) (fun m hm => ⟨?_, rfl⟩) ?_
    · rw [hout]
      exact hsub.subset hq
    · rw [hout, permitsOf_append, permitsOf_append, permitsOf_cons_of_ne hm]
    · rw [permitsOf_append]
      exact hI.giveBack hself
  | report r hb hout =>
    refine h.set hb (fun q hq => .inl hq) (fun r' hr => ?_) (fun m hm => ⟨rfl, ?_⟩) ?_
    · rcases List.mem_append.1 hr with hold | hnew
      · exact .inl hold
      · obtain rfl := List.mem_singleton.1 hnew
        exact .inr rfl
    · simp [reportsOf, hm]
    · have hreports : reportsOf r.breaker (l.reports ++ [r]) =
          reportsOf r.breaker l.reports ++ [r] := by
        simp [reportsOf]
      rw [hreports]
      exact hI.report r (h.each _ _ hb) (mem_permitsOf hout)

/-- What every operation of one breaker preserves, every number of steps does. -/
theorem Satisfies.steps (hI : Breaker.Invariant I) (h : l.Satisfies I) (hsteps : l.Steps l') :
    l'.Satisfies I := by
  induction hsteps with
  | refl => exact h
  | tail _ hstep ih => exact ih.step hI hstep

end Ledger

namespace Session

/-- An invariant of breakers holds after every run of an engine. -/
theorem satisfies_run {I : Breaker → List Permit → List Report → Prop} (hI : Breaker.Invariant I)
    (settings : Settings) (context : Context) (snapshot : Snapshot) (balancing : Balancing)
    (now : Nat) (events : List Event) :
    ((start settings context snapshot balancing now).run events).ledger.Satisfies I :=
  Ledger.satisfies_empty.steps hI (steps_run (start settings context snapshot balancing now) events)

end Session

end TrafficControl
