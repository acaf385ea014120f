import Mathlib.Data.List.Perm.Subperm
import TrafficControl.Proofs.Engine.Permits

/-!
# What closes a breaker

A half-open breaker is meant to be closed by its trials, and to be opened again by one of them. But
the end of a call is reported to it without the permit that the call held, so a call from before,
that ends while trials are under way, is taken for a trial (`not_onlyTrialsDecide`). A call is also
counted twice if two policies of one name let it hold two permits. `Session.onlyTrialsDecide_iff`
says that there is no other way : trials alone decide exactly if no such call intrudes.
-/

namespace TrafficControl

namespace Report

/-- Whether the call was admitted before the breaker last changed its state. -/
def IsStale (r : Report) : Prop := r.permit.generation ≠ r.before.generation

/-- Whether the call held a trial permit of a generation. -/
def IsTrialOf (r : Report) (generation : Nat) : Prop :=
  r.permit.trial ∧ r.permit.generation = generation

/-- Whether a half-open breaker of a generation was told of a success. -/
def isSuccessOf (r : Report) (generation : Nat) : Bool :=
  r.before.state = .halfOpen && (r.before.generation = generation && r.outcome?.any (·.isGood))

/-- Whether the half-open breaker closed. -/
def Closes (r : Report) : Prop := r.before.state = .halfOpen ∧ r.after.state = .closed

/-- Whether the half-open breaker opened again. -/
def Reopens (r : Report) : Prop := r.before.state = .halfOpen ∧ r.after.state = .opened

variable {r : Report}

theorem after_of_none (h : r.outcome? = none) : r.after = r.before := by
  rw [after, Breaker.complete_of_none h]

theorem records {o : Outcome} (h : r.outcome? = some o) :
    ∃ c, r.before.Records o r.now c r.after := by
  rcases hrecord : r.before.record o r.now with ⟨c, b⟩
  refine ⟨c, ?_⟩
  rw [after, Breaker.complete_of_outcome h, hrecord]
  exact Breaker.records hrecord

/-- A report changes the state or the successes if it finds the breaker half-open, or closed and
opens it. -/
theorem unchanged_iff : r.after.state = r.before.state ∧ r.after.successes = r.before.successes ↔
    r.outcome? = none ∨ r.before.state = .opened ∨
      r.before.state = .closed ∧ r.after.state = .closed := by
  cases houtcome : r.outcome? with
  | none => simp [after_of_none houtcome]
  | some o =>
    obtain ⟨c, hrecords⟩ := records houtcome
    generalize r.after = b at hrecords ⊢
    cases hrecords with
    | ignored h => simp [h]
    | counted h => simp [h]
    | tripped h => simp [h]
    | failed h => simp [h]
    | passed h => simp [h]
    | healed h => simp [h]

/-- A breaker opens again only at a failed or slow call. -/
theorem exists_bad_of_reopens (h : r.Reopens) : ∃ o, r.outcome? = some o ∧ ¬o.isGood := by
  obtain ⟨hopen, hopened⟩ := h
  cases houtcome : r.outcome? with
  | none =>
    rw [after_of_none houtcome] at hopened
    exact nomatch hopen.symm.trans hopened
  | some o =>
    refine ⟨o, rfl, fun good => ?_⟩
    obtain ⟨c, hrecords⟩ := records houtcome
    generalize r.after = b at hrecords hopened
    cases hrecords with
    | ignored h => exact nomatch hopen.symm.trans h
    | counted h => exact nomatch hopen.symm.trans h
    | tripped h => exact nomatch hopen.symm.trans h
    | failed _ bad => exact bad good
    | passed h => exact nomatch hopen.symm.trans hopened
    | healed => exact nomatch hopened

theorem isSuccessOf_self (hopen : r.before.state = .halfOpen) {o : Outcome}
    (houtcome : r.outcome? = some o) : r.isSuccessOf r.before.generation = o.isGood := by
  simp [isSuccessOf, hopen, houtcome]

end Report

namespace Breaker

/-- Whether a breaker, if it is half-open, counts the successes of this round, and closed after the
last one of earlier rounds. -/
structure CountsSuccesses (b : Breaker) (out : List Permit) (reports : List Report) : Prop where
  past : ∀ p ∈ out, p.generation ≤ b.generation
  current : ∀ p ∈ out, p.generation = b.generation → (p.trial ↔ b.state = .halfOpen)
  before : ∀ r ∈ reports, r.before.generation ≤ b.generation
  trials : ∀ r ∈ reports, ¬r.IsStale → (r.permit.trial ↔ r.before.state = .halfOpen)
  successes : b.state = .halfOpen →
    b.successes = reports.countP (·.isSuccessOf b.generation) ∧ b.successes < b.trialLimit
  closed : ∀ r ∈ reports, r.Closes → r.before.generation < b.generation ∧
    reports.countP (·.isSuccessOf r.before.generation) = r.before.trialLimit

variable {b : Breaker} {out : List Permit} {reports : List Report}

theorem CountsSuccesses.wake (h : b.CountsSuccesses out reports) (now : Nat) :
    (b.wake now).2.CountsSuccesses out reports := by
  by_cases hdue : b.state = .opened ∧ b.isDue now
  · have hnone : reports.countP (·.isSuccessOf (b.generation + 1)) = 0 := by
      refine List.countP_eq_zero.2 fun r hr => ?_
      have hne := Nat.ne_of_lt (Nat.lt_succ_of_le (h.before r hr))
      simp [Report.isSuccessOf, hne]
    rw [wake_of_due hdue.1 hdue.2]
    refine ⟨fun p hp => Nat.le_succ_of_le (h.past p hp), fun p hp hgen => ?_,
      fun r hr => Nat.le_succ_of_le (h.before r hr), h.trials, fun _ => ⟨hnone.symm, ?_⟩,
      fun r hr hcloses => ?_⟩
    · exact absurd hgen (Nat.ne_of_lt (Nat.lt_succ_of_le (h.past p hp)))
    · exact trialLimit_pos _
    · exact ⟨Nat.lt_succ_of_lt (h.closed r hr hcloses).1, (h.closed r hr hcloses).2⟩
  · rw [wake_of_not_due hdue]
    exact h

/-- It makes no difference to a round which of its permits are out. -/
theorem CountsSuccesses.of_stays (h : b.CountsSuccesses out reports) {b' : Breaker}
    {out' : List Permit} (hstays : b.Stays b') (hsuccesses : b'.successes = b.successes)
    (hout : ∀ p ∈ out', p ∈ out ∨
      p.generation = b.generation ∧ (p.trial ↔ b.state = .halfOpen)) :
    b'.CountsSuccesses out' reports := by
  constructor
  · intro p hp
    rw [hstays.generation]
    rcases hout p hp with hold | hnew
    · exact h.past p hold
    · exact Nat.le_of_eq hnew.1
  · intro p hp
    rw [hstays.generation, hstays.state]
    rcases hout p hp with hold | hnew
    · exact h.current p hold
    · exact fun _ => hnew.2
  · rw [hstays.generation]
    exact h.before
  · exact h.trials
  · rw [hstays.generation, hstays.state, hsuccesses, hstays.trialLimit]
    exact h.successes
  · rw [hstays.generation]
    exact h.closed

theorem CountsSuccesses.take (h : b.CountsSuccesses out reports) {now : Nat} {p : Option Permit}
    {b' : Breaker} (htake : b.take now = (p, b')) :
    b'.CountsSuccesses (out ++ p.toList) reports := by
  have hstays := b.stays_take now
  rw [htake] at hstays
  have hpermit : b'.successes = b.successes ∧
      ∀ q ∈ p.toList, q.generation = b.generation ∧ (q.trial ↔ b.state = .halfOpen) := by
    cases takes htake with
    | free hclosed => simp [hclosed]
    | trial hopen => simp [hopen]
    | none => simp
  refine h.of_stays hstays hpermit.1 fun q hq => ?_
  rcases List.mem_append.1 hq with hold | hnew
  · exact .inl hold
  · exact .inr (hpermit.2 q hnew)

theorem CountsSuccesses.giveBack {older newer : List Permit} {p : Permit}
    (h : b.CountsSuccesses (older ++ p :: newer) reports) :
    (b.releasePermit p).CountsSuccesses (older ++ newer) reports := by
  have hsuccesses : (b.releasePermit p).successes = b.successes := by
    unfold releasePermit release
    split
    · split <;> rfl
    · rfl
  have hsub := (List.sublist_cons_self p newer).append_left older
  exact h.of_stays (b.stays_releasePermit p) hsuccesses fun q hq => .inl (hsub.subset hq)

/-- What is left to show when a breaker is told of an end : that it counts the successes of the
round it is in then, and if it closes, that it did so at the last one. -/
theorem CountsSuccesses.report_of {r : Report} (h : r.before.CountsSuccesses out reports)
    (hp : r.permit ∈ out)
    (hround : r.after.state = r.before.state ∧ r.after.generation = r.before.generation ∨
      r.before.generation < r.after.generation)
    (hsuccesses : r.after.state = .halfOpen →
      r.after.successes = (reports ++ [r]).countP (·.isSuccessOf r.after.generation) ∧
        r.after.successes < r.after.trialLimit)
    (hcloses : r.Closes → r.before.generation < r.after.generation ∧
      (reports ++ [r]).countP (·.isSuccessOf r.before.generation) = r.before.trialLimit) :
    r.after.CountsSuccesses out (reports ++ [r]) := by
  have hle : r.before.generation ≤ r.after.generation := by omega
  constructor
  · exact fun p hp => Nat.le_trans (h.past p hp) hle
  · intro p hp hgen
    rcases hround with ⟨hstate, hsame⟩ | hlt
    · rw [hstate]
      exact h.current p hp (hgen.trans hsame)
    · exact absurd (h.past p hp) (by omega)
  · intro r' hr'
    rcases List.mem_append.1 hr' with hold | hnew
    · exact Nat.le_trans (h.before r' hold) hle
    · obtain rfl := List.mem_singleton.1 hnew
      exact hle
  · intro r' hr' hcurrent
    rcases List.mem_append.1 hr' with hold | hnew
    · exact h.trials r' hold hcurrent
    · obtain rfl := List.mem_singleton.1 hnew
      exact h.current _ hp (Decidable.not_not.1 hcurrent)
  · exact hsuccesses
  · intro r' hr' hr'closes
    rcases List.mem_append.1 hr' with hold | hnew
    · obtain ⟨hlt, hcount⟩ := h.closed r' hold hr'closes
      -- The round of `r'` is over, so `r` is no success of it.
      have hother : r.isSuccessOf r'.before.generation = false := by
        simp [Report.isSuccessOf, Nat.ne_of_gt hlt]
      refine ⟨Nat.lt_of_lt_of_le hlt hle, ?_⟩
      rw [List.countP_append, hcount, List.countP_singleton, hother]
      rfl
    · obtain rfl := List.mem_singleton.1 hnew
      exact hcloses hr'closes

theorem countP_report (r : Report) (reports : List Report) :
    (reports ++ [r]).countP (·.isSuccessOf r.before.generation) =
      reports.countP (·.isSuccessOf r.before.generation) +
        if r.isSuccessOf r.before.generation then 1 else 0 := by
  rw [List.countP_append, List.countP_singleton]

/-- A report that is no success and leaves the state as it is. -/
theorem CountsSuccesses.report_of_same {r : Report} (h : r.before.CountsSuccesses out reports)
    (hp : r.permit ∈ out) (hno : ¬r.isSuccessOf r.before.generation)
    (hstays : r.before.Stays r.after) (hsuccesses : r.after.successes = r.before.successes) :
    r.after.CountsSuccesses out (reports ++ [r]) := by
  refine h.report_of hp (.inl ⟨hstays.state, hstays.generation⟩) (fun hopen => ?_) fun hcloses => ?_
  · rw [hstays.generation, hsuccesses, hstays.trialLimit, countP_report, if_neg hno]
    exact h.successes (hstays.state.symm.trans hopen)
  · exact nomatch hcloses.1.symm.trans (hstays.state.symm.trans hcloses.2)

/-- A report at which the breaker opens. -/
theorem CountsSuccesses.report_of_opened {r : Report} (h : r.before.CountsSuccesses out reports)
    (hp : r.permit ∈ out) (hopened : r.after.state = .opened)
    (hgen : r.after.generation = r.before.generation + 1) :
    r.after.CountsSuccesses out (reports ++ [r]) :=
  h.report_of hp (.inr (by omega)) (fun hopen => nomatch hopened.symm.trans hopen)
    fun hcloses => nomatch hopened.symm.trans hcloses.2

theorem CountsSuccesses.report {r : Report} (h : r.before.CountsSuccesses out reports)
    (hp : r.permit ∈ out) : r.after.CountsSuccesses out (reports ++ [r]) := by
  have hclosed : r.before.state ≠ .halfOpen → ¬r.isSuccessOf r.before.generation := by
    intro hstate
    simp [Report.isSuccessOf, hstate]
  cases houtcome : r.outcome? with
  | none =>
    have hno : ¬r.isSuccessOf r.before.generation := by simp [Report.isSuccessOf, houtcome]
    refine h.report_of_same hp hno ?_ ?_
    · rw [Report.after_of_none houtcome]
      exact .refl _
    · rw [Report.after_of_none houtcome]
  | some o =>
    obtain ⟨c, hrecords⟩ := Report.records houtcome
    have hself := fun hopen => Report.isSuccessOf_self (r := r) hopen houtcome
    obtain ⟨b, hafter⟩ : ∃ b, r.after = b := ⟨_, rfl⟩
    rw [hafter] at hrecords
    cases hrecords with
    | ignored hopened =>
      refine h.report_of_same hp (hclosed (by simp [hopened])) ?_ (by rw [hafter])
      rw [hafter]
      exact .refl _
    | counted hstate =>
      refine h.report_of_same hp (hclosed (by simp [hstate])) ?_ (by rw [hafter])
      rw [hafter]
      exact ⟨rfl, rfl, rfl, rfl, rfl, rfl⟩
    | tripped => exact h.report_of_opened hp (by rw [hafter]; rfl) (by rw [hafter]; rfl)
    | failed => exact h.report_of_opened hp (by rw [hafter]; rfl) (by rw [hafter]; rfl)
    | passed hopen good few =>
      have hyes : r.isSuccessOf r.before.generation := (hself hopen).trans good
      refine h.report_of hp (.inl ⟨by rw [hafter], by rw [hafter]⟩) (fun _ => ?_) fun hcloses => ?_
      · rw [hafter]
        refine ⟨?_, few⟩
        change r.before.successes + 1 = _
        rw [countP_report, if_pos hyes, (h.successes hopen).1]
      · have hstill : r.after.state = .halfOpen := by rw [hafter]; exact hopen
        exact nomatch hstill.symm.trans hcloses.2
    | healed hopen good enough =>
      have hyes : r.isSuccessOf r.before.generation := (hself hopen).trans good
      have hgen : r.before.generation < r.after.generation := by
        rw [hafter]
        exact Nat.lt_succ_self _
      refine h.report_of hp (.inr hgen) (fun hhalf => ?_) fun _ => ⟨hgen, ?_⟩
      · rw [hafter] at hhalf
        exact nomatch hhalf
      · obtain ⟨hcount, hlt⟩ := h.successes hopen
        rw [countP_report, if_pos hyes, ← hcount]
        omega

theorem invariant_countsSuccesses : Invariant CountsSuccesses where
  make _ _ _ := ⟨by simp, by simp, by simp, by simp, fun hopen => (nomatch hopen), by simp⟩
  wake now h := h.wake now
  take h htake := h.take htake
  giveBack h := h.giveBack
  report _ h hp := h.report hp

end Breaker

/-! ## Rounds end by reports -/

namespace Ledger

/-- Whether a half-open breaker is in the same round still, or left it at one of some reports. -/
def LeavesBy (reports : List Report) (n : Nat) (b b' : Breaker) : Prop :=
  b'.state = .halfOpen ∧ b'.generation = b.generation ∨
    ∃ r ∈ reports, r.breaker = n ∧ r.before.state = .halfOpen ∧
      r.before.generation = b.generation ∧ r.after.state ≠ .halfOpen

variable {l l' : Ledger} {n : Nat} {b : Breaker}

theorem Step.leavesBy (h : l.Step l') (hb : l.breakers[n]? = some b) :
    ∃ new b', l'.reports = l.reports ++ new ∧ l'.breakers[n]? = some b' ∧
      (b.state = .halfOpen → LeavesBy new n b b') := by
  have hsame : l.reports = l.reports ++ [] := (List.append_nil _).symm
  have hset : ∀ {m c c'}, l.breakers[m]? = some c → (c.state = .halfOpen → c.Stays c') →
      ∃ b', (l.breakers.set m c')[n]? = some b' ∧ (b.state = .halfOpen → LeavesBy [] n b b') := by
    intro m c c' hc hstays
    by_cases hm : m = n
    · subst hm
      obtain rfl := Option.some.inj (hc.symm.trans hb)
      refine ⟨c', List.getElem?_set_self (List.getElem?_eq_some_iff.1 hc).1, fun hopen => ?_⟩
      exact .inl ⟨(hstays hopen).state.trans hopen, (hstays hopen).generation⟩
    · exact ⟨b, by rw [List.getElem?_set_ne hm, hb], fun hopen => .inl ⟨hopen, rfl⟩⟩
  cases h with
  | make uri p now =>
    have hlt := (List.getElem?_eq_some_iff.1 hb).1
    exact ⟨[], b, hsame, by rw [List.getElem?_append_left hlt, hb], fun hopen => .inl ⟨hopen, rfl⟩⟩
  | @wake m c hc now =>
    have hstays : c.state = .halfOpen → c.Stays (c.wake now).2 := by
      intro hopen
      rw [Breaker.wake_of_not_due fun hdue => nomatch hopen.symm.trans hdue.1]
      exact .refl c
    obtain ⟨b', hb', hleaves⟩ := hset hc hstays
    exact ⟨[], b', hsame, hb', hleaves⟩
  | @take m now c c' p hc answer =>
    have hstays := c.stays_take now
    rw [answer] at hstays
    obtain ⟨b', hb', hleaves⟩ := hset hc fun _ => hstays
    exact ⟨[], b', hsame, hb', hleaves⟩
  | @giveBack m p older newer hout =>
    refine ⟨[], if m = n then b.releasePermit p else b, hsame, ?_, fun hopen => ?_⟩
    · rw [List.getElem?_modify, hb]
      split <;> rfl
    · have hstays := b.stays_releasePermit p
      split
      · exact .inl ⟨hstays.state.trans hopen, hstays.generation⟩
      · exact .inl ⟨hopen, rfl⟩
  | report r hc hout =>
    by_cases hm : r.breaker = n
    · subst hm
      obtain rfl := Option.some.inj (hc.symm.trans hb)
      refine ⟨[r], r.after, rfl, List.getElem?_set_self (List.getElem?_eq_some_iff.1 hc).1, ?_⟩
      intro hopen
      have hmoves := r.before.moves_complete r.micros r.cause r.now
      by_cases hstate : r.after.state = .halfOpen
      · exact .inl ⟨hstate, hmoves.generation_of_halfOpen hopen hstate⟩
      · exact .inr ⟨r, List.mem_singleton_self r, rfl, hopen, rfl, hstate⟩
    · exact ⟨[r], b, rfl, by rw [List.getElem?_set_ne hm, hb], fun hopen => .inl ⟨hopen, rfl⟩⟩

/-- A half-open breaker stays so until the round ends by a report. -/
theorem Steps.leavesBy (h : l.Steps l') (hb : l.breakers[n]? = some b) :
    ∃ new b', l'.reports = l.reports ++ new ∧ l'.breakers[n]? = some b' ∧
      (b.state = .halfOpen → LeavesBy new n b b') := by
  induction h with
  | refl => exact ⟨[], b, (List.append_nil _).symm, hb, fun hopen => .inl ⟨hopen, rfl⟩⟩
  | tail _ hstep ih =>
    obtain ⟨new, b', hreports, hb', hleaves⟩ := ih
    obtain ⟨more, b'', hmore, hb'', hleaves'⟩ := hstep.leavesBy hb'
    refine ⟨new ++ more, b'', by rw [hmore, hreports, List.append_assoc], hb'', fun hopen => ?_⟩
    rcases hleaves hopen with ⟨hopen', hgen⟩ | ⟨r, hr, hleft⟩
    · rcases hleaves' hopen' with ⟨hopen'', hgen'⟩ | ⟨r, hr, hn, hbefore, hgen', hafter⟩
      · exact .inl ⟨hopen'', hgen'.trans hgen⟩
      · exact .inr ⟨r, List.mem_append_right _ hr, hn, hbefore, hgen'.trans hgen, hafter⟩
    · exact .inr ⟨r, List.mem_append_left _ hr, hleft⟩

end Ledger

/-! ## Sessions -/

namespace Session

/-- The successes of which a breaker was told in the round of a report. -/
def successesWith (s : Session) (r : Report) : List Report :=
  (reportsOf r.breaker s.reports).filter (·.isSuccessOf r.before.generation)

/-- Whether half-open breakers are closed by their trials, and opened again by them, alone. -/
structure OnlyTrialsDecide (s : Session) : Prop where
  /-- As many calls succeeded as a breaker grants trials, each with a trial permit of the round. -/
  closes : ∀ r ∈ s.reports, r.Closes → ∃ calls : List Nat, calls.Nodup ∧
    r.before.trialLimit ≤ calls.length ∧
      ∀ c ∈ calls, ∃ r' ∈ s.successesWith r, r'.call = c ∧ r'.IsTrialOf r.before.generation
  /-- A call with a trial permit of the round failed or was slow. -/
  reopens : ∀ r ∈ s.reports, r.Reopens → r.IsTrialOf r.before.generation ∧
    ∃ o, r.outcome? = some o ∧ ¬o.isGood
  /-- A call from before changes nothing. -/
  stale : ∀ r ∈ s.reports, r.IsStale →
    r.after.state = r.before.state ∧ r.after.successes = r.before.successes

/-- Whether no call from before intrudes, and no call counts twice. -/
structure IsUndisturbed (s : Session) : Prop where
  /-- No call from before ends with an outcome while a breaker is half-open. -/
  halfOpen : ∀ r ∈ s.reports, r.IsStale → r.before.state = .halfOpen → r.outcome? = none
  /-- No call from before opens a breaker that has closed since. -/
  closed : ∀ r ∈ s.reports, r.IsStale → r.before.state = .closed → r.after.state = .closed
  /-- The successes that close a breaker are those of different calls. -/
  once : ∀ r ∈ s.reports, r.Closes → ((s.successesWith r).map (·.call)).Nodup

section
variable {s : Session} {r : Report}

theorem mem_of_mem_successesWith {r' : Report} (h : r' ∈ s.successesWith r) :
    r' ∈ s.reports ∧ r'.isSuccessOf r.before.generation := by
  obtain ⟨hmem, hsuccess⟩ := List.mem_filter.1 h
  exact ⟨(List.mem_filter.1 hmem).1, hsuccess⟩

/-- What is known of a report in a session whose breakers count their successes. -/
theorem exists_countsSuccesses (h : s.ledger.Satisfies Breaker.CountsSuccesses)
    (hr : r ∈ s.reports) :
    (¬r.IsStale → (r.permit.trial ↔ r.before.state = .halfOpen)) ∧
      (r.Closes → (s.successesWith r).length = r.before.trialLimit) := by
  have hlt : r.breaker < s.ledger.breakers.length := h.reports r hr
  have hcounts := h.each r.breaker _ (List.getElem?_eq_getElem hlt)
  have hmem : r ∈ reportsOf r.breaker s.reports := by simp [reportsOf, hr]
  refine ⟨hcounts.trials r hmem, fun hcloses => ?_⟩
  rw [successesWith, ← List.countP_eq_length_filter]
  exact (hcounts.closed r hmem hcloses).2

theorem onlyTrialsDecide_iff_isUndisturbed (h : s.ledger.Satisfies Breaker.CountsSuccesses) :
    s.OnlyTrialsDecide ↔ s.IsUndisturbed := by
  constructor
  · intro honly
    constructor
    · intro r hr hstale hopen
      rcases Report.unchanged_iff.1 (honly.stale r hr hstale) with hnone | hopened | ⟨hclosed, -⟩
      · exact hnone
      · exact nomatch hopen.symm.trans hopened
      · exact nomatch hopen.symm.trans hclosed
    · intro r hr hstale hclosed
      exact (honly.stale r hr hstale).1.trans hclosed
    · intro r hr hcloses
      obtain ⟨calls, hnodup, hlimit, hcalls⟩ := honly.closes r hr hcloses
      have hlength := (exists_countsSuccesses h hr).2 hcloses
      have hsub : calls ⊆ (s.successesWith r).map (·.call) := by
        intro c hc
        obtain ⟨r', hr', hcall, -⟩ := hcalls c hc
        exact List.mem_map.2 ⟨r', hr', hcall⟩
      -- There are as many calls as successes, so every success is that of another call.
      have hperm := (List.subperm_of_subset hnodup hsub).perm_of_length_le
        (by rw [List.length_map, hlength]; exact hlimit)
      exact hperm.nodup_iff.1 hnodup
  · intro hun
    have hcurrent : ∀ r ∈ s.reports, r.before.state = .halfOpen → r.outcome? ≠ none →
        r.IsTrialOf r.before.generation := by
      intro r hr hopen houtcome
      have hfresh : ¬r.IsStale := fun hstale => houtcome (hun.halfOpen r hr hstale hopen)
      exact ⟨((exists_countsSuccesses h hr).1 hfresh).2 hopen, Decidable.not_not.1 hfresh⟩
    constructor
    · intro r hr hcloses
      refine ⟨(s.successesWith r).map (·.call), hun.once r hr hcloses, ?_, fun c hc => ?_⟩
      · rw [List.length_map]
        exact Nat.le_of_eq ((exists_countsSuccesses h hr).2 hcloses).symm
      · obtain ⟨r', hr', rfl⟩ := List.mem_map.1 hc
        obtain ⟨hmem, hsuccess⟩ := mem_of_mem_successesWith hr'
        simp only [Report.isSuccessOf, Bool.and_eq_true, decide_eq_true_eq] at hsuccess
        obtain ⟨hopen, hgen, hgood⟩ := hsuccess
        have htrial := hcurrent r' hmem hopen fun hnone => by simp [hnone] at hgood
        exact ⟨r', hr', rfl, hgen ▸ htrial⟩
    · intro r hr hreopens
      obtain ⟨o, houtcome, hbad⟩ := Report.exists_bad_of_reopens hreopens
      exact ⟨hcurrent r hr hreopens.1 (by simp [houtcome]), o, houtcome, hbad⟩
    · intro r hr hstale
      rw [Report.unchanged_iff]
      cases hstate : r.before.state with
      | closed => exact .inr (.inr ⟨rfl, hun.closed r hr hstale hstate⟩)
      | opened => exact .inr (.inl rfl)
      | halfOpen => exact .inl (hun.halfOpen r hr hstale hstate)

end

/-- In every run of an engine, a half-open breaker is left only at a report, and trials alone decide
which way exactly if no call from before intrudes and no call counts twice. -/
theorem onlyTrialsDecide_iff (settings : Settings) (context : Context) (snapshot : Snapshot)
    (balancing : Balancing) (now : Nat) (events : List Event) :
    let s := (start settings context snapshot balancing now).run events
    (∀ event n b, s.breaker? n = some b → b.state = .halfOpen →
      ∃ new b', (s.step event).reports = s.reports ++ new ∧ (s.step event).breaker? n = some b' ∧
        Ledger.LeavesBy new n b b') ∧
      (s.OnlyTrialsDecide ↔ s.IsUndisturbed) := by
  intro s
  constructor
  · intro event n b hb hopen
    have hall : ∀ t : Session, t.ledger.breakers[n]? = t.breaker? n :=
      fun t => BreakerRegistry.getElem?_all ..
    obtain ⟨new, b', hreports, hb', hleaves⟩ := (s.steps_step event).leavesBy ((hall s).trans hb)
    exact ⟨new, b', hreports, (hall _).symm.trans hb', hleaves hopen⟩
  · have hcounts := satisfies_run Breaker.invariant_countsSuccesses settings context snapshot
      balancing now events
    exact onlyTrialsDecide_iff_isUndisturbed hcounts

end Session

/-! ## A call from before -/

namespace OneBreaker

/-- The call that was under way before the breaker opened ends well while the trial is under way. -/
def intruding : List Event := trying ++ [.complete 0 (.success 5)]

end OneBreaker

open OneBreaker in
/-- The breaker closes at the end of a call that was admitted before it opened. -/
theorem not_onlyTrialsDecide : ¬(session.run intruding).OnlyTrialsDecide := by
  intro h
  have hlast : (0, 2, BreakerState.halfOpen, BreakerState.closed) ∈
      (session.run intruding).reports.map fun r =>
        (r.permit.generation, r.before.generation, r.before.state, r.after.state) := by
    decide
  obtain ⟨r, hr, heq⟩ := List.mem_map.1 hlast
  simp only [Prod.mk.injEq] at heq
  obtain ⟨hpermit, hround, hbefore, hafter⟩ := heq
  have hstale : r.IsStale := by simp [Report.IsStale, hpermit, hround]
  exact nomatch hbefore.symm.trans ((h.stale r hr hstale).1.symm.trans hafter)

end TrafficControl
