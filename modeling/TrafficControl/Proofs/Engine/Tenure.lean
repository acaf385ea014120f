import TrafficControl.Limit.Call
import TrafficControl.Proofs.Engine.Lookups
import TrafficControl.Proofs.Tenure

/-!
# Tenures of limiters and breakers

What the two registries do at one action after another : limiters and breakers are requested, used
and dropped (`LimiterRegistry.visit`, `BreakerRegistry.visit`).

A request is taken apart into its steps (`LimiterRegistry.request`, `BreakerRegistry.request`).
Where one of them fails (`request_eq_error_iff`), what those before it have changed stays changed.
That they have changed nothing is part of `run_request`, by which the steps come to `getOrCreate`.
So the registries do what they should (`obeys_visit`), and both keep their state, whatever is done
with them.
-/

namespace TrafficControl

/-- A table has as many entries as names. -/
theorem Table.isCount_size {α : Type} (t : Table α) :
    IsCount (fun name => (t.find? name).isSome) t.size := by
  refine ⟨(t.bindings.map Prod.fst).toFinset, fun name => ?_, ?_⟩
  · simp [Option.isSome_iff_exists, find?_eq_some_iff]
  · rw [List.toFinset_card_of_nodup t.nodup, List.length_map]
    rfl

theorem Table.map_find?_retain {α β : Type} (t : Table α) (keep : String → α → Bool)
    (f : α → β) (name : String) :
    ((t.retain keep).find? name).map f = (t.find? name).map f ∨
      ((t.retain keep).find? name).map f = none := by
  rw [find?_retain]
  cases t.find? name with
  | none => exact .inl rfl
  | some a =>
    rw [Option.filter_some]
    split
    · exact .inl rfl
    · exact .inr rfl

/-! ## Steps of a request -/

section Steps

variable {σ ε α β : Type}

theorem run_run_get_bind (f : σ → ExceptT ε (StateM σ) α) (s : σ) :
    (get >>= f).run.run s = (f s).run.run s := rfl

theorem run_run_ok_bind (a : α) (f : α → ExceptT ε (StateM σ) β) (s : σ) :
    (liftM (.ok a : Except ε α) >>= f).run.run s = (f a).run.run s := rfl

/-- The answer to a request and the state after it, which is as it was where the request fails. -/
def outcome (s : σ) : Except ε (α × σ) → Except ε α × σ
  | .ok (a, t) => (.ok a, t)
  | .error e => (.error e, s)

theorem outcome_fst_eq_error_iff {s : σ} {x : Except ε (α × σ)} {e : ε} :
    (outcome s x).1 = .error e ↔ x = .error e := by
  cases x <;> simp [outcome]

end Steps

/-! ## Limiters -/

/-- Something that is done with the limiters. -/
inductive LimiterAction where
  | request (service : String) (p : RatePolicy) (now : Nat)
  /-- Entries are kept or dropped by key, service and policy. -/
  | recycle (keep : String → String → RatePolicy → Bool)
  | call (n now : Nat) (c : LimiterCall)

namespace LimiterRegistry

/-- Make a limiter and register it under a key. -/
def enter (key service : String) (p : RatePolicy) (now : Nat) :
    ExceptT RateError (StateM LimiterRegistry) Nat := do
  let l ← Limiter.create p now
  let n := (← get).limiters.length
  modify fun r => { r with limiters := r.limiters ++ [l] }
  modify fun r => { r with entries := r.entries.insert key { service, limiter := n } }
  return n

/-- The limiter for a service and a policy, requested step by step. -/
def request (service : String) (p : RatePolicy) (now : Nat) :
    ExceptT RateError (StateM LimiterRegistry) Nat := do
  let key := limiterKey service p.name
  if let some (entry, l) := (← get).find? key then
    if l.policy.version = p.version then
      return entry.limiter
  match (← get).find? key with
  | some (entry, l) =>
    if l.policy.version = p.version then
      return entry.limiter
    enter key entry.service p now
  | none => enter key service p now

/-- Drop the entries that `keep` does not want, with their number. It may decide by the key as well,
so that it may also go by what it was asked before. -/
def sweep (r : LimiterRegistry) (keep : String → String → RatePolicy → Bool) :
    Nat × LimiterRegistry :=
  let entries := r.entries.retain fun key e =>
    (r.limiter? e.limiter).all fun l => keep key e.service l.policy
  (r.entries.size - entries.size, { r with entries })

/-- The registry after a call of one of its limiters. -/
def call (r : LimiterRegistry) (n now : Nat) (c : LimiterCall) : LimiterRegistry :=
  match r.limiter? n with
  | none => r
  | some l => r.update n { l with bucket := (l.bucket.call (l.reading now) c).2 }

/-- What comes of an action. -/
def visit (r : LimiterRegistry) : LimiterAction → Visit LimiterRegistry RateError
  | .request service p now =>
    let (answer, r') := (request service p now).run.run r
    ⟨r, .request (limiterKey service p.name) p.version answer, r'⟩
  | .recycle keep =>
    let (dropped, r') := r.sweep keep
    ⟨r, .recycle dropped, r'⟩
  | .call n now c => ⟨r, .use n, r.call n now c⟩

/-- How limiters are kept. -/
def keeping : Keeping LimiterRegistry Limiter where
  shelf := shelf
  size := size
  version l := l.policy.version
  counts r := r.entries.isCount_size.congr fun key => by rw [shelf, Option.isSome_map]

variable (r : LimiterRegistry)

theorem run_enter (key service : String) (p : RatePolicy) (now : Nat) :
    (enter key service p now).run.run r =
      match Limiter.create p now with
      | .ok l => (.ok r.limiters.length, r.register key service l)
      | .error e => (.error e, r) := by
  unfold enter
  cases Limiter.create p now <;> rfl

/-- A request comes to a look-up, and leaves the registry as it was where this fails. -/
theorem run_request (service : String) (p : RatePolicy) (now : Nat) :
    (request service p now).run.run r =
      outcome r (r.getOrCreate service p now) := by
  unfold request getOrCreate
  dsimp only
  rw [run_run_get_bind]
  cases hfound : r.find? (limiterKey service p.name) with
  | none =>
    dsimp only
    rw [run_run_get_bind, hfound]
    dsimp only
    rw [run_enter]
    cases Limiter.create p now <;> rfl
  | some found =>
    obtain ⟨entry, l⟩ := found
    dsimp only
    by_cases hversion : l.policy.version = p.version
    · rw [if_pos hversion, if_pos hversion]
      rfl
    · rw [if_neg hversion, if_neg hversion, run_run_get_bind, hfound]
      dsimp only
      rw [if_neg hversion, run_enter]
      cases Limiter.create p now <;> rfl

/-- A request fails exactly if no limiter of the version is registered and none can be made. -/
theorem request_eq_error_iff (service : String) (p : RatePolicy) (now : Nat) (e : RateError) :
    ((request service p now).run.run r).1 = .error e ↔
      (∀ entry l, r.find? (limiterKey service p.name) = some (entry, l) →
        l.policy.version ≠ p.version) ∧ Limiter.create p now = .error e := by
  have hmade : ∀ owner, ((Limiter.create p now).map fun l =>
      (r.limiters.length, r.register (limiterKey service p.name) owner l)) = .error e ↔
        Limiter.create p now = .error e := by
    intro owner
    cases Limiter.create p now <;> simp [Except.map]
  rw [run_request, outcome_fst_eq_error_iff, getOrCreate]
  cases hfound : r.find? (limiterKey service p.name) with
  | none => exact (hmade service).trans (and_iff_right fun _ _ h => nomatch h).symm
  | some found =>
    obtain ⟨entry, l⟩ := found
    dsimp only
    by_cases hversion : l.policy.version = p.version
    · rw [if_pos hversion]
      exact iff_of_false nofun fun h => h.1 entry l rfl hversion
    · rw [if_neg hversion, hmade]
      refine (and_iff_right fun entry' l' h => ?_).symm
      obtain ⟨rfl, rfl⟩ := Prod.mk.inj (Option.some.inj h)
      exact hversion

theorem recycle_eq_sweep (keep : String → RatePolicy → Bool) :
    r.recycle keep = r.sweep fun _ => keep := rfl

variable {r}

/-- A call of a limiter changes this limiter only. -/
theorem shelf_call {n : Nat} {l : Limiter} (hl : r.limiter? n = some l) (now : Nat)
    (c : LimiterCall) : (r.call n now c).shelf =
      r.shelf.put n { l with bucket := (l.bucket.call (l.reading now) c).2 } := by
  rw [call, hl]
  rfl

/-- Whatever is done, the registry does what it should. -/
theorem obeys_visit (hbounded : r.shelf.IsBounded) (a : LimiterAction) :
    (r.visit a).Obeys keeping := by
  cases a with
  | request service p now =>
    have hget := shelf_getOrCreate service p (hbounded (limiterKey service p.name)) now
    rw [visit, run_request]
    cases hgot : r.getOrCreate service p now with
    | error e => exact .refused r _ _ e
    | ok got =>
      rw [hgot] at hget
      have hmake : ∀ l, Limiter.create p now = .ok l → keeping.version l = p.version :=
        fun l hl => congrArg (·.version) (policy_of_create hl)
      exact .given hmake hget.symm
  | recycle keep =>
    have hobjects : (keeping.shelf (r.sweep keep).2).objects = (keeping.shelf r).objects := rfl
    exact .recycled hobjects (r.entries.map_find?_retain _ _)
  | call n now c =>
    rw [visit]
    cases hl : r.limiter? n with
    | none =>
      rw [call, hl]
      exact .unused r n
    | some l =>
      refine .used hl ?_ (shelf_call hl now c)
      rfl

end LimiterRegistry

/-! ## Breakers -/

/-- Something that is done with the breakers. -/
inductive BreakerAction where
  | request (service uri : String) (p : BreakPolicy) (now : Nat)
  /-- Entries are kept or dropped by URI, service and policy. -/
  | recycle (keep : String → String → BreakPolicy → Bool)
  | call (n now : Nat) (c : BreakerCall)
  | addListener (l : StateListener)

namespace BreakerRegistry

/-- Whether a breaker has a policy of the version given. -/
def hasVersion (r : BreakerRegistry) (n : Nat) (version : UInt64) : Bool :=
  (r.breaker? n).any fun b => b.policy.version = version

/-- Make a breaker and register it under a URI. -/
def enter (uri service : String) (p : BreakPolicy) (now : Nat) :
    ExceptT BreakError (StateM BreakerRegistry) BreakerEntry := do
  let entry := { service, breaker := (← get).breakers.length }
  modify fun r => { r with breakers := r.breakers ++ [⟨.create uri p now, r.listeners.length⟩] }
  modify fun r => { r with entries := r.entries.insert uri entry }
  return entry

/-- The breaker for a URI, requested step by step. -/
def request (service uri : String) (p : BreakPolicy) (now : Nat) :
    ExceptT BreakError (StateM BreakerRegistry) Nat := do
  p.check
  if let some entry := (← get).entries.find? uri then
    if (← get).hasVersion entry.breaker p.version then
      return entry.breaker
  let entry ← match (← get).entries.find? uri with
    | some entry => pure entry
    | none => enter uri service p now
  if (← get).hasVersion entry.breaker p.version then
    return entry.breaker
  return (← enter uri entry.service p now).breaker

/-- Drop the entries that `keep` does not want, with their number. It may decide by the URI as
well. -/
def sweep (r : BreakerRegistry) (keep : String → String → BreakPolicy → Bool) :
    Nat × BreakerRegistry :=
  let entries := r.entries.retain fun uri e =>
    (r.breaker? e.breaker).all fun b => keep uri e.service b.policy
  (r.entries.size - entries.size, { r with entries })

/-- What comes of an action. -/
def visit (r : BreakerRegistry) : BreakerAction → Visit BreakerRegistry BreakError
  | .request service uri p now =>
    let (answer, r') := (request service uri p now).run.run r
    ⟨r, .request uri p.version answer, r'⟩
  | .recycle keep =>
    let (dropped, r') := r.sweep keep
    ⟨r, .recycle dropped, r'⟩
  | .call n now c => ⟨r, .use n, r.call n now c⟩
  | .addListener l => ⟨r, .other, r.addListener l⟩

/-- How breakers are kept. -/
def keeping : Keeping BreakerRegistry Breaker where
  shelf := shelf
  size := size
  version b := b.policy.version
  counts r := r.entries.isCount_size.congr fun key => by rw [shelf, Option.isSome_map]

variable (r : BreakerRegistry)

theorem run_enter_bind {α : Type} (uri service : String) (p : BreakPolicy) (now : Nat)
    (f : BreakerEntry → ExceptT BreakError (StateM BreakerRegistry) α) :
    (enter uri service p now >>= f).run.run r =
      (f ⟨service, r.breakers.length⟩).run.run (r.register uri service p now) := rfl

theorem hasVersion_register (uri service : String) (p : BreakPolicy) (now : Nat) :
    (r.register uri service p now).hasVersion r.breakers.length p.version := by
  simp [hasVersion, breaker?, register, Breaker.create]

theorem getOrCreate_of_check {p : BreakPolicy} (hcheck : p.check = .ok ()) (service uri : String)
    (now : Nat) : r.getOrCreate service uri p now =
      match r.entries.find? uri with
      | some entry =>
        if r.hasVersion entry.breaker p.version then .ok (entry.breaker, r)
        else .ok (r.breakers.length, r.register uri entry.service p now)
      | none => .ok (r.breakers.length, r.register uri service p now) := by
  rw [getOrCreate, hcheck]
  rfl

/-- A request comes to a look-up, and leaves the registry as it was where this fails. -/
theorem run_request (service uri : String) (p : BreakPolicy) (now : Nat) :
    (request service uri p now).run.run r =
      outcome r (r.getOrCreate service uri p now) := by
  cases hcheck : p.check with
  | error e =>
    rw [request, getOrCreate, hcheck]
    rfl
  | ok =>
    rw [getOrCreate_of_check r hcheck, request, hcheck, run_run_ok_bind, run_run_get_bind]
    cases hfound : r.entries.find? uri with
    | none =>
      dsimp only
      rw [run_run_get_bind, hfound]
      dsimp only
      -- the breaker that was just made has the version that is asked for
      rw [run_enter_bind, run_run_get_bind, if_pos (hasVersion_register ..)]
      rfl
    | some entry =>
      dsimp only
      rw [run_run_get_bind]
      by_cases hversion : r.hasVersion entry.breaker p.version
      · rw [if_pos hversion, if_pos hversion]
        rfl
      · rw [if_neg hversion, if_neg hversion, run_run_get_bind, hfound]
        dsimp only
        rw [pure_bind, run_run_get_bind, if_neg hversion, run_enter_bind]
        rfl

/-- A request fails exactly if its policy is refused. -/
theorem request_eq_error_iff (service uri : String) (p : BreakPolicy) (now : Nat) (e : BreakError) :
    ((request service uri p now).run.run r).1 = .error e ↔ p.check = .error e := by
  rw [run_request, outcome_fst_eq_error_iff]
  cases hcheck : p.check with
  | error e' =>
    rw [getOrCreate, hcheck]
    exact ⟨fun h => congrArg _ (Except.error.inj h), fun h => congrArg _ (Except.error.inj h)⟩
  | ok =>
    rw [getOrCreate_of_check r hcheck]
    refine iff_of_false (fun h => ?_) nofun
    split at h
    · split at h <;> exact nomatch h
    · exact nomatch h

theorem recycle_eq_sweep (keep : String → BreakPolicy → Bool) :
    r.recycle keep = r.sweep fun _ => keep := rfl

variable {r}

/-- Whatever is done, the registry does what it should. -/
theorem obeys_visit (a : BreakerAction) : (r.visit a).Obeys keeping := by
  cases a with
  | request service uri p now =>
    have hget := r.shelf_getOrCreate service uri p now
    rw [visit, run_request]
    cases hgot : r.getOrCreate service uri p now with
    | error e => exact .refused r _ _ e
    | ok got =>
      rw [hgot] at hget
      cases hcheck : p.check with
      | error e =>
        rw [hcheck] at hget
        exact nomatch hget
      | ok =>
        rw [hcheck] at hget
        have hmake : ∀ b, (.ok (.create uri p now) : Except BreakError Breaker) = .ok b →
            keeping.version b = p.version := fun b hb => by
          obtain rfl := Except.ok.inj hb
          rfl
        exact .given hmake hget.symm
  | recycle keep =>
    have hobjects : (keeping.shelf (r.sweep keep).2).objects = (keeping.shelf r).objects := rfl
    exact .recycled hobjects (r.entries.map_find?_retain _ _)
  | call n now c =>
    rw [visit]
    cases hb : r.breaker? n with
    | none =>
      rw [call_of_none hb]
      exact .unused r n
    | some b =>
      have hmoves := b.moves_called now (r.announce n (b.told now c)).1 c
      exact .used ((r.getElem?_all n).trans hb) (congrArg (·.version) hmoves.policy)
        (shelf_call hb now c)
  | addListener l => exact .other rfl

end BreakerRegistry

/-- Both registries keep their state, whatever is done with them from the start. -/
theorem keepsState_registries (as : List LimiterAction) (bs : List BreakerAction) :
    KeepsState LimiterRegistry.keeping (Visit.trace LimiterRegistry.visit {} as) ∧
      KeepsState BreakerRegistry.keeping (Visit.trace BreakerRegistry.visit {} bs) := by
  constructor
  · refine keepsState_trace (fun r a => ?_) (fun r a h => LimiterRegistry.obeys_visit h a)
      (fun key => rfl) as
    cases a <;> rfl
  · refine keepsState_trace (fun r a => ?_) (fun r a _ => BreakerRegistry.obeys_visit a)
      (fun key => rfl) bs
    cases a <;> rfl

/-- A policy that is refused leaves the breaker of another version, a valid one takes its place. -/
example : (Visit.trace BreakerRegistry.visit {} [
    .request "s" "u" { name := "p", version := 1 } 0,
    .request "s" "u" { name := "", version := 2 } 1,
    .request "s" "u" { name := "p", version := 1 } 2,
    .request "s" "u" { name := "p", version := 2 } 3,
    .recycle fun _ _ _ => false]).map (fun v => (v.deed, v.after.size)) =
    [(.request "u" 1 (.ok 0), 1), (.request "u" 2 (.error .unnamed), 1),
      (.request "u" 1 (.ok 0), 1), (.request "u" 2 (.ok 1), 1), (.recycle 1, 0)] := by
  decide +kernel

end TrafficControl
