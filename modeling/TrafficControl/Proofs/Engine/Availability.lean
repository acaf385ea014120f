import TrafficControl.Proofs.Breaker.Room
import TrafficControl.Proofs.Engine.Lookups

/-!
# Calls past available breakers

A breaker is available if it would grant one more permit. A call takes a permit for every policy
that guards it and is valid, one after the other (`Engine.TakesAll`), and policies of one name and
version share a breaker. So it is not enough that all breakers are available : one that is asked for
several permits must have room for all of them (`Breaker.hasRoom`, `permitsAsked`), and this is all
that it takes, besides listeners that do not fail (`Session.takesAll_iff`). A breaker that grants a
single trial, and is asked for two, refuses every call for good (`not_admitsAvailable`).

One step of the walk along the guards takes from the room of one breaker what it takes from the
permits that are still to be asked of it (`Breaker.exists_take_of_hasRoom`), or makes a new breaker,
which has room for any number. For the other breakers it is the same as before, because each
registered breaker is there under one URI only (`BreakerRegistry.IsApart`).
-/

namespace TrafficControl

/-- Whether a policy may get a breaker. -/
def BreakPolicy.isValid (p : BreakPolicy) : Bool := p.check.isOk

/-! ## Registries -/

namespace BreakerRegistry

variable {r r' : BreakerRegistry} {uri service : String} {p : BreakPolicy} {b : Breaker}
  {now n m : Nat}

/-- Whether each registered breaker is there, under one URI only. -/
structure IsApart (r : BreakerRegistry) : Prop where
  bounded : ∀ uri n, r.number? uri = some n → n < r.breakers.length
  single : ∀ uri uri' n, r.number? uri = some n → r.number? uri' = some n → uri = uri'

theorem find?_eq_some_iff_number? :
    r.find? uri = some b ↔ ∃ n, r.number? uri = some n ∧ r.breaker? n = some b :=
  Option.bind_eq_some_iff

theorem number?_register (r : BreakerRegistry) (uri service : String) (p : BreakPolicy)
    (now : Nat) (k : String) : (r.register uri service p now).number? k =
      if k = uri then some r.breakers.length else r.number? k := by
  rw [number?, register, Table.find?_insert]
  split <;> rfl

theorem IsApart.register (h : r.IsApart) (uri service : String) (p : BreakPolicy) (now : Nat) :
    (r.register uri service p now).IsApart := by
  have hlength : (r.register uri service p now).breakers.length = r.breakers.length + 1 :=
    List.length_append
  constructor
  · intro k n hk
    rw [number?_register] at hk
    rw [hlength]
    split at hk
    · obtain rfl := Option.some.inj hk
      exact Nat.lt_succ_self _
    · exact Nat.lt_succ_of_lt (h.bounded k n hk)
  · intro k k' n hk hk'
    rw [number?_register] at hk hk'
    split at hk <;> split at hk'
    · next heq heq' => rw [heq, heq']
    · obtain rfl := Option.some.inj hk
      exact absurd (h.bounded k' _ hk') (Nat.lt_irrefl _)
    · obtain rfl := Option.some.inj hk'
      exact absurd (h.bounded k _ hk) (Nat.lt_irrefl _)
    · exact h.single k k' n hk hk'

/-- Only the policy decides whether there is a breaker for it. -/
theorem isValid_eq_false_of_getOrCreate {error : BreakError}
    (h : r.getOrCreate service uri p now = .error error) : p.isValid = false := by
  unfold getOrCreate at h
  cases hcheck : p.check with
  | error error => simp [BreakPolicy.isValid, hcheck, Except.isOk, Except.toBool]
  | ok =>
    cases hfound : r.entries.find? uri with
    | none =>
      rw [hcheck, hfound] at h
      exact nomatch h
    | some entry =>
      rw [hcheck, hfound] at h
      change (if _ then Except.ok _ else Except.ok _) = _ at h
      split at h <;> cases h

/-- A valid policy gets the registered breaker of its version, or else a new one. -/
theorem getOrCreate_cases (h : r.getOrCreate service uri p now = .ok (n, r')) :
    p.isValid = true ∧
      ((r' = r ∧ r.number? uri = some n ∧
          ∃ b, r.breaker? n = some b ∧ b.policy.version = p.version) ∨
        (n = r.breakers.length ∧ (∃ owner, r' = r.register uri owner p now) ∧
          ∀ b, r.find? uri = some b → b.policy.version ≠ p.version)) := by
  unfold getOrCreate at h
  cases hcheck : p.check with
  | error error =>
    rw [hcheck] at h
    exact nomatch h
  | ok =>
    refine ⟨by simp [BreakPolicy.isValid, hcheck, Except.isOk, Except.toBool], ?_⟩
    cases hfound : r.entries.find? uri with
    | none =>
      rw [hcheck, hfound] at h
      obtain ⟨rfl, rfl⟩ := Prod.mk.inj (Except.ok.inj h)
      exact .inr ⟨rfl, ⟨_, rfl⟩, fun b hb => by simp [find?, number?, hfound] at hb⟩
    | some entry =>
      have hnumber : r.number? uri = some entry.breaker := by simp [number?, hfound]
      rw [hcheck, hfound] at h
      change (if _ then Except.ok _ else Except.ok _) = _ at h
      split at h
      · next hversion =>
        obtain ⟨b, hb, hversion⟩ := (Option.any_eq_true ..).1 hversion
        obtain ⟨rfl, rfl⟩ := Prod.mk.inj (Except.ok.inj h)
        exact .inl ⟨rfl, hnumber, b, hb, by simpa using hversion⟩
      · next hversion =>
        obtain ⟨rfl, rfl⟩ := Prod.mk.inj (Except.ok.inj h)
        refine .inr ⟨rfl, ⟨_, rfl⟩, fun b hb heq => hversion ?_⟩
        rw [find?, hnumber] at hb
        exact (Option.any_eq_true ..).2 ⟨b, hb, by simpa using heq⟩

/-- A breaker that has room grants a permit, and the others do not notice, unless a listener
fails. -/
theorem acquire_of_hasRoom (hb : r.breaker? n = some b) (h : b.hasRoom now 1)
    (hwhole : (r.acquire n now).1 ≠ .interrupted) :
    ∃ permit b' r', r.acquire n now = (.granted permit, r') ∧ b'.policy = b.policy ∧
      (∀ k, b'.hasRoom now k ↔ b.hasRoom now (k + 1)) ∧ r'.entries = r.entries ∧
      r'.breakers.length = r.breakers.length ∧
      ∀ m, r'.breaker? m = if n = m then some b' else r.breaker? m := by
  have htells := r.onlyTells_woken n b now
  obtain ⟨permit, b', htake, hpolicy, hroom⟩ := Breaker.exists_take_of_hasRoom h
  rcases acquire_cases hb now with ⟨hacquire, -⟩ | ⟨p, b'', htake', hacquire⟩
  · exact absurd (congrArg Prod.fst hacquire) hwhole
  · obtain ⟨rfl, rfl⟩ := Prod.mk.inj (htake.symm.trans htake')
    refine ⟨permit, b', _, hacquire, hpolicy, hroom, htells.entries, ?_, fun m => ?_⟩
    · simp [update, htells.breakers]
    · rw [breaker?_update, htells.breaker?, breaker?_update]
      split
      · next heq => simp [← heq, hb]
      · rfl

/-- A breaker without room refuses. -/
theorem acquire_of_not_hasRoom (hb : r.breaker? n = some b) (h : ¬b.hasRoom now 1) (permit : Permit)
    : (r.acquire n now).1 ≠ .granted permit := by
  have hnone := Breaker.take_of_not_hasRoom h
  rcases acquire_cases hb now with ⟨hacquire, -⟩ | ⟨p, b', htake, hacquire⟩
  · simp [hacquire]
  · obtain rfl : p = none := by rw [← hnone, htake]
    simp [hacquire]

end BreakerRegistry

/-! ## Guards -/

/-- The number of permits that guards ask of the breaker of a version that is registered under a
URI. As soon as a policy of another version comes, a new breaker takes its place. -/
def permitsAsked (gs : List (String × BreakPolicy)) (uri : String) (version : UInt64) : Nat :=
  ((gs.filter fun g => g.1 = uri && g.2.isValid).takeWhile (·.2.version = version)).length

section
variable {gs : List (String × BreakPolicy)} {uri k : String} {p : BreakPolicy} {version : UInt64}

theorem permitsAsked_cons_of_invalid (h : p.isValid = false) :
    permitsAsked ((uri, p) :: gs) k version = permitsAsked gs k version := by
  simp [permitsAsked, h]

theorem permitsAsked_cons_of_ne (h : uri ≠ k) :
    permitsAsked ((uri, p) :: gs) k version = permitsAsked gs k version := by
  simp [permitsAsked, h]

theorem permitsAsked_cons_self (h : p.isValid = true) :
    permitsAsked ((uri, p) :: gs) uri p.version = permitsAsked gs uri p.version + 1 := by
  simp [permitsAsked, h]

theorem permitsAsked_cons_of_other (h : p.isValid = true) (hne : version ≠ p.version) :
    permitsAsked ((uri, p) :: gs) uri version = 0 := by
  simp [permitsAsked, h, hne.symm]

/-- Who is asked for a permit guards the call. -/
theorem exists_guard_of_permitsAsked (h : 0 < permitsAsked gs k version) : ∃ g ∈ gs, g.1 = k := by
  obtain ⟨g, hg⟩ := List.exists_mem_of_length_pos h
  obtain ⟨hmem, hk⟩ := List.mem_filter.1 ((List.takeWhile_sublist _).mem hg)
  exact ⟨g, hmem, by simpa using (Bool.and_eq_true_iff.1 hk).1⟩

end

/-- Whether every breaker registered has room for the permits that guards ask of it. -/
def BreakerRegistry.HasRoom (r : BreakerRegistry) (now : Nat) (gs : List (String × BreakPolicy)) :
    Prop :=
  ∀ uri b, r.find? uri = some b → b.hasRoom now (permitsAsked gs uri b.policy.version)

namespace BreakerRegistry

variable {r r' : BreakerRegistry} {uri service : String} {p : BreakPolicy} {b b' : Breaker}
  {now n : Nat} {gs : List (String × BreakPolicy)}

theorem hasRoom_cons_of_invalid (h : p.isValid = false) :
    r.HasRoom now ((uri, p) :: gs) ↔ r.HasRoom now gs := by
  simp only [HasRoom, permitsAsked_cons_of_invalid h]

/-- A breaker that is asked must have room for one permit at least. -/
theorem HasRoom.head (h : r.HasRoom now ((uri, p) :: gs)) (hvalid : p.isValid = true)
    (hfind : r.find? uri = some b) (hversion : b.policy.version = p.version) :
    b.hasRoom now 1 := by
  have hroom := h uri b hfind
  rw [hversion, permitsAsked_cons_self hvalid] at hroom
  exact Breaker.hasRoom_mono hroom (Nat.le_add_left ..)

/-- After a breaker granted a permit, what is left to ask for is one less. -/
theorem hasRoom_cons_of_granted (hr : r.IsApart) (hvalid : p.isValid = true)
    (hnumber : r.number? uri = some n) (hb : r.breaker? n = some b)
    (hversion : b.policy.version = p.version) (hpolicy : b'.policy = b.policy)
    (hroom : ∀ k, b'.hasRoom now k ↔ b.hasRoom now (k + 1)) (hentries : r'.entries = r.entries)
    (hbreakers : ∀ m, r'.breaker? m = if n = m then some b' else r.breaker? m) :
    r.HasRoom now ((uri, p) :: gs) ↔ r'.HasRoom now gs := by
  have hself : r.find? uri = some b := find?_eq_some_iff_number?.2 ⟨n, hnumber, hb⟩
  have hself' : r'.find? uri = some b' := by
    rw [find?_eq_some_iff_number?, number?, hentries]
    exact ⟨n, hnumber, by rw [hbreakers, if_pos rfl]⟩
  have hother : ∀ k, k ≠ uri → r'.find? k = r.find? k := by
    intro k hk
    rw [find?, find?, number?, hentries]
    refine Option.bind_congr fun m hm => ?_
    rw [hbreakers, if_neg]
    rintro rfl
    exact hk (hr.single k uri n hm hnumber)
  have hasked : b'.hasRoom now (permitsAsked gs uri b'.policy.version) ↔
      b.hasRoom now (permitsAsked ((uri, p) :: gs) uri b.policy.version) := by
    rw [hpolicy, hversion, permitsAsked_cons_self hvalid, hroom]
  constructor
  · intro h k c hc
    by_cases hk : k = uri
    · subst hk
      obtain rfl := Option.some.inj (hself'.symm.trans hc)
      exact hasked.2 (h k b hself)
    · have hold := h k c ((hother k hk).symm.trans hc)
      rwa [permitsAsked_cons_of_ne (Ne.symm hk)] at hold
  · intro h k c hc
    by_cases hk : k = uri
    · subst hk
      obtain rfl := Option.some.inj (hself.symm.trans hc)
      exact hasked.1 (h k b' hself')
    · rw [permitsAsked_cons_of_ne (Ne.symm hk)]
      exact h k c ((hother k hk).trans hc)

/-- A new breaker grants as many permits as it is asked for, and nothing is asked of the one that it
replaces. -/
theorem hasRoom_cons_of_made (hr : r.IsApart) (hvalid : p.isValid = true) (owner : String)
    (hother : ∀ b, r.find? uri = some b → b.policy.version ≠ p.version) :
    r.HasRoom now ((uri, p) :: gs) ↔
      (r.register uri owner p now).HasRoom now ((uri, p) :: gs) := by
  let made := r.register uri owner p now
  have hbreakers : made.breakers = r.breakers ++ [⟨.create uri p now, r.listeners.length⟩] := rfl
  have hnew : made.find? uri = some (.create uri p now) := by
    rw [find?_eq_some_iff_number?, number?_register, if_pos rfl]
    exact ⟨_, rfl, by simp [breaker?, hbreakers]⟩
  have hsame : ∀ k, k ≠ uri → made.find? k = r.find? k := by
    intro k hk
    rw [find?, find?, number?_register, if_neg hk]
    refine Option.bind_congr fun m hm => ?_
    rw [breaker?, breaker?, hbreakers, List.getElem?_append_left (hr.bounded k m hm)]
  constructor
  · intro h k c hc
    by_cases hk : k = uri
    · subst hk
      obtain rfl := Option.some.inj (hnew.symm.trans hc)
      exact Breaker.hasRoom_of_closed rfl
    · exact h k c ((hsame k hk).symm.trans hc)
  · intro h k c hc
    by_cases hk : k = uri
    · subst hk
      rw [permitsAsked_cons_of_other hvalid (hother c hc)]
      exact c.hasRoom_zero now
    · exact h k c ((hsame k hk).trans hc)

end BreakerRegistry

namespace Engine

variable {e : Engine} {i : Invocation} {now : Nat}

/-- Unless a listener fails, a call gets a permit of every breaker that it asks exactly if each has
room for as many as it is asked for. -/
theorem exists_admitted_iff (he : e.breakers.IsApart) (held : Admission)
    (gs : List (String × BreakPolicy))
    (hwhole : (e.breakerPermits i now held gs).1 ≠ .interrupted) :
    (∃ a, (e.breakerPermits i now held gs).1 = .admitted a) ↔ e.breakers.HasRoom now gs := by
  induction gs generalizing e held with
  | nil => exact iff_of_true ⟨held, rfl⟩ fun _ b _ => b.hasRoom_zero now
  | cons g gs ih =>
    obtain ⟨uri, p⟩ := g
    rw [breakerPermits] at hwhole ⊢
    cases hgot : e.breakers.getOrCreate i.service.name uri p now with
    | error error =>
      rw [hgot] at hwhole
      rw [BreakerRegistry.hasRoom_cons_of_invalid
        (BreakerRegistry.isValid_eq_false_of_getOrCreate hgot)]
      exact ih he held hwhole
    | ok got =>
      obtain ⟨n, made⟩ := got
      rw [hgot] at hwhole
      dsimp only at hwhole ⊢
      -- What is registered now is what the guard asks : a breaker of its version.
      obtain ⟨hvalid, hmade, hroom, hnumber, b, hb, hversion⟩ : p.isValid = true ∧ made.IsApart ∧
          (e.breakers.HasRoom now ((uri, p) :: gs) ↔ made.HasRoom now ((uri, p) :: gs)) ∧
          made.number? uri = some n ∧
          ∃ b, made.breaker? n = some b ∧ b.policy.version = p.version := by
        obtain ⟨hvalid, ⟨rfl, hnumber, hb⟩ | ⟨rfl, ⟨owner, rfl⟩, hother⟩⟩ :=
          BreakerRegistry.getOrCreate_cases hgot
        · exact ⟨hvalid, he, .rfl, hnumber, hb⟩
        · exact ⟨hvalid, he.register ..,
            BreakerRegistry.hasRoom_cons_of_made he hvalid owner hother,
            by rw [BreakerRegistry.number?_register, if_pos rfl], .create uri p now,
            by simp [BreakerRegistry.breaker?, BreakerRegistry.register], rfl⟩
      rw [hroom]
      by_cases hone : b.hasRoom now 1
      · have hattempt : (made.acquire n now).1 ≠ .interrupted := by
          intro hinterrupted
          rcases hattempt : made.acquire n now with ⟨attempt, r⟩
          rw [hattempt] at hinterrupted hwhole
          obtain rfl : attempt = .interrupted := hinterrupted
          exact hwhole rfl
        obtain ⟨permit, b', r, hacquire, hpolicy, hless, hentries, hlength, hbreakers⟩ :=
          BreakerRegistry.acquire_of_hasRoom hb hone hattempt
        have hr : r.IsApart := by
          constructor
          · intro k m hk
            rw [BreakerRegistry.number?, hentries] at hk
            rw [hlength]
            exact hmade.bounded k m hk
          · intro k k' m hk hk'
            rw [BreakerRegistry.number?, hentries] at hk hk'
            exact hmade.single k k' m hk hk'
        rw [hacquire] at hwhole ⊢
        rw [BreakerRegistry.hasRoom_cons_of_granted hmade hvalid hnumber hb hversion hpolicy hless
          hentries hbreakers]
        exact ih (e := { e with breakers := r }) hr _ hwhole
      · have hrefused := BreakerRegistry.acquire_of_not_hasRoom hb hone
        refine iff_of_false ?_ fun h => hone (h.head hvalid
          (BreakerRegistry.find?_eq_some_iff_number?.2 ⟨n, hnumber, hb⟩) hversion)
        rintro ⟨a, ha⟩
        rcases hattempt : made.acquire n now with ⟨permit | _ | _, r⟩
        · exact hrefused permit (congrArg Prod.fst hattempt)
        · rw [hattempt] at ha
          cases ha
        · rw [hattempt] at ha
          cases ha

/-- Every valid policy was looked up for a call that was admitted. -/
theorem asked_lookups_of_admitted {held a : Admission} {gs : List (BreakTarget × BreakPolicy)}
    (h : (e.breakerPermits i now held (gs.map fun g => (g.1.uri, g.2))).1 = .admitted a) :
    (e.breakers.lookups i.service.name now gs).map Lookup.asked =
      (gs.filter (·.2.isValid)).map fun g => (g.1, g.2.version) := by
  induction gs generalizing e held with
  | nil => rfl
  | cons g gs ih =>
    obtain ⟨x, p⟩ := g
    rw [List.map_cons, breakerPermits] at h
    rw [BreakerRegistry.lookups]
    cases hgot : e.breakers.getOrCreate i.service.name x.uri p now with
    | error error =>
      rw [hgot] at h
      have hinvalid := BreakerRegistry.isValid_eq_false_of_getOrCreate hgot
      simp only [List.filter_cons, hinvalid, Bool.false_eq_true, if_false]
      exact ih h
    | ok got =>
      obtain ⟨n, made⟩ := got
      rw [hgot] at h
      have hvalid := (BreakerRegistry.getOrCreate_cases hgot).1
      simp only [List.filter_cons, hvalid, if_true, List.map_cons]
      dsimp only at h
      rcases hattempt : made.acquire n now with ⟨permit | _ | _, r⟩
      · rw [hattempt] at h
        exact congrArg (_ :: ·) (ih h)
      · rw [hattempt] at h
        cases h
      · rw [hattempt] at h
        cases h

/-- Whether a call is let through by the breakers that guard it, and holds a permit of the breaker
of every valid policy. -/
structure TakesAll (e : Engine) (i : Invocation) (now : Nat) (a : Admission) : Prop where
  admitted : (e.breakerPermits i now {} (guards i)).1 = .admitted a
  asked : (e.breakerLookups i now).map Lookup.asked =
    ((guarded i).filter (·.2.isValid)).map fun g => (g.1, g.2.version)
  held : a.held.map (·.1) = (e.breakerLookups i now).map (·.given)

/-- A call that is let through holds a permit of the breaker of every valid policy. -/
theorem takesAll_of_admitted (henabled : e.settings.breakers.enabled) {a : Admission}
    (h : (e.breakerPermits i now {} (guards i)).1 = .admitted a) : e.TakesAll i now a := by
  have hlookups : e.breakerLookups i now = e.breakers.lookups i.service.name now (guarded i) := by
    rw [breakerLookups, if_pos henabled]
  refine ⟨h, ?_, ?_⟩
  · rw [guards_eq] at h
    rw [hlookups]
    exact asked_lookups_of_admitted h
  · rcases hresult : e.breakerPermits i now {} (guards i) with ⟨result, e', i'⟩
    rw [hresult] at h
    obtain rfl : result = .admitted a := h
    rw [guards_eq] at hresult
    rw [hlookups]
    exact (held_breakerPermits hresult).2

end Engine

/-! ## Sessions -/

namespace Session

/-- Each registered breaker is there, under one URI only. -/
theorem isApart_run (settings : Settings) (context : Context) (snapshot : Snapshot)
    (balancing : Balancing) (now : Nat) (events : List Event) :
    ((start settings context snapshot balancing now).run events).engine.breakers.IsApart := by
  let s := start settings context snapshot balancing now
  let r := (s.run events).engine.breakers
  have hbounded : r.shelf.IsBounded :=
    (goes_run (isBounded_start settings context snapshot balancing now) events).1.isBounded
  have hrecords := (records_run settings context snapshot balancing now events).1
  have hshelf : ∀ {uri n}, r.number? uri = some n →
      ∃ owner, r.shelf.find? uri = some (owner, n) := by
    intro uri n h
    obtain ⟨entry, hentry, rfl⟩ := Option.map_eq_some_iff.1 h
    exact ⟨entry.service, by simp [BreakerRegistry.shelf, hentry]⟩
  have hgiven : ∀ {uri n}, r.number? uri = some n → ∃ l ∈ s.trace breakerLookups events,
      l.given = n ∧ l.resource.uri = uri := by
    intro uri n h
    obtain ⟨owner, hfind⟩ := hshelf h
    have hobject := List.getElem?_eq_getElem (hbounded uri _ hfind)
    obtain ⟨l, hl, hn, -⟩ := hrecords.registered uri n _
      (Shelf.find?_roster_eq_some_iff.2 ⟨owner, _, hfind, hobject, rfl⟩)
    obtain ⟨hmem, huri⟩ := Lookup.mem_under.1 (List.mem_of_getLast? hl)
    exact ⟨l, hmem, hn, huri⟩
  constructor
  · intro uri n h
    obtain ⟨owner, hfind⟩ := hshelf h
    exact Nat.lt_of_lt_of_eq (hbounded uri _ hfind) (List.length_map _)
  · intro uri uri' n h h'
    obtain ⟨l, hl, hn, rfl⟩ := hgiven h
    obtain ⟨l', hl', hn', rfl⟩ := hgiven h'
    exact hrecords.apart l hl l' hl' (hn.trans hn'.symm)

/-- Whether a session can come from a new engine. -/
def IsReached (s : Session) : Prop :=
  ∃ settings context snapshot balancing now events,
    s = (start settings context snapshot balancing now).run events

/-- If all breakers that guard a call are available, it gets a permit of each exactly if those of
which it asks several have room for them, and no listener fails. -/
theorem takesAll_iff {s : Session} (h : s.IsReached)
    (henabled : s.engine.settings.breakers.enabled) {i : Invocation} {now : Nat}
    (havailable : ∀ g ∈ Engine.guards i, s.engine.breakers.isAvailable now g.1) :
    (∃ a, s.engine.TakesAll i now a) ↔
      (s.engine.breakerPermits i now {} (Engine.guards i)).1 ≠ .interrupted ∧
        ∀ g ∈ Engine.guards i, ∀ b, s.engine.breakers.find? g.1 = some b →
          1 < permitsAsked (Engine.guards i) g.1 b.policy.version →
            b.hasRoom now (permitsAsked (Engine.guards i) g.1 b.policy.version) := by
  obtain ⟨settings, context, snapshot, balancing, start, events, rfl⟩ := h
  have hapart := isApart_run settings context snapshot balancing start events
  constructor
  · rintro ⟨a, ha⟩
    have hwhole : (Engine.breakerPermits _ i now {} (Engine.guards i)).1 ≠ .interrupted :=
      fun hinterrupted => nomatch ha.admitted.symm.trans hinterrupted
    refine ⟨hwhole, fun g _ b hb _ => ?_⟩
    exact (Engine.exists_admitted_iff hapart {} _ hwhole).1 ⟨a, ha.admitted⟩ g.1 b hb
  · rintro ⟨hwhole, hroom⟩
    refine ((Engine.exists_admitted_iff hapart {} _ hwhole).2 fun uri b hb => ?_).imp
      fun a ha => Engine.takesAll_of_admitted henabled ha
    -- A breaker that is asked for one permit has room for it, because it is available.
    rcases Nat.lt_or_ge 1 (permitsAsked (Engine.guards i) uri b.policy.version) with hmany | hfew
    · obtain ⟨g, hg, rfl⟩ := exists_guard_of_permitsAsked (Nat.lt_trans Nat.zero_lt_one hmany)
      exact hroom g hg b hb hmany
    · rcases Nat.eq_zero_or_pos (permitsAsked (Engine.guards i) uri b.policy.version)
        with hnone | hone
      · rw [hnone]
        exact b.hasRoom_zero now
      · obtain ⟨g, hg, rfl⟩ := exists_guard_of_permitsAsked hone
        have hlets : b.isAvailable now := by
          simpa [BreakerRegistry.isAvailable, hb] using havailable g hg
        exact Breaker.hasRoom_mono (Breaker.isAvailable_iff_hasRoom.1 hlets) hfew

end Session

/-! ## Two policies of one name -/

namespace TwicePolicy

/-- A breaker of a number of trials, which opens at the first failed call and wakes at once. -/
def policy (trials : UInt32) : BreakPolicy :=
  { name := "break", minimumCalls := 1, waitMillis := 0, trialCalls := trials }

/-- A service that has the policy twice. -/
def service (trials : UInt32) : Service where
  name := "orders"
  bundle := some { breaks := [policy trials, policy trials] }

/-- The breaker is open, and its wait is over. -/
def session (trials : UInt32) : Session :=
  let s := Session.start {} {} (.ofDocument { services := [service trials] }) .roundRobin 0
  s.run [.ask (s.engine.invocation { service := "orders" } []) .blocking,
    .complete 0 (.failure 5 "down")]

theorem isReached_session (trials : UInt32) : (session trials).IsReached :=
  ⟨{}, {}, _, .roundRobin, 0, _, rfl⟩

/-- The next call. -/
def call (trials : UInt32) : Invocation :=
  (session trials).engine.invocation { service := "orders" } []

end TwicePolicy

open TwicePolicy in
/-- With room for two trials the call gets both. -/
theorem takesAll_twice :
    (session 2).IsReached ∧ (session 2).engine.settings.breakers.enabled ∧
      (∀ g ∈ Engine.guards (call 2), (session 2).engine.breakers.isAvailable 0 g.1) ∧
      ∃ a, (session 2).engine.TakesAll (call 2) 0 a := by
  have havailable : ∀ g ∈ Engine.guards (call 2),
      (session 2).engine.breakers.isAvailable 0 g.1 := by decide
  have hwhole : ((session 2).engine.breakerPermits (call 2) 0 {} (Engine.guards (call 2))).1 ≠
      .interrupted := by decide
  have hroom : ∀ g ∈ Engine.guards (call 2), ∀ b, (session 2).engine.breakers.find? g.1 = some b →
      1 < permitsAsked (Engine.guards (call 2)) g.1 b.policy.version →
        b.hasRoom 0 (permitsAsked (Engine.guards (call 2)) g.1 b.policy.version) := by decide
  exact ⟨isReached_session 2, by decide, havailable,
    (Session.takesAll_iff (isReached_session 2) (by decide) havailable).2 ⟨hwhole, hroom⟩⟩

/-- Whether calls that available breakers guard are let through. -/
def Engine.AdmitsAvailable (e : Engine) : Prop :=
  ∀ i now, (∀ g ∈ guards i, e.breakers.isAvailable now g.1) → ∃ a, e.TakesAll i now a

open TwicePolicy in
/-- With room for a single trial no call is let through, although the breaker is available. -/
theorem not_admitsAvailable : ¬(session 1).engine.AdmitsAvailable := by
  intro h
  have havailable : ∀ g ∈ Engine.guards (call 1),
      (session 1).engine.breakers.isAvailable 0 g.1 := by decide
  obtain ⟨a, ha⟩ := h (call 1) 0 havailable
  have hrefused : ((session 1).engine.breakerPermits (call 1) 0 {} (Engine.guards (call 1))).1 =
      .refused ((call 1).breakOff none).1 := rfl
  exact nomatch hrefused.symm.trans ha.admitted

end TrafficControl
