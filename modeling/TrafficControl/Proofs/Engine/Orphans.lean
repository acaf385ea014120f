import TrafficControl.Proofs.Engine.Tenure
import TrafficControl.Proofs.Origin

/-!
# Orphans

A change of services leaves limiters and breakers behind whose policy is gone. Whatever was done
with an engine before (`EngineAction`), right after a call that brings other services
(`ServiceCall`) exactly those entries are left whose policy the new snapshot declares, at some
level, for the service for which they were made (`Engine.dropsOrphans_run`).

For this one has to know that nothing but a request adds an entry, and only for the service of the
request (`Engine.moves_act`).
-/

namespace TrafficControl

/-! ## Services of entries -/

namespace LimiterRegistry

variable {r r' : LimiterRegistry} {service : String} {n now : Nat}

theorem adds_getOrCreate (hbounded : r.shelf.IsBounded) {p : RatePolicy}
    (h : r.getOrCreate service p now = .ok (n, r')) : r.shelf.Adds service r'.shelf := by
  have hget := shelf_getOrCreate service p (hbounded (limiterKey service p.name)) now
  rw [h] at hget
  exact Shelf.adds_get hget.symm

theorem entries_call (r : LimiterRegistry) (n now : Nat) (c : LimiterCall) :
    (r.call n now c).entries = r.entries := by
  unfold call
  split <;> rfl

theorem adds_of_entries (h : r'.entries = r.entries) : r.shelf.Adds service r'.shelf :=
  .of_find? (by rw [shelf, h, shelf])

theorem owner?_shelf (r : LimiterRegistry) (key : String) :
    r.shelf.owner? key = (r.entries.find? key).map (·.service) := Option.map_map ..

end LimiterRegistry

namespace BreakerRegistry

variable {r r' : BreakerRegistry} {service uri : String} {n now : Nat}

theorem adds_getOrCreate {p : BreakPolicy} (h : r.getOrCreate service uri p now = .ok (n, r')) :
    r.shelf.Adds service r'.shelf := by
  have hget := r.shelf_getOrCreate service uri p now
  rw [h] at hget
  cases hcheck : p.check with
  | error e =>
    rw [hcheck] at hget
    exact nomatch hget
  | ok =>
    rw [hcheck] at hget
    exact Shelf.adds_get hget.symm

theorem adds_of_entries (h : r'.entries = r.entries) : r.shelf.Adds service r'.shelf :=
  .of_find? (by rw [shelf, h, shelf])

theorem owner?_shelf (r : BreakerRegistry) (uri : String) :
    r.shelf.owner? uri = (r.entries.find? uri).map (·.service) := Option.map_map ..

theorem moves_of_entries (hbounded : r'.shelf.IsBounded) (h : r'.entries = r.entries) :
    r.shelf.Moves none r'.shelf where
  isBounded := hbounded
  owned uri := by
    rw [owner?_shelf, owner?_shelf, h]
    exact .stays _

theorem entries_call (r : BreakerRegistry) (n now : Nat) (c : BreakerCall) :
    (r.call n now c).entries = r.entries := by
  cases h : r.breaker? n with
  | none => rw [call_of_none h]
  | some b =>
    rw [call_eq h]
    exact (r.onlyTells_announce n _).entries

theorem entries_giveBack (r : BreakerRegistry) (held : List (Nat × Permit)) :
    (held.foldl (fun r (n, p) => r.releasePermit n p) r).entries = r.entries := by
  induction held generalizing r with
  | nil => rfl
  | cons q held ih => exact (ih _).trans (r.entries_call q.1 0 (.releasePermit q.2))

end BreakerRegistry

namespace Engine

variable {e e' : Engine} {i : Invocation} {now : Nat}

theorem adds_breakerPermits (e : Engine) (i : Invocation) (now : Nat) (held : Admission)
    (guards : List (String × BreakPolicy)) :
    e.breakers.shelf.Adds i.service.name
      (e.breakerPermits i now held guards).2.1.breakers.shelf := by
  induction guards generalizing e held with
  | nil => exact .refl _
  | cons guard guards ih =>
    obtain ⟨uri, p⟩ := guard
    rw [breakerPermits]
    cases hgot : e.breakers.getOrCreate i.service.name uri p now with
    | error error => exact ih e held
    | ok got =>
      obtain ⟨n, made⟩ := got
      have hcalled : (made.acquire n now).2.entries = made.entries :=
        made.entries_call n now .acquire
      have hasked := (BreakerRegistry.adds_getOrCreate hgot).trans
        (BreakerRegistry.adds_of_entries hcalled)
      dsimp only
      generalize made.acquire n now = asked at hasked ⊢
      obtain ⟨permit | _ | _, r⟩ := asked
      · exact hasked.trans (ih { e with breakers := r } _)
      · exact hasked.trans (BreakerRegistry.adds_of_entries (r.entries_giveBack _))
      · exact hasked.trans (BreakerRegistry.adds_of_entries (r.entries_giveBack _))

theorem adds_limitersFor (h : e.limiters.shelf.IsBounded) (service : String) (now : Nat)
    (ps : List RatePolicy) :
    e.limiters.shelf.Adds service (e.limitersFor service now ps).2.limiters.shelf := by
  induction ps generalizing e with
  | nil => exact .refl _
  | cons p ps ih =>
    rw [limitersFor]
    cases hgot : e.limiters.getOrCreate service p now with
    | error error => exact ih h
    | ok got =>
      have hbounded := (LimiterRegistry.goes_getOrCreate h hgot).isBounded
      exact (LimiterRegistry.adds_getOrCreate h hgot).trans
        (ih (e := { e with limiters := got.2 }) hbounded)

theorem entries_limiterPermits (e : Engine) (pacing : Pacing) (now : Nat)
    (found : List (Nat × Int)) :
    (e.limiterPermits pacing now found).2.2.limiters.entries = e.limiters.entries := by
  induction found generalizing e now with
  | nil => rfl
  | cons limiter found ih =>
    obtain ⟨n, timeout⟩ := limiter
    rw [limiterPermits_cons]
    cases e.limiters.limiter? n with
    | none => exact ih e now
    | some l =>
      dsimp only
      cases (l.acquire 1 now timeout).1 with
      | none => rfl
      | some wait => exact ih { e with limiters := e.limiters.update n _ } _

/-- A request for admission adds entries for the service that is called. -/
theorem adds_admission (h : e.limiters.shelf.IsBounded) (i : Invocation) (pacing : Pacing)
    (now : Nat) :
    e.breakers.shelf.Adds i.service.name (e.admission i pacing now).2.2.1.breakers.shelf ∧
      e.limiters.shelf.Adds i.service.name (e.admission i pacing now).2.2.1.limiters.shelf := by
  have hpermits := e.adds_breakerPermits i now {}
    (if e.settings.breakers.enabled then guards i else [])
  have hsame := e.limiters_breakerPermits i now {}
    (if e.settings.breakers.enabled then guards i else [])
  unfold admission
  dsimp only
  rcases hresult : e.breakerPermits i now {} (if e.settings.breakers.enabled then guards i else [])
    with ⟨a | _ | _, e', i'⟩
  · have hi : i' = i := by
      rw [guards_enabled] at hresult
      exact (held_breakerPermits hresult).1
    subst hi
    rw [hresult] at hpermits hsame
    dsimp only at hpermits hsame ⊢
    generalize (if e'.settings.limits.enabled then limits i' else []) = policies
    have hfound := adds_limitersFor (hsame ▸ h) i'.service.name now policies
    have hbreakers := e'.breakers_limitersFor i'.service.name now policies
    rw [hsame] at hfound
    generalize e'.limitersFor i'.service.name now policies = found at hfound hbreakers ⊢
    obtain ⟨limiters, e₁⟩ := found
    have hasked := e₁.entries_limiterPermits pacing now limiters
    have hbreakers₁ := e₁.breakers_limiterPermits pacing now limiters
    dsimp only at hfound hbreakers hasked hbreakers₁ ⊢
    generalize e₁.limiterPermits pacing now limiters = limited at hasked hbreakers₁ ⊢
    obtain ⟨granted, now', e₂⟩ := limited
    have hlimited := hfound.trans (LimiterRegistry.adds_of_entries hasked)
    have hbreakers₂ : e₂.breakers = e'.breakers := hbreakers₁.trans hbreakers
    rw [← hbreakers₂] at hpermits
    cases granted with
    | true => exact ⟨hpermits, hlimited⟩
    | false =>
      exact ⟨hpermits.trans (BreakerRegistry.adds_of_entries (e₂.breakers.entries_giveBack _)),
        hlimited⟩
  · rw [hresult] at hpermits hsame
    exact ⟨hpermits, by rw [hsame]; exact .refl _⟩
  · rw [hresult] at hpermits hsame
    exact ⟨hpermits, by rw [hsame]; exact .refl _⟩

theorem exists_route (e : Engine) (i : Invocation) (now draw : Nat) :
    ∃ turns, (e.route i now draw).2.1 = { e with turns } := by
  refine ⟨(Filter.run (e.outboundFilters now draw) e.turns i).2.1, ?_⟩
  unfold route
  dsimp only
  split <;> rfl

theorem entries_record (e : Engine) (ending : Ending) (now : Nat) (ns : List Nat) :
    (e.record ending now ns).2.breakers.entries = e.breakers.entries := by
  induction ns generalizing e with
  | nil => rfl
  | cons n ns ih =>
    have hcalled : (e.breakers.complete n ending.micros ending.cause? now).2.entries =
        e.breakers.entries :=
      e.breakers.entries_call n now (.complete ending.micros ending.cause?)
    rw [record_eq]
    generalize e.breakers.complete n ending.micros ending.cause? now = told at hcalled ⊢
    obtain ⟨_ | _, r⟩ := told
    · exact hcalled
    · exact (ih { e with breakers := r }).trans hcalled

theorem entries_complete (e : Engine) (a : Admission) (i : Invocation) (ending : Ending)
    (now : Nat) : (e.complete a i ending now).2.1.breakers.entries = e.breakers.entries := by
  rw [engine_complete]
  exact (BreakerRegistry.entries_giveBack _ a.held).trans
    (e.entries_record ending now (a.held.map (·.1)))

end Engine

/-! ## Actions -/

/-- The service for which a limiter is requested, if one is. -/
def LimiterAction.service? : LimiterAction → Option String
  | request service _ _ => some service
  | recycle _ | call .. => none

/-- The service for which a breaker is requested, if one is. -/
def BreakerAction.service? : BreakerAction → Option String
  | request service .. => some service
  | recycle _ | call .. | addListener _ => none

theorem LimiterRegistry.moves_visit {r : LimiterRegistry} (hbounded : r.shelf.IsBounded)
    (a : LimiterAction) : r.shelf.Moves a.service? (r.visit a).after.shelf where
  isBounded := by
    have hbefore : (r.visit a).before = r := by cases a <;> rfl
    exact (obeys_visit hbounded a).isBounded (hbefore.symm ▸ hbounded)
  owned key := by
    cases a with
    | request service p now =>
      rw [visit, run_request]
      cases hgot : r.getOrCreate service p now with
      | error e => exact .stays _
      | ok got => exact (adds_getOrCreate hbounded hgot).owned key
    | recycle keep =>
      rw [owner?_shelf, owner?_shelf]
      exact .of_drop (r.entries.map_find?_retain _ _ key)
    | call n now c =>
      rw [owner?_shelf, owner?_shelf, visit, entries_call]
      exact .stays _

theorem BreakerRegistry.moves_visit {r : BreakerRegistry} (hbounded : r.shelf.IsBounded)
    (a : BreakerAction) : r.shelf.Moves a.service? (r.visit a).after.shelf where
  isBounded := by
    have hbefore : (r.visit a).before = r := by cases a <;> rfl
    exact (obeys_visit a).isBounded (hbefore.symm ▸ hbounded)
  owned uri := by
    cases a with
    | request service uri' p now =>
      rw [visit, run_request]
      cases hgot : r.getOrCreate service uri' p now with
      | error e => exact .stays _
      | ok got => exact (adds_getOrCreate hgot).owned uri
    | recycle keep =>
      rw [owner?_shelf, owner?_shelf]
      exact .of_drop (r.entries.map_find?_retain _ _ uri)
    | call n now c =>
      rw [owner?_shelf, owner?_shelf, visit, entries_call]
      exact .stays _
    | addListener l => exact .stays _

/-- Something that is done with an engine. -/
inductive EngineAction where
  /-- A call asks for admission. -/
  | ask (i : Invocation) (pacing : Pacing) (now : Nat)
  /-- An admitted call ends with an outcome. -/
  | complete (a : Admission) (i : Invocation) (ending : Ending) (now : Nat)
  /-- An admitted call ends without one. -/
  | abandon (a : Admission)
  | route (i : Invocation) (now draw : Nat)
  | change (c : StoreChange)
  /-- The store is changed directly. -/
  | write (c : StoreChange)
  | recycle (s : Snapshot)
  | addListener (l : RequestListener)
  /-- Something is done with the limiters directly. -/
  | limiters (a : LimiterAction)
  /-- Something is done with the breakers directly. -/
  | breakers (a : BreakerAction)

/-- The service for which an action may look up limiters and breakers. -/
def EngineAction.service? : EngineAction → Option String
  | ask i _ _ => some i.service.name
  | limiters a => a.service?
  | breakers a => a.service?
  | complete .. | abandon _ | route .. | change _ | write _ | recycle _ | addListener _ => none

namespace Engine

/-- The engine after an action. A change that is refused leaves it as it was. -/
def act (e : Engine) : EngineAction → Engine
  | .ask i pacing now => (e.admission i pacing now).2.2.1
  | .complete a i ending now => (e.complete a i ending now).2.1
  | .abandon a => e.abandon a
  | .route i now draw => (e.route i now draw).2.1
  | .change c =>
    match e.apply c with
    | .ok e => e
    | .error _ => e
  | .write c =>
    match e.store.apply c with
    | .ok store => { e with store }
    | .error _ => e
  | .recycle s => (e.recycle s).2
  | .addListener l => e.addListener l
  | .limiters a => { e with limiters := (e.limiters.visit a).after }
  | .breakers a => { e with breakers := (e.breakers.visit a).after }

variable {e : Engine}

theorem moves_recycle (hbreakers : e.breakers.shelf.IsBounded)
    (hlimiters : e.limiters.shelf.IsBounded) (s : Snapshot) :
    e.breakers.shelf.Moves none (e.recycle s).2.breakers.shelf ∧
      e.limiters.shelf.Moves none (e.recycle s).2.limiters.shelf :=
  ⟨BreakerRegistry.moves_visit hbreakers (.recycle fun _ => s.keepsBreak),
    LimiterRegistry.moves_visit hlimiters (.recycle fun _ => s.keepsRate)⟩

/-- What is registered changes at an action as it should. -/
theorem moves_act (hbreakers : e.breakers.shelf.IsBounded) (hlimiters : e.limiters.shelf.IsBounded)
    (a : EngineAction) : e.breakers.shelf.Moves a.service? (e.act a).breakers.shelf ∧
      e.limiters.shelf.Moves a.service? (e.act a).limiters.shelf := by
  cases a with
  | ask i pacing now =>
    obtain ⟨hgoes, hgoes'⟩ := goes_admission hbreakers hlimiters i pacing now
    obtain ⟨hadds, hadds'⟩ := adds_admission hlimiters i pacing now
    exact ⟨hadds.moves hgoes.isBounded, hadds'.moves hgoes'.isBounded⟩
  | complete a i ending now =>
    obtain ⟨hgoes, hsame⟩ := goes_complete hbreakers a i ending now
    have hentries := e.entries_complete a i ending now
    refine ⟨BreakerRegistry.moves_of_entries hgoes.isBounded hentries, ?_⟩
    rw [act, hsame]
    exact .refl hlimiters
  | abandon a =>
    have hgoes := BreakerRegistry.goes_giveBack hbreakers a.held
    have hentries := e.breakers.entries_giveBack a.held
    exact ⟨BreakerRegistry.moves_of_entries hgoes.isBounded hentries, .refl hlimiters⟩
  | route i now draw =>
    obtain ⟨turns, hroute⟩ := e.exists_route i now draw
    rw [act, hroute]
    exact ⟨.refl hbreakers, .refl hlimiters⟩
  | change c =>
    rw [act]
    cases hchange : e.apply c with
    | error error => exact ⟨.refl hbreakers, .refl hlimiters⟩
    | ok e' =>
      obtain ⟨store, rfl | rfl⟩ := eq_or_recycle_of_apply hchange
      · exact ⟨.refl hbreakers, .refl hlimiters⟩
      · exact moves_recycle (e := { e with store }) hbreakers hlimiters store.current
  | write c =>
    rw [act]
    cases e.store.apply c <;> exact ⟨.refl hbreakers, .refl hlimiters⟩
  | recycle s => exact moves_recycle hbreakers hlimiters s
  | addListener l => exact ⟨.refl hbreakers, .refl hlimiters⟩
  | limiters a => exact ⟨.refl hbreakers, LimiterRegistry.moves_visit hlimiters a⟩
  | breakers a => exact ⟨BreakerRegistry.moves_visit hbreakers a, .refl hlimiters⟩

/-- What is registered is there, whatever is done. -/
theorem isBounded_foldl_act (hbreakers : e.breakers.shelf.IsBounded)
    (hlimiters : e.limiters.shelf.IsBounded) (actions : List EngineAction) :
    (actions.foldl act e).breakers.shelf.IsBounded ∧
      (actions.foldl act e).limiters.shelf.IsBounded := by
  induction actions generalizing e with
  | nil => exact ⟨hbreakers, hlimiters⟩
  | cons a actions ih =>
    obtain ⟨hmoves, hmoves'⟩ := moves_act hbreakers hlimiters a
    exact ih hmoves.isBounded hmoves'.isBounded

/-- Whether nothing is registered. -/
structure IsEmpty (e : Engine) : Prop where
  breakers : e.breakers.entries = {}
  limiters : e.limiters.entries = {}

theorem IsEmpty.isBounded (h : e.IsEmpty) (actions : List EngineAction) :
    (actions.foldl act e).breakers.shelf.IsBounded ∧
      (actions.foldl act e).limiters.shelf.IsBounded := by
  refine isBounded_foldl_act (fun uri entry hentry => ?_) (fun key entry hentry => ?_) actions
  · rw [BreakerRegistry.shelf, h.breakers] at hentry
    exact nomatch hentry
  · rw [LimiterRegistry.shelf, h.limiters] at hentry
    exact nomatch hentry

/-- The service of an entry does not change but as one more action should change it. -/
theorem IsEmpty.moves (h : e.IsEmpty) (actions : List EngineAction) (a : EngineAction) :
    (actions.foldl act e).breakers.shelf.Moves a.service?
        ((actions ++ [a]).foldl act e).breakers.shelf ∧
      (actions.foldl act e).limiters.shelf.Moves a.service?
        ((actions ++ [a]).foldl act e).limiters.shelf := by
  obtain ⟨hbreakers, hlimiters⟩ := h.isBounded actions
  rw [List.foldl_concat]
  exact moves_act hbreakers hlimiters a

/-- The entry of a breaker is for the service that it was made for. -/
theorem IsEmpty.isMadeFor_breaker_iff (h : e.IsEmpty) (actions : List EngineAction)
    (uri service : String) :
    IsMadeFor act EngineAction.service? (·.breakers.entries.contains uri) e actions service ↔
      (actions.foldl act e).breakers.shelf.owner? uri = some service := by
  have howner : ∀ e : Engine,
      e.breakers.entries.contains uri ↔ (e.breakers.shelf.owner? uri).isSome := fun e => by
    rw [BreakerRegistry.owner?_shelf, Option.isSome_map, Table.contains]
  refine isMadeFor_iff _ howner ?_ fun before a => (h.moves before a).1.owned uri
  rw [BreakerRegistry.owner?_shelf, h.breakers]
  rfl

/-- The entry of a limiter is for the service that it was made for. -/
theorem IsEmpty.isMadeFor_limiter_iff (h : e.IsEmpty) (actions : List EngineAction)
    (key service : String) :
    IsMadeFor act EngineAction.service? (·.limiters.entries.contains key) e actions service ↔
      (actions.foldl act e).limiters.shelf.owner? key = some service := by
  have howner : ∀ e : Engine,
      e.limiters.entries.contains key ↔ (e.limiters.shelf.owner? key).isSome := fun e => by
    rw [LimiterRegistry.owner?_shelf, Option.isSome_map, Table.contains]
  refine isMadeFor_iff _ howner ?_ fun before a => (h.moves before a).2.owned key
  rw [LimiterRegistry.owner?_shelf, h.limiters]
  rfl

end Engine

/-! ## Orphans -/

/-- A call of an engine that brings other services. -/
inductive ServiceCall where
  | updateServices (updates : List Service) (deletes : List String) (merger : Merger)
    (owner : String)
  | updateService (s : Service) (merger : Merger) (owner : String)
  | deleteService (name : String) (merger : Merger) (owner : String)
  | publish (s : Snapshot)

/-- The change that a call makes. -/
def ServiceCall.change : ServiceCall → StoreChange
  | updateServices updates deletes merger owner => .merge merger updates deletes owner
  | updateService s merger owner => .merge merger [s] [] owner
  | deleteService name merger owner => .merge merger [] [name] owner
  | publish s => .publish s

/-- Whether a bundle of a service, its own or that of a path or a method, has a property. -/
def Service.SomeBundle (v : Service) (P : Bundle → Prop) : Prop :=
  (∃ b, v.bundle = some b ∧ P b) ∨
    ∃ path ∈ v.paths, (∃ b, path.bundle = some b ∧ P b) ∨
      ∃ m ∈ path.methods, ∃ b, m.bundle = some b ∧ P b

theorem Service.someBundle_iff {v : Service} {P : Bundle → Prop} :
    v.SomeBundle P ↔ ∃ b ∈ v.bundles, P b := by
  simp only [SomeBundle, bundles, ServicePath.bundles, List.mem_append, List.mem_flatMap,
    List.mem_filterMap, Option.mem_toList]
  constructor
  · rintro (⟨b, hb, h⟩ | ⟨path, hpath, ⟨b, hb, h⟩ | ⟨m, hm, b, hb, h⟩⟩)
    · exact ⟨b, .inl hb, h⟩
    · exact ⟨b, .inr ⟨path, hpath, .inl hb⟩, h⟩
    · exact ⟨b, .inr ⟨path, hpath, .inr ⟨m, hm, hb⟩⟩, h⟩
  · rintro ⟨b, hb | ⟨path, hpath, hb | ⟨m, hm, hb⟩⟩, h⟩
    · exact .inl ⟨b, hb, h⟩
    · exact .inr ⟨path, hpath, .inl ⟨b, hb, h⟩⟩
    · exact .inr ⟨path, hpath, .inr ⟨m, hm, b, hb, h⟩⟩

/-- Whether a document has a service of a name that declares a circuit break policy of a name. -/
def Document.DeclaresBreak (d : Document) (service policy : String) : Prop :=
  ∃ v, d.services.find? (·.name = service) = some v ∧
    v.SomeBundle fun b => ∃ p ∈ b.breaks, p.name = policy

/-- Whether a document has a service of a name that declares a rate limit policy of a name. -/
def Document.DeclaresRate (d : Document) (service policy : String) : Prop :=
  ∃ v, d.services.find? (·.name = service) = some v ∧
    v.SomeBundle fun b => ∃ p ∈ b.rates, p.name = policy

theorem Snapshot.keepsBreak_iff {s : Snapshot} {service : String} {p : BreakPolicy} :
    s.keepsBreak service p ↔ s.document.DeclaresBreak service p.name := by
  simp [keepsBreak, Document.DeclaresBreak, service?_eq_find?, Service.someBundle_iff,
    Option.any_eq_true]

theorem Snapshot.keepsRate_iff {s : Snapshot} {service : String} {p : RatePolicy} :
    s.keepsRate service p ↔ s.document.DeclaresRate service p.name := by
  simp [keepsRate, Document.DeclaresRate, service?_eq_find?, Service.someBundle_iff,
    Option.any_eq_true]

/-- Whether exactly those entries of a registry are left that are to be kept, given for which
services the entries were made. -/
def Keeping.Recycles {ρ α : Type} (k : Keeping ρ α) (madeFor : String → String → Prop)
    (keeps : String → α → Prop) (r r' : ρ) : Prop :=
  ∀ key n, k.number? r' key = some n ↔ k.number? r key = some n ∧
    ∃ service a, madeFor key service ∧ k.object? r n = some a ∧ keeps service a

theorem Keeping.Recycles.retain {ρ α : Type} {k : Keeping ρ α} {r r' : ρ}
    {madeFor : String → String → Prop} {keeps : String → α → Prop} {keep : String → α → Bool}
    (hbounded : (k.shelf r).IsBounded) (hshelf : k.shelf r' = (k.shelf r).retain keep)
    (hmade : ∀ key service, madeFor key service ↔ (k.shelf r).owner? key = some service)
    (hkeep : ∀ service a, keep service a ↔ keeps service a) : k.Recycles madeFor keeps r r' := by
  intro key n
  simp only [number?, hshelf, Shelf.retain, hmade, Shelf.owner?, object?]
  cases hfound : (k.shelf r).find? key with
  | none => simp
  | some e =>
    obtain ⟨service, m⟩ := e
    have ha := List.getElem?_eq_getElem (hbounded key _ hfound)
    rw [Option.filter_some, ha, Option.all_some, Option.map_some, Option.map_some]
    constructor
    · intro h
      split at h
      · next hkept =>
        obtain rfl := Option.some.inj h
        exact ⟨rfl, service, _, rfl, ha, (hkeep ..).1 hkept⟩
      · cases h
    · rintro ⟨hn, service', a, hservice, ha', hkept⟩
      obtain rfl := Option.some.inj hn
      obtain rfl := Option.some.inj hservice
      obtain rfl := Option.some.inj (ha.symm.trans ha')
      rw [if_pos ((hkeep ..).2 hkept)]
      rfl

namespace Engine

theorem exists_apply (e : Engine) (call : ServiceCall) :
    ∃ store, e.store.apply call.change = .ok store ∧
      e.apply call.change = .ok (recycle { e with store } store.current).2 := by
  cases call <;> exact ⟨_, rfl, rfl⟩

/-- Right after services were changed those entries are left whose policy is still declared for the
service that they were made for, and the breakers and limiters are as they were. -/
theorem dropsOrphans_run (settings : Settings) (context : Context) (snapshot : Snapshot)
    (balancing : Balancing) (actions : List EngineAction) (call : ServiceCall) :
    let start : Engine := { settings, context, store := .start snapshot, balancing }
    let e := actions.foldl act start
    ∃ e', e.apply call.change = .ok e' ∧ e.store.apply call.change = .ok e'.store ∧
      e' = { e with
        store := e'.store
        breakers := { e.breakers with entries := e'.breakers.entries }
        limiters := { e.limiters with entries := e'.limiters.entries } } ∧
      BreakerRegistry.keeping.Recycles
        (fun uri => IsMadeFor act EngineAction.service? (·.breakers.entries.contains uri) start
          actions)
        (fun service b => e'.store.current.document.DeclaresBreak service b.policy.name)
        e.breakers e'.breakers ∧
      LimiterRegistry.keeping.Recycles
        (fun key => IsMadeFor act EngineAction.service? (·.limiters.entries.contains key) start
          actions)
        (fun service l => e'.store.current.document.DeclaresRate service l.policy.name)
        e.limiters e'.limiters := by
  intro start e
  have hempty : start.IsEmpty := ⟨rfl, rfl⟩
  obtain ⟨hbreakers, hlimiters⟩ := hempty.isBounded actions
  obtain ⟨store, hstore, happly⟩ := e.exists_apply call
  refine ⟨_, happly, hstore, rfl, ?_, ?_⟩
  · exact .retain hbreakers (e.breakers.shelf_recycle _) (hempty.isMadeFor_breaker_iff actions)
      fun service b => Snapshot.keepsBreak_iff
  · exact .retain hlimiters (e.limiters.shelf_recycle _) (hempty.isMadeFor_limiter_iff actions)
      fun service l => Snapshot.keepsRate_iff

end Engine

end TrafficControl
