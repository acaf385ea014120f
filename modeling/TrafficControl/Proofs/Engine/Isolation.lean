import TrafficControl.Proofs.Engine.Silence

/-!
# Isolation

Breakers and limiters of different resources are different objects, and what is done for calls that
ask for other resources changes no answer to a call (`Session.Isolates`). So it is in every run in
which no two resources that are asked for have one key and no listener of breakers fails
(`Session.isolates_run`). Keys are names joined by separators. Where services have no slash and
policies of breakers no question mark in their names, different resources have different keys
(`BreakTarget.uri_inj`, `LimitTarget.key_inj`).

But any names are let through. Then two resources with one key share what is registered under it,
and the one bears what the other did (`not_isolates_joined`).
-/

namespace TrafficControl

/-! ## Keys -/

/-- Two lists are told apart from what follows the first separator. -/
theorem append_cons_inj {α : Type} {a : α} {l l' r r' : List α} (h : a ∉ l) (h' : a ∉ l')
    (heq : l ++ a :: r = l' ++ a :: r') : l = l' ∧ r = r' := by
  induction l generalizing l' with
  | nil =>
    cases l' with
    | nil => exact ⟨rfl, (List.cons.inj heq).2⟩
    | cons b l' => exact absurd ((List.cons.inj heq).1 ▸ List.mem_cons_self) h'
  | cons b l ih =>
    cases l' with
    | nil => exact absurd ((List.cons.inj heq).1 ▸ List.mem_cons_self) h
    | cons b' l' =>
      obtain ⟨rfl, hrest⟩ := List.cons.inj heq
      obtain ⟨rfl, rfl⟩ :=
        ih (List.not_mem_of_not_mem_cons h) (List.not_mem_of_not_mem_cons h') hrest
      exact ⟨rfl, rfl⟩

namespace LimitTarget

theorem toList_key (x : LimitTarget) :
    x.key.toList = x.service.toList ++ '/' :: x.policy.toList := by
  have hkey : x.key = x.service ++ "/" ++ x.policy := rfl
  simp [hkey]

/-- Services without a slash have limiters of their own. -/
theorem key_inj {x y : LimitTarget} (hx : '/' ∉ x.service.toList) (hy : '/' ∉ y.service.toList)
    (h : x.key = y.key) : x = y := by
  have hlists := congrArg String.toList h
  rw [toList_key, toList_key] at hlists
  obtain ⟨hservice, hpolicy⟩ := append_cons_inj hx hy hlists
  obtain ⟨service, policy⟩ := x
  obtain ⟨service', policy'⟩ := y
  rw [mk.injEq]
  exact ⟨String.toList_inj.1 hservice, String.toList_inj.1 hpolicy⟩

end LimitTarget

namespace BreakTarget

/-- The part of the URI that comes after the service. -/
def ending (x : BreakTarget) : List Char :=
  match x.endpoint with
  | none => x.policy.toList
  | some endpoint => x.policy.toList ++ '?' :: ("instance=" ++ endpoint).toList

theorem toList_uri (x : BreakTarget) :
    x.uri.toList = "breaker://".toList ++ (x.service.toList ++ '/' :: x.ending) := by
  obtain ⟨service, policy, endpoint⟩ := x
  cases endpoint with
  | none =>
    have huri : BreakTarget.uri ⟨service, policy, none⟩ =
        "breaker://" ++ service ++ "/" ++ policy := rfl
    simp [huri, ending]
  | some endpoint =>
    have huri : BreakTarget.uri ⟨service, policy, some endpoint⟩ =
        "breaker://" ++ service ++ "/" ++ policy ++ "?instance=" ++ endpoint := rfl
    simp [huri, ending]

theorem ending_inj {x y : BreakTarget} (hx : '?' ∉ x.policy.toList) (hy : '?' ∉ y.policy.toList)
    (h : x.ending = y.ending) : x.policy = y.policy ∧ x.endpoint = y.endpoint := by
  obtain ⟨service, policy, _ | endpoint⟩ := x <;>
    obtain ⟨service', policy', _ | endpoint'⟩ := y <;> simp only [ending] at h hx hy
  · exact ⟨String.toList_inj.1 h, rfl⟩
  · exact absurd (h ▸ List.mem_append_right _ List.mem_cons_self) hx
  · exact absurd (h ▸ List.mem_append_right _ List.mem_cons_self) hy
  · obtain ⟨hpolicy, hendpoint⟩ := append_cons_inj hx hy h
    rw [String.toList_append, String.toList_append, List.append_cancel_left_eq] at hendpoint
    exact ⟨String.toList_inj.1 hpolicy, congrArg some (String.toList_inj.1 hendpoint)⟩

/-- Services without a slash and policies without a question mark have breakers of their own. -/
theorem uri_inj {x y : BreakTarget} (hx : '/' ∉ x.service.toList) (hy : '/' ∉ y.service.toList)
    (hpx : '?' ∉ x.policy.toList) (hpy : '?' ∉ y.policy.toList) (h : x.uri = y.uri) : x = y := by
  have hlists := congrArg String.toList h
  rw [toList_uri, toList_uri, List.append_cancel_left_eq] at hlists
  obtain ⟨hservice, hending⟩ := append_cons_inj hx hy hlists
  obtain ⟨hpolicy, hendpoint⟩ := ending_inj hpx hpy hending
  obtain ⟨service, policy, endpoint⟩ := x
  obtain ⟨service', policy', endpoint'⟩ := y
  rw [mk.injEq]
  exact ⟨String.toList_inj.1 hservice, hpolicy, hendpoint⟩

end BreakTarget

/-- Names without the separators keep keys apart. -/
theorem keysDiffer_of_notMem {events : List Event}
    (hbreakers : ∀ q ∈ events.flatMap Event.breaksAsked,
      '/' ∉ q.1.service.toList ∧ '?' ∉ q.1.policy.toList)
    (hlimiters : ∀ q ∈ events.flatMap Event.limitsAsked, '/' ∉ q.1.service.toList) :
    KeysDiffer events where
  breakers q hq q' hq' := BreakTarget.uri_inj (hbreakers q hq).1 (hbreakers q' hq').1
    (hbreakers q hq).2 (hbreakers q' hq').2
  limiters q hq q' hq' := LimitTarget.key_inj (hlimiters q hq) (hlimiters q' hq')

/-! ## Isolation -/

namespace Session

/-- Whether the resources that are asked for in a run are isolated from each other. -/
structure Isolates (s : Session) (events : List Event) : Prop where
  /-- Different resources are given different objects. -/
  breakers : ∀ l ∈ s.trace breakerLookups events, ∀ m ∈ s.trace breakerLookups events,
    l.resource ≠ m.resource → l.given ≠ m.given
  limiters : ∀ l ∈ s.trace limiterLookups events, ∀ m ∈ s.trace limiterLookups events,
    l.resource ≠ m.resource → l.given ≠ m.given
  /-- Where every call asks for resources of a set only, or for none of them, the calls that ask for
  none of them change no answer to the others. -/
  answers : ∀ R : Resources,
    (∀ i pacing, .ask i pacing ∈ events → R.covers i ∨ R.spares i) →
    s.trace (answers R) (s.trace (silenced R) events) = s.trace (answers R) events

theorem mem_breaksAsked {events : List Event} {i : Invocation} {pacing : Pacing}
    (h : .ask i pacing ∈ events) {g : BreakTarget × BreakPolicy} (hg : g ∈ Engine.guarded i) :
    (g.1, g.2.version) ∈ events.flatMap Event.breaksAsked :=
  List.mem_flatMap.2 ⟨_, h, List.mem_map.2 ⟨g, hg, rfl⟩⟩

theorem mem_limitsAsked {events : List Event} {i : Invocation} {pacing : Pacing}
    (h : .ask i pacing ∈ events) {p : RatePolicy} (hp : p ∈ Engine.limits i) :
    (⟨i.service.name, p.name⟩, p.version) ∈ events.flatMap Event.limitsAsked :=
  List.mem_flatMap.2 ⟨_, h, List.mem_map.2 ⟨p, hp, rfl⟩⟩

/-- The session of a new engine matches itself, whatever the keys. -/
theorem matches_start (K L : String → Prop) (settings : Settings) (context : Context)
    (snapshot : Snapshot) (balancing : Balancing) (now : Nat) :
    (start settings context snapshot balancing now).Matches K L (fun _ _ => False)
      (fun _ _ => False) (start settings context snapshot balancing now) where
  engine :=
    { settings := rfl
      store := rfl
      breakers := ⟨⟨nofun, nofun, fun _ _ => .none, nofun⟩, nofun, nofun⟩
      limiters := ⟨nofun, nofun, fun _ _ => .none, nofun⟩ }
  now := rfl
  admitted := rfl
  live := .nil

/-- The URIs that a run asks for in a set. -/
def urisIn (R : Resources) (events : List Event) (uri : String) : Prop :=
  ∃ q ∈ events.flatMap Event.breaksAsked, R.breakers q.1 ∧ q.1.uri = uri

/-- The keys of limiters that a run asks for in a set. -/
def keysIn (R : Resources) (events : List Event) (key : String) : Prop :=
  ∃ q ∈ events.flatMap Event.limitsAsked, R.limiters q.1 ∧ q.1.key = key

variable {R : Resources} {events : List Event} {i : Invocation} {pacing : Pacing}

/-- What a call asks for, if it is of a set, is found by keys. -/
theorem isWithin_of_covers (hask : .ask i pacing ∈ events) (hi : R.covers i) :
    (Event.ask i pacing).IsWithin (urisIn R events) (keysIn R events) := by
  obtain ⟨hbreakers, hlimiters⟩ := (Bool.and_eq_true ..).mp hi
  rw [List.all_eq_true] at hbreakers hlimiters
  refine ⟨fun g hg => ?_, fun p hp => ?_⟩
  · exact ⟨_, mem_breaksAsked hask hg, hbreakers _ (List.mem_map.2 ⟨g, hg, rfl⟩), rfl⟩
  · exact ⟨_, mem_limitsAsked hask hp, hlimiters _ (List.mem_map.2 ⟨p, hp, rfl⟩), rfl⟩

/-- What a call asks for, if it is not of a set, is not mistaken for what is. -/
theorem not_keysIn_of_spares (hkeys : KeysDiffer events) (hask : .ask i pacing ∈ events)
    (hi : R.spares i) : (∀ g ∈ Engine.guarded i, ¬urisIn R events g.1.uri) ∧
      ∀ p ∈ Engine.limits i, ¬keysIn R events (limiterKey i.service.name p.name) := by
  obtain ⟨hbreakers, hlimiters⟩ := (Bool.and_eq_true ..).mp hi
  rw [List.all_eq_true] at hbreakers hlimiters
  refine ⟨?_, ?_⟩
  · rintro g hg ⟨q, hq, hin, huri⟩
    have hspared := hbreakers _ (List.mem_map.2 ⟨g, hg, rfl⟩)
    rw [hkeys.breakers q hq _ (mem_breaksAsked hask hg) huri] at hin
    simp [hin] at hspared
  · rintro p hp ⟨q, hq, hin, hkey⟩
    have hspared := hlimiters _ (List.mem_map.2 ⟨p, hp, rfl⟩)
    rw [hkeys.limiters q hq _ (mem_limitsAsked hask hp) hkey] at hin
    simp [hin] at hspared

/-- Resources with different keys are isolated from each other, as long as no listener of breakers
fails. -/
theorem isolates_run (settings : Settings) (context : Context) (snapshot : Snapshot)
    (balancing : Balancing) (now : Nat) {events : List Event} (hkeys : KeysDiffer events)
    (hreliable : ∀ l, .listen l ∈ events → ∀ k, l.fails k = false) :
    (start settings context snapshot balancing now).Isolates events := by
  obtain ⟨hbreakers, hlimiters⟩ := records_run settings context snapshot balancing now events
  refine ⟨fun l hl m hm hne hgiven => hne ?_, fun l hl m hm hne hgiven => hne ?_, fun R hR => ?_⟩
  · have hasked := (sublist_trace sublist_breakerLookups
      (start settings context snapshot balancing now) events).subset
    exact hkeys.breakers l.asked (hasked (List.mem_map_of_mem hl)) m.asked
      (hasked (List.mem_map_of_mem hm)) (hbreakers.apart l hl m hm hgiven)
  · have hasked := (sublist_trace sublist_limiterLookups
      (start settings context snapshot balancing now) events).subset
    exact hkeys.limiters l.asked (hasked (List.mem_map_of_mem hl)) m.asked
      (hasked (List.mem_map_of_mem hm)) (hlimiters.apart l hl m hm hgiven)
  · have hstart := matches_start (urisIn R events) (keysIn R events) settings context snapshot
      balancing now
    refine hstart.trace_eq (fun i pacing hask hi => not_keysIn_of_spares hkeys hask hi) ?_
    intro event hevent hkept
    cases event with
    | ask i pacing =>
      have hcovers := (hR i pacing hevent).resolve_right (hkept i pacing rfl)
      exact isWithin_of_covers hevent hcovers
    | listen l => exact hreliable l hevent
    | _ => trivial

end Session

/-! ## Two services -/

namespace TwoServices

/-- A service with a breaker, which opens at the first failed call, and a limit of the same name. -/
def service (name policy : String) : Service where
  name
  bundle := some
    { breaks := [{ name := policy, minimumCalls := 1 }]
      rates := [{ name := policy, windows := [⟨1, 1000⟩] }] }

/-- A session of two services, each given by its name and the name of its policies. -/
def session (x y : String × String) : Session :=
  .start {} {} (.ofDocument { services := [service x.1 x.2, service y.1 y.2] }) .roundRobin 0

def call (x y : String × String) (name : String) : Invocation :=
  (session x y).engine.invocation { service := name } []

/-- A call of each service is asked for. -/
def both (x y : String × String) : List Event :=
  [.ask (call x y x.1) .blocking, .ask (call x y y.1) .blocking]

/-- A call of the first service fails, and then one of the second is asked for. -/
def failing (x y : String × String) : List Event :=
  [.ask (call x y x.1) .blocking, .complete 0 (.failure 5 "down"),
    .ask (call x y y.1) .blocking]

/-- What is for the second service. -/
def second (y : String × String) : Resources where
  breakers target := target.service = y.1
  limiters target := target.service = y.1

end TwoServices

open TwoServices in
/-- Services with plain names are isolated, although their policies have the same name. -/
theorem isolates_plain :
    KeysDiffer (failing ("orders", "load") ("stock", "load")) ∧
      (session ("orders", "load") ("stock", "load")).Isolates
        (failing ("orders", "load") ("stock", "load")) := by
  have hkeys : KeysDiffer (failing ("orders", "load") ("stock", "load")) :=
    keysDiffer_of_notMem (by decide) (by decide)
  refine ⟨hkeys, Session.isolates_run {} {} _ .roundRobin 0 hkeys fun l hl => ?_⟩
  simp [failing] at hl

open TwoServices in
set_option maxRecDepth 8000 in
/-- Names with slashes may have one key. Then the two services are given one breaker and one
limiter, and the second is refused because a call of the first failed. -/
theorem not_isolates_joined :
    let s := session ("a/b", "c") ("a", "b/c")
    let run := both ("a/b", "c") ("a", "b/c")
    let run' := failing ("a/b", "c") ("a", "b/c")
    let R := second ("a", "b/c")
    (∃ l ∈ s.trace Session.breakerLookups run, ∃ m ∈ s.trace Session.breakerLookups run,
        l.resource ≠ m.resource ∧ l.given = m.given) ∧
      (∃ l ∈ s.trace Session.limiterLookups run, ∃ m ∈ s.trace Session.limiterLookups run,
        l.resource ≠ m.resource ∧ l.given = m.given) ∧
      (∀ i pacing, .ask i pacing ∈ run' → R.covers i ∨ R.spares i) ∧
      s.trace (Session.answers R) (s.trace (Session.silenced R) run') ≠
        s.trace (Session.answers R) run' := by
  intro s run run' R
  have hbreakers : s.trace Session.breakerLookups run =
      [⟨⟨"a/b", "c", none⟩, 0, none, 0⟩, ⟨⟨"a", "b/c", none⟩, 0, some (0, 0), 0⟩] := by decide
  have hlimiters : s.trace Session.limiterLookups run =
      [⟨⟨"a/b", "c"⟩, 0, none, 0⟩, ⟨⟨"a", "b/c"⟩, 0, some (0, 0), 0⟩] := by decide
  refine ⟨?_, ?_, ?_, fun heq => ?_⟩
  · rw [hbreakers]
    exact ⟨_, List.mem_cons_self, _, List.mem_cons_of_mem _ List.mem_cons_self, by decide, rfl⟩
  · rw [hlimiters]
    exact ⟨_, List.mem_cons_self, _, List.mem_cons_of_mem _ List.mem_cons_self, by decide, rfl⟩
  · intro i pacing hask
    obtain ⟨rfl, -⟩ | ⟨rfl, -⟩ : i = call ("a/b", "c") ("a", "b/c") "a/b" ∧ pacing = .blocking ∨
        i = call ("a/b", "c") ("a", "b/c") "a" ∧ pacing = .blocking := by
      simpa [run', failing] using hask
    · exact .inr (by decide)
    · exact .inl (by decide)
  · have hreplies := congrArg (List.map fun answer => answer.1 matches .refused _) heq
    exact absurd hreplies (by decide)

end TrafficControl
