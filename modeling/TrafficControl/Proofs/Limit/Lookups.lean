import TrafficControl.Limit.Registry
import TrafficControl.Proofs.Roster

/-!
# Look-ups of limiters

A limiter is looked up under a key (`LimitTarget.key`). The registry keeps its limiters on a shelf
(`LimiterRegistry.shelf`), from which it gives them or on which it puts new ones
(`LimiterRegistry.shelf_getOrCreate`). A request for permits changes the bucket of one limiter, and
never its version. So what is registered goes on as its roster says, by look-ups and by dropping
(`LimiterRegistry.goes_getOrCreate`, `LimiterRegistry.goes_recycle`).
-/

namespace TrafficControl

/-- What a limiter is for : a policy of a service. -/
structure LimitTarget where
  service : String
  policy : String
deriving DecidableEq

/-- The key of the limiter. -/
def LimitTarget.key (x : LimitTarget) : String := limiterKey x.service x.policy

namespace LimiterRegistry

variable {r r' : LimiterRegistry} {n now : Nat} {l : Limiter}

/-! ## The shelf -/

theorem find?_eq_some_iff {key : String} {e : LimiterEntry} :
    r.find? key = some (e, l) ↔ r.entries.find? key = some e ∧ r.limiter? e.limiter = some l := by
  simp only [find?, Option.bind_eq_bind, Option.bind_eq_some_iff, Option.pure_def,
    Option.some.injEq, Prod.mk.injEq]
  constructor
  · rintro ⟨_, he, _, hl, rfl, rfl⟩
    exact ⟨he, hl⟩
  · rintro ⟨he, hl⟩
    exact ⟨e, he, l, hl, rfl, rfl⟩

/-- The shelf of the limiters. -/
def shelf (r : LimiterRegistry) : Shelf Limiter where
  find? key := (r.entries.find? key).map fun e => (e.service, e.limiter)
  objects := r.limiters

theorem shelf_register (r : LimiterRegistry) (key service : String) (l : Limiter) :
    (r.register key service l).shelf = r.shelf.register key service l := by
  unfold shelf Shelf.register
  congr 1
  funext k
  rw [register, Table.find?_insert, Function.update_apply]
  split <;> rfl

theorem shelf_getOrCreate (service : String) (p : RatePolicy)
    (hbound : ∀ e, r.shelf.find? (limiterKey service p.name) = some e →
      e.2 < r.shelf.objects.length) (now : Nat) :
    (r.getOrCreate service p now).map (fun got => (got.1, got.2.shelf)) =
      r.shelf.get (limiterKey service p.name) service (·.policy.version = p.version)
        (Limiter.create p now) := by
  have hmake : ∀ owner, ((Limiter.create p now).map fun l =>
        (r.limiters.length, r.register (limiterKey service p.name) owner l)).map
          (fun got => (got.1, got.2.shelf)) =
      (Limiter.create p now).map fun l =>
        (r.shelf.objects.length, r.shelf.register (limiterKey service p.name) owner l) := by
    intro owner
    cases Limiter.create p now with
    | error error => rfl
    | ok l => exact congrArg Except.ok (congrArg _ (r.shelf_register ..))
  unfold getOrCreate Shelf.get
  cases hentry : r.entries.find? (limiterKey service p.name) with
  | none =>
    have hnone : r.shelf.find? (limiterKey service p.name) = none := by simp [shelf, hentry]
    have hfound : r.find? (limiterKey service p.name) = none := by simp [find?, hentry]
    rw [hnone]
    dsimp only
    rw [hfound]
    exact hmake service
  | some entry =>
    have hsome : r.shelf.find? (limiterKey service p.name) =
        some (entry.service, entry.limiter) := by
      simp [shelf, hentry]
    have hl := List.getElem?_eq_getElem (hbound _ hsome)
    have hfound := find?_eq_some_iff.2 ⟨hentry, hl⟩
    rw [hsome]
    dsimp only
    rw [hfound, hl]
    dsimp only
    rw [Option.any_some]
    simp only [decide_eq_true_eq]
    split
    · rfl
    · exact hmake entry.service

theorem shelf_recycle (r : LimiterRegistry) (keep : String → RatePolicy → Bool) :
    (r.recycle keep).2.shelf = r.shelf.retain fun service l => keep service l.policy := by
  unfold shelf Shelf.retain
  congr 1
  funext k
  rw [recycle, Table.find?_retain, Option.filter_map]
  rfl

/-! ## Look-ups -/

/-- What the registry is to those who look limiters up. -/
def roster (r : LimiterRegistry) : Roster := r.shelf.roster (·.policy.version)

/-- The look-ups for a call of a service, by the policies that apply to it. -/
def lookups (r : LimiterRegistry) (service : String) (now : Nat) :
    List RatePolicy → List (Lookup LimitTarget)
  | [] => []
  | p :: rest =>
    match r.getOrCreate service p now with
    | .error _ => r.lookups service now rest
    | .ok (n, made) =>
      ⟨⟨service, p.name⟩, p.version, r.roster.find? (limiterKey service p.name), n⟩ ::
        made.lookups service now rest

/-- Whether a registry came from another by the look-ups given. -/
abbrev Goes (r : LimiterRegistry) (ls : List (Lookup LimitTarget)) (r' : LimiterRegistry) : Prop :=
  r.shelf.Goes LimitTarget.key (·.policy.version) ls r'.shelf

theorem policy_of_create {p : RatePolicy} (h : Limiter.create p now = .ok l) : l.policy = p := by
  unfold Limiter.create at h
  cases hbucket : Bucket.ofPolicy (α := Float) p 0 with
  | error error =>
    rw [hbucket] at h
    exact nomatch h
  | ok bucket =>
    rw [hbucket] at h
    obtain rfl := Except.ok.inj h
    rfl

theorem goes_getOrCreate {service : String} {p : RatePolicy} (hbounded : r.shelf.IsBounded)
    (h : r.getOrCreate service p now = .ok (n, r')) :
    r.Goes [⟨⟨service, p.name⟩, p.version, r.roster.find? (limiterKey service p.name), n⟩] r' := by
  have hget := shelf_getOrCreate service p (hbounded (limiterKey service p.name)) now
  rw [h] at hget
  exact Shelf.goes_get hbounded (x := LimitTarget.mk service p.name)
    (fun l hl => by rw [policy_of_create hl]) hget.symm

theorem goes_recycle (hbounded : r.shelf.IsBounded) (keep : String → RatePolicy → Bool) :
    r.Goes [] (r.recycle keep).2 := by
  rw [Goes, shelf_recycle]
  exact Shelf.goes_retain hbounded _

/-- A limiter that was asked for permits has the policy that it had. -/
theorem goes_update (hbounded : r.shelf.IsBounded) (hl : r.limiter? n = some l) (permits now : Nat)
    (timeout : Int) : r.Goes [] (r.update n (l.acquire permits now timeout).2) :=
  Shelf.goes_put hbounded hl rfl

end LimiterRegistry

end TrafficControl
