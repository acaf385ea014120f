import TrafficControl.Proofs.Breaker.History
import TrafficControl.Proofs.Engine.Ledger
import TrafficControl.Proofs.Roster

/-!
# Look-ups of breakers

A breaker is looked up under a URI (`BreakTarget.uri`). The registry keeps its breakers on a shelf
(`BreakerRegistry.shelf`), from which it gives them or on which it puts new ones
(`BreakerRegistry.shelf_getOrCreate`). A call of a breaker changes this breaker and nothing else on
the shelf (`BreakerRegistry.shelf_call`), and never its version. So what is registered goes on as
its roster says, by look-ups and by dropping (`BreakerRegistry.goes_getOrCreate`,
`BreakerRegistry.goes_recycle`).
-/

namespace TrafficControl

/-- What a breaker is for : a policy of a service, for the service as a whole or for one of its
endpoints. -/
structure BreakTarget where
  service : String
  policy : String
  endpoint : Option String := none
deriving DecidableEq

/-- The URI of the breaker. -/
def BreakTarget.uri (x : BreakTarget) : String :=
  match x.endpoint with
  | none => serviceUri x.service x.policy
  | some endpoint => instanceUri x.service x.policy endpoint

namespace BreakerRegistry

variable {r r' : BreakerRegistry} {n now : Nat} {b : Breaker}

/-! ## The shelf -/

/-- The shelf of the breakers. -/
def shelf (r : BreakerRegistry) : Shelf Breaker where
  find? uri := (r.entries.find? uri).map fun e => (e.service, e.breaker)
  objects := r.all

theorem shelf_register (r : BreakerRegistry) (uri service : String) (p : BreakPolicy) (now : Nat) :
    (r.register uri service p now).shelf =
      r.shelf.register uri service (.create uri p now) := by
  have hlength : r.all.length = r.breakers.length := List.length_map _
  unfold shelf Shelf.register
  rw [all_register]
  congr 1
  funext k
  rw [register, Table.find?_insert, Function.update_apply, hlength]
  split <;> rfl

/-- A policy that is not valid gets no breaker. -/
theorem shelf_getOrCreate (r : BreakerRegistry) (service uri : String) (p : BreakPolicy)
    (now : Nat) :
    (r.getOrCreate service uri p now).map (fun got => (got.1, got.2.shelf)) =
      p.check.bind fun _ =>
        r.shelf.get uri service (·.policy.version = p.version) (.ok (.create uri p now)) := by
  have hlength : r.shelf.objects.length = r.breakers.length := List.length_map _
  unfold getOrCreate
  cases p.check with
  | error error => rfl
  | ok =>
    change _ = r.shelf.get uri service _ _
    unfold Shelf.get
    cases hfound : r.entries.find? uri with
    | none =>
      have hnone : r.shelf.find? uri = none := by simp [shelf, hfound]
      rw [hnone, hlength]
      exact congrArg Except.ok (congrArg _ (r.shelf_register ..))
    | some entry =>
      have hsome : r.shelf.find? uri = some (entry.service, entry.breaker) := by
        simp [shelf, hfound]
      have hobject : r.shelf.objects[entry.breaker]? = r.breaker? entry.breaker :=
        r.getElem?_all _
      rw [hsome, hlength]
      dsimp only
      rw [hobject]
      change Except.map _ (if _ then Except.ok _ else Except.ok _) = _
      split
      · rfl
      · exact congrArg Except.ok (congrArg _ (r.shelf_register ..))

theorem shelf_recycle (r : BreakerRegistry) (keep : String → BreakPolicy → Bool) :
    (r.recycle keep).2.shelf = r.shelf.retain fun service b => keep service b.policy := by
  unfold shelf Shelf.retain
  congr 1
  funext k
  rw [recycle, Table.find?_retain, Option.filter_map]
  simp only [getElem?_all, Function.comp_def]

/-- A call of a breaker changes this breaker only. -/
theorem shelf_call (h : r.breaker? n = some b) (now : Nat) (c : BreakerCall) :
    (r.call n now c).shelf =
      r.shelf.put n (b.called now (r.announce n (b.told now c)).1 c) := by
  have htells := r.onlyTells_announce n (b.told now c)
  rw [call_eq h]
  unfold shelf Shelf.put
  rw [all_update, htells.all, update, htells.entries]

theorem call_of_none (h : r.breaker? n = none) (now : Nat) (c : BreakerCall) :
    r.call n now c = r := by
  cases c <;> simp [call, acquire, releasePermit, complete, window, h]

/-! ## Look-ups -/

/-- What the registry is to those who look breakers up. -/
def roster (r : BreakerRegistry) : Roster := r.shelf.roster (·.policy.version)

/-- The look-ups for a call of a service, by the breakers that guard it, up to the first that does
not grant a permit. -/
def lookups (r : BreakerRegistry) (service : String) (now : Nat) :
    List (BreakTarget × BreakPolicy) → List (Lookup BreakTarget)
  | [] => []
  | (x, p) :: rest =>
    match r.getOrCreate service x.uri p now with
    | .error _ => r.lookups service now rest
    | .ok (n, made) =>
      ⟨x, p.version, r.roster.find? x.uri, n⟩ ::
        match made.acquire n now with
        | (.granted _, r) => r.lookups service now rest
        | (.refused, _) | (.interrupted, _) => []

/-- Whether a registry came from another by the look-ups given. -/
abbrev Goes (r : BreakerRegistry) (ls : List (Lookup BreakTarget)) (r' : BreakerRegistry) : Prop :=
  r.shelf.Goes BreakTarget.uri (·.policy.version) ls r'.shelf

theorem goes_getOrCreate {service : String} {x : BreakTarget} {p : BreakPolicy}
    (hbounded : r.shelf.IsBounded) (h : r.getOrCreate service x.uri p now = .ok (n, r')) :
    r.Goes [⟨x, p.version, r.roster.find? x.uri, n⟩] r' := by
  have hget := r.shelf_getOrCreate service x.uri p now
  rw [h] at hget
  cases hcheck : p.check with
  | error error =>
    rw [hcheck] at hget
    exact nomatch hget
  | ok =>
    rw [hcheck] at hget
    refine Shelf.goes_get hbounded (fun b hb => ?_) hget.symm
    obtain rfl := Except.ok.inj hb
    rfl

theorem goes_call (hbounded : r.shelf.IsBounded) (n now : Nat) (c : BreakerCall) :
    r.Goes [] (r.call n now c) := by
  cases h : r.breaker? n with
  | none =>
    rw [call_of_none h]
    exact .refl hbounded
  | some b =>
    have hmoves := b.moves_called now (r.announce n (b.told now c)).1 c
    rw [Goes, shelf_call h]
    exact Shelf.goes_put hbounded ((r.getElem?_all n).trans h) (by rw [hmoves.policy])

theorem goes_recycle (hbounded : r.shelf.IsBounded) (keep : String → BreakPolicy → Bool) :
    r.Goes [] (r.recycle keep).2 := by
  rw [Goes, shelf_recycle]
  exact Shelf.goes_retain hbounded _

theorem goes_giveBack (hbounded : r.shelf.IsBounded) (held : List (Nat × Permit)) :
    r.Goes [] (held.foldl (fun r (n, p) => r.releasePermit n p) r) := by
  induction held generalizing r with
  | nil => exact .refl hbounded
  | cons q held ih =>
    have hback := goes_call hbounded q.1 0 (.releasePermit q.2)
    exact hback.trans (ih hback.isBounded)

end BreakerRegistry

end TrafficControl
