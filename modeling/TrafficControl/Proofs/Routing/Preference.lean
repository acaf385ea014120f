import TrafficControl.Proofs.Routing.Narrowing

/-!
# Preferences and suitable endpoints

Health and the cell of the application are preferences; the unit, the lane and the breakers are
demands. An endpoint that is healthy and meets all demands is suitable (`Engine.Suits`). The
preference for the cell is settled before lanes and breakers are looked at : once a healthy endpoint
of the unit is in the cell, the others are gone (`Invocation.preferredCell?`). So a suitable
endpoint outside of the cell is not always found (`not_findsSuitable`). If there is a suitable
endpoint at all, the call is routed to its target lane exactly if one of them is in the preferred
cell, or no cell is preferred (`Engine.routesToTarget_iff`).
-/

namespace TrafficControl

namespace Invocation

/-- Whether an endpoint is healthy and in the unit to which the call is routed. -/
structure InPlace (i : Invocation) (x : Endpoint) : Prop where
  healthy : x.healthy
  inUnit : ∀ unit, i.routedUnit? = some unit → x.isUnit unit

/-- The cell to which the call is narrowed : that of the application, if the call stays in its unit
and a healthy endpoint of the unit is in it. -/
def preferredCell? (i : Invocation) : Option String := do
  let unit ← i.routedUnit?
  (i.localCell? unit).filter fun cell =>
    i.selection.endpoints.any fun y => y.healthy && y.isUnit unit && y.isCell cell

variable {i : Invocation} {x : Endpoint}

/-- Where an endpoint is healthy, the healthy ones are left. -/
theorem mem_atHealthy (h : ∃ y ∈ i.selection.endpoints, y.healthy) :
    x ∈ i.atHealthy.endpoints ↔ x ∈ i.selection.endpoints ∧ x.healthy := by
  rw [atHealthy, Selection.mem_filter_soft]
  exact and_congr_right fun _ => ⟨fun hx => hx h, fun hx _ => hx⟩

/-- Where an endpoint is in place, those in place are left, and of these only the ones in the
preferred cell if there is one. -/
theorem mem_atUnit (h : ∃ y ∈ i.selection.endpoints, i.InPlace y) :
    x ∈ (i.withSelection i.atHealthy).atUnit.endpoints ↔
      x ∈ i.selection.endpoints ∧ i.InPlace x ∧
        ∀ cell, i.preferredCell? = some cell → x.isCell cell := by
  obtain ⟨y, hy, hplace⟩ := h
  have hhealthy : ∀ z, z ∈ i.atHealthy.endpoints ↔ z ∈ i.selection.endpoints ∧ z.healthy :=
    fun z => mem_atHealthy ⟨y, hy, hplace.healthy⟩
  have hunit : (i.withSelection i.atHealthy).routedUnit? = i.routedUnit? := rfl
  rw [atUnit, hunit]
  cases hrouted : i.routedUnit? with
  | none =>
    have hin : i.InPlace x ↔ x.healthy :=
      ⟨fun hx => hx.healthy, fun hx => ⟨hx, by simp [hrouted]⟩⟩
    simp [preferredCell?, hrouted, hhealthy, hin]
  | some unit =>
    have hin : i.InPlace x ↔ x.healthy ∧ x.isUnit unit :=
      ⟨fun hx => ⟨hx.healthy, hx.inUnit unit hrouted⟩, fun hx => ⟨hx.1, by simp [hrouted, hx.2]⟩⟩
    have hcell : ∀ cell, i.preferredCell? = some cell ↔ i.localCell? unit = some cell ∧
        ∃ z ∈ i.selection.endpoints, z.healthy ∧ z.isUnit unit ∧ z.isCell cell := by
      simp [preferredCell?, hrouted, Option.filter_eq_some_iff, and_assoc]
    have hlocal : (i.withSelection i.atHealthy).localCell? unit = i.localCell? unit := rfl
    simp only [Selection.mem_keepUnit, selection_withSelection, hlocal, hhealthy, hin, hcell,
      and_assoc, and_imp]

/-- If lanes are in use and some endpoint is on the target lane, those on it are left. -/
theorem mem_atLane (h : i.context.laneEnabled →
      ∃ y ∈ i.selection.endpoints, i.isOnLane i.lanePlan.target y) :
    x ∈ i.atLane.endpoints ↔ x ∈ i.selection.endpoints ∧
      (i.context.laneEnabled → i.isOnLane i.lanePlan.target x) := by
  unfold atLane
  split
  · next hlane => rw [mem_onLanes (h hlane)]; simp [hlane]
  · next hlane => simp [hlane]

end Invocation

namespace Engine

/-- Whether an endpoint is healthy and meets all demands of a call. -/
structure Suits (e : Engine) (i : Invocation) (now : Nat) (x : Endpoint) : Prop where
  inPlace : i.InPlace x
  onLane : i.context.laneEnabled → i.isOnLane i.lanePlan.target x
  letsThrough : e.LetsThrough i now x

/-- Whether a call is routed to an endpoint, and to one on its target lane if lanes are in use. -/
def RoutesToTarget (e : Engine) (i : Invocation) (now draw : Nat) : Prop :=
  ∃ c, (e.route i now draw).1 = .ok c ∧
    (i.context.laneEnabled → i.isOnLane i.lanePlan.target c.endpoint)

variable {e : Engine} {i : Invocation} {now : Nat} {x : Endpoint}

/-- If the filters for health, units and lanes leave an endpoint whose breakers let the call
through, the call is routed to such an endpoint. -/
theorem exists_route_eq_ok (draw : Nat) (hunit : ¬i.IsRefused)
    (h : ∃ y ∈ i.narrowed.selection.endpoints, e.LetsThrough i now y) :
    ∃ c, (e.route i now draw).1 = .ok c ∧ c.endpoint ∈ i.narrowed.selection.endpoints ∧
      e.LetsThrough i now c.endpoint := by
  obtain ⟨turns, i', c, hrun, hchoice, hget, hsub, hlets⟩ := e.run_lastFilters (i := i.narrowed)
    draw e.turns h
  refine ⟨c, ?_, hsub.subset (List.mem_of_getElem? hget), hlets⟩
  simp [route, e.run_outboundFilters now draw e.turns hunit, hrun, hchoice]

/-- If they leave none, the call is not routed. -/
theorem exists_route_eq_error (draw : Nat) (hunit : ¬i.IsRefused)
    (h : ∀ y ∈ i.narrowed.selection.endpoints, ¬e.LetsThrough i now y) :
    ∃ f, (e.route i now draw).1 = .error f := by
  obtain ⟨f, turns, i', hrun⟩ := e.run_lastFilters_of_none (i := i.narrowed) draw e.turns h
  exact ⟨f, by simp [route, e.run_outboundFilters now draw e.turns hunit, hrun]⟩

theorem routesToTarget_iff_of_suits (draw : Nat) (hunit : ¬i.IsRefused)
    (h : ∃ y ∈ i.selection.endpoints, e.Suits i now y) :
    e.RoutesToTarget i now draw ↔ ∃ y ∈ i.selection.endpoints, e.Suits i now y ∧
      ∀ cell, i.preferredCell? = some cell → y.isCell cell := by
  obtain ⟨z, hz, hsuits⟩ := h
  have hunit_iff := fun y => i.mem_atUnit (x := y) ⟨z, hz, hsuits.inPlace⟩
  constructor
  · rintro ⟨c, hc, hlane⟩
    have hlets : ∃ y ∈ i.narrowed.selection.endpoints, e.LetsThrough i now y := by
      by_contra hnone
      obtain ⟨f, hf⟩ := exists_route_eq_error draw hunit
        fun y hy hlets => hnone ⟨y, hy, hlets⟩
      exact nomatch hc.symm.trans hf
    obtain ⟨c', hc', hmem, hthrough⟩ := exists_route_eq_ok draw hunit hlets
    obtain rfl : c' = c := Except.ok.inj (hc'.symm.trans hc)
    obtain ⟨hin, hplace, hcell⟩ := (hunit_iff _).1 ((Invocation.sublist_atLane _).subset hmem)
    exact ⟨c'.endpoint, hin, ⟨hplace, hlane, hthrough⟩, hcell⟩
  · rintro ⟨y, hy, hysuits, hcell⟩
    have hleft := (hunit_iff y).2 ⟨hy, hysuits.inPlace, hcell⟩
    have hlane_iff := fun w => Invocation.mem_atLane (x := w)
      (i := (i.withSelection i.atHealthy).withSelection (i.withSelection i.atHealthy).atUnit)
      fun hlane => ⟨y, hleft, hysuits.onLane hlane⟩
    obtain ⟨c, hc, hmem, -⟩ := exists_route_eq_ok draw hunit
      ⟨y, (hlane_iff y).2 ⟨hleft, hysuits.onLane⟩, hysuits.letsThrough⟩
    exact ⟨c, hc, ((hlane_iff _).1 hmem).2⟩

/-- If some endpoint suits a call that its unit does not refuse, the call is routed, and to its
target lane, exactly if such an endpoint is in the preferred cell, or no cell is preferred. -/
theorem routesToTarget_iff (e : Engine) (r : Request) (endpoints : List Endpoint) (now draw : Nat)
    (hunit : ¬(e.invocation r endpoints).IsRefused)
    (h : ∃ x ∈ endpoints, e.Suits (e.invocation r endpoints) now x) :
    e.RoutesToTarget (e.invocation r endpoints) now draw ↔
      ∃ x ∈ endpoints, e.Suits (e.invocation r endpoints) now x ∧
        ∀ cell, (e.invocation r endpoints).preferredCell? = some cell → x.isCell cell :=
  routesToTarget_iff_of_suits draw hunit h

/-- Whether a call that some endpoint suits, and that its unit does not refuse, is routed to its
target. -/
def FindsSuitable (e : Engine) (r : Request) (endpoints : List Endpoint) (now draw : Nat) : Prop :=
  ¬(e.invocation r endpoints).IsRefused →
    (∃ x ∈ endpoints, e.Suits (e.invocation r endpoints) now x) →
      e.RoutesToTarget (e.invocation r endpoints) now draw

end Engine

/-! ## A lane served in another cell -/

namespace TwoCells

/-- One unit of two cells. -/
def space : LiveSpace where
  id := "live"
  spec := { units := [{ code := "east", cells := [{ code := "e1" }, { code := "e2" }] }] }

/-- Two lanes, the first of them the default one. -/
def lanes : LaneSpace where
  id := "lanes"
  isDefault := true
  lanes := [{ code := "base", isDefault := true }, { code := "gray" }]

/-- The service that is called, in the local unit. -/
def service : Service where
  name := "orders"
  bundle := some { live := some { unitPolicy := .preferLocal } }

/-- An application in the first cell. -/
def engine : Engine where
  settings := {}
  context := { application := { location := {
    liveSpace := some "live", unit := some "east", cell := some "e1" } } }
  store := .start (.ofDocument
    { liveSpaces := [space], laneSpaces := [lanes], services := [service] })
  balancing := .roundRobin

/-- A call in the second lane. -/
def request : Request := { service := "orders", headers := .ofList [(Header.lane, "gray")] }

/-- An endpoint of the first cell, in the default lane. -/
def near : Endpoint := { id := "near", unit := some "east", cell := some "e1" }

/-- An endpoint of the second cell, in the lane of the call. -/
def far : Endpoint :=
  { id := "far", unit := some "east", cell := some "e2", lane := some "gray" }

/-- An endpoint of the first cell, in the lane of the call. -/
def beside : Endpoint :=
  { id := "beside", unit := some "east", cell := some "e1", lane := some "gray" }

theorem routedUnit?_invocation (endpoints : List Endpoint) :
    (engine.invocation request endpoints).routedUnit? = some "east" := rfl

theorem not_isRefused (endpoints : List Endpoint) :
    ¬(engine.invocation request endpoints).IsRefused := by
  rintro ⟨-, why, h⟩
  have hroute : (engine.invocation request endpoints).unitDecision = .route "east" := rfl
  exact UnitDecision.noConfusion (hroute.symm.trans h)

theorem suits (endpoints : List Endpoint) {x : Endpoint} (hx : x ∈ [far, beside]) :
    engine.Suits (engine.invocation request endpoints) 0 x := by
  have hroute := routedUnit?_invocation endpoints
  obtain rfl | rfl : x = far ∨ x = beside := by simpa using hx
  all_goals
    exact {
      inPlace := ⟨rfl, fun unit h => by
        obtain rfl := Option.some.inj (hroute.symm.trans h)
        rfl⟩
      onLane := fun _ => rfl
      letsThrough := fun _ => rfl }

end TwoCells

open TwoCells in
/-- The call goes to the endpoint of the first cell, which is in another lane, although the one of
the second cell suits it. -/
theorem not_findsSuitable : ¬engine.FindsSuitable request [near, far] 0 0 := by
  intro h
  obtain ⟨c, hc, hlane⟩ := h (not_isRefused _) ⟨far, by decide, suits _ (by decide)⟩
  have hnear : (engine.route (engine.invocation request [near, far]) 0 0).1 = .ok ⟨near, 0⟩ := rfl
  obtain rfl := Except.ok.inj (hc.symm.trans hnear)
  exact absurd (hlane (by decide)) (by decide)

open TwoCells in
/-- Where both cells have an endpoint in the lane of the call, the first cell is preferred, and the
call goes to its endpoint in that lane. -/
theorem routesToTarget_beside :
    (engine.invocation request [near, far, beside]).preferredCell? = some "e1" ∧
      engine.RoutesToTarget (engine.invocation request [near, far, beside]) 0 0 := by
  have hcell : (engine.invocation request [near, far, beside]).preferredCell? = some "e1" := by
    decide
  refine ⟨hcell, (engine.routesToTarget_iff request [near, far, beside] 0 0 (not_isRefused _)
    ⟨far, by decide, suits _ (by decide)⟩).2
    ⟨beside, by decide, suits _ (by decide), fun cell h => ?_⟩⟩
  obtain rfl := Option.some.inj (hcell.symm.trans h)
  rfl

end TrafficControl
