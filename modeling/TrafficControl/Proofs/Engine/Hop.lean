import TrafficControl.Proofs.Engine.Faults
import TrafficControl.Proofs.Routing.Agreement

/-!
# Calls from hop to hop

A request to the next hop carries what the sender knows of its own call (`Invocation.send`), and the
receiver reads it back. Of the units it reads what the sender knew, wherever the receiver is
(`Invocation.agrees_live_send`) : the sender writes a space and a rule that are settled already, and
headers come before the place and the policies of the receiver. Of the lanes it does so only where
the sender was told a lane space (`Invocation.agrees_lane_send_iff`) : the default space is not
written, and at the receiver its own place comes before the default.
-/

namespace TrafficControl

/-- A header for each thing that one hop tells the next. -/
def Header.all : List String :=
  [liveSpace, unitRule, routingVariable, unit, cell, laneSpace, lane]

/-- Whether a request tells nothing of earlier hops. -/
def Request.IsPlain (r : Request) : Prop := ∀ name ∈ Header.all, r.header? name = none

@[simp] theorem nonEmpty?_nonEmpty? (s : Option String) :
    nonEmpty? (nonEmpty? s) = nonEmpty? s := by
  simp [nonEmpty?, Option.filter_filter]

theorem nonEmpty?_eq_some_iff {s : Option String} {t : String} :
    nonEmpty? s = some t ↔ s = some t ∧ t ≠ "" := by
  simp [nonEmpty?, Option.filter_eq_some_iff]

theorem nonEmpty?_some {s : String} (h : s ≠ "") : nonEmpty? (some s) = some s :=
  nonEmpty?_eq_some_iff.2 ⟨rfl, h⟩

namespace Invocation

variable {i : Invocation} {s : Snapshot} {r : Request}

/-! ## Headers written and read -/

/-- The request to the next hop. -/
def send (i : Invocation) (r : Request) : Request := { r with headers := i.inject r.headers }

/-- What the next hop is told by each header, where it is known. -/
def told (i : Invocation) : List (String × Option String) :=
  let place := i.context.application.location
  [(Header.liveSpace, i.live.space.map (·.id)), (Header.unitRule, i.live.ruleId),
    (Header.routingVariable, i.live.routingVariable?), (Header.unit, place.unit),
    (Header.cell, place.cell), (Header.laneSpace, i.lane.space.map (·.id)),
    (Header.lane, i.lane.currentLaneId)]

theorem keys_told (i : Invocation) : i.told.map Prod.fst = Header.all := rfl

theorem nodup_told (i : Invocation) : (i.told.map Prod.fst).Nodup := by
  rw [keys_told]
  decide

theorem headers_eq (i : Invocation) :
    i.headers = i.told.filterMap fun p => p.2.map (p.1, ·) := rfl

theorem nodup_headers (i : Invocation) : (i.headers.map Prod.fst).Nodup := by
  have htold : i.told.Pairwise fun p q => p.1 ≠ q.1 := List.pairwise_map.1 i.nodup_told
  rw [headers_eq]
  refine List.pairwise_map.2 (htold.filterMap _ fun p q hne a ha b hb => ?_)
  obtain ⟨_, -, rfl⟩ := Option.map_eq_some_iff.1 ha
  obtain ⟨_, -, rfl⟩ := Option.map_eq_some_iff.1 hb
  exact hne

theorem mem_headers_iff {name value : String} :
    (name, value) ∈ i.headers ↔ (name, some value) ∈ i.told := by
  rw [headers_eq, List.mem_filterMap]
  constructor
  · rintro ⟨⟨n, v⟩, hmem, hpair⟩
    obtain ⟨w, hw, hpair⟩ := Option.map_eq_some_iff.1 hpair
    obtain ⟨rfl, rfl⟩ := Prod.mk.inj hpair
    rwa [← hw]
  · exact fun hmem => ⟨_, hmem, rfl⟩

/-- The next hop reads each header as it was written. -/
theorem header?_send (hplain : r.IsPlain) {name : String} {value : Option String}
    (h : (name, value) ∈ i.told) : (i.send r).header? name = value := by
  have hnone : r.headers.find? name = none :=
    hplain name (i.keys_told ▸ List.mem_map_of_mem h)
  have hfind : (i.send r).header? name = i.headers.reverse.lookup name :=
    (Table.find?_foldl_insert i.headers r.headers name).trans (by rw [hnone, Option.or_none])
  have hnodup : (i.headers.reverse.map Prod.fst).Nodup :=
    (i.headers.reverse_perm.map Prod.fst).nodup_iff.2 i.nodup_headers
  have hvalue := (Table.lookup_eq_some_iff i.nodup_told).2 h
  apply Option.ext
  intro text
  rw [hfind, Table.lookup_eq_some_iff hnodup, List.mem_reverse, mem_headers_iff,
    ← Table.lookup_eq_some_iff i.nodup_told, hvalue, Option.some.injEq]

/-! ## Calls of a snapshot -/

/-- Whether what is known of a call is what some request said when the call was resolved, whatever
was decided about it since. -/
def IsResolved (i : Invocation) (s : Snapshot) : Prop :=
  ∃ r es ls, i.live = (resolve i.context s r es ls).live ∧
    i.lane = (resolve i.context s r es ls).lane

theorem isResolved_resolve (context : Context) (s : Snapshot) (r : Request) (es : List Endpoint)
    (ls : List RequestListener) : (resolve context s r es ls).IsResolved s :=
  ⟨r, es, ls, rfl, rfl⟩

/-- No decision about a call changes what is known of it. -/
theorem Settles.isResolved {P : Fault → Prop} {fault : Option Fault} {i' : Invocation}
    (h : i.Settles P fault i') (hi : i.IsResolved s) : i'.IsResolved s := by
  cases h with
  | quiet selection => exact hi
  | stopped selection holds answers => exact hi

end Invocation

/-! ## Units -/

/-- Whether two calls know the same of the units : the space, the rule, the variable and its
unit. -/
structure LiveFacts.Agrees (m m' : LiveFacts) : Prop where
  space : m.space = m'.space
  ruleId : m.ruleId = m'.ruleId
  routingVariable : m.routingVariable? = m'.routingVariable?
  targetUnitId : m.targetUnitId = m'.targetUnitId
  targetUnit : m.targetUnit? = m'.targetUnit?

/-- The target unit is a matter of space, rule and variable. -/
theorem LiveFacts.agrees_settle {m m' : LiveFacts} {b b' : Option Bundle}
    (hspace : (m.settle b).space = (m'.settle b').space)
    (hrule : (m.settle b).ruleId = (m'.settle b').ruleId)
    (hvariable : (m.settle b).routingVariable? = (m'.settle b').routingVariable?) :
    (m.settle b).Agrees (m'.settle b') := by
  have howner : ∀ (m : LiveFacts) (b : Option Bundle), (m.settle b).targetUnitId =
      ((m.settle b).rule?.bind fun rule =>
        (m.settle b).routingVariable?.bind rule.route?).map (·.unit) := fun _ _ => rfl
  have htarget : (m.settle b).targetUnitId = (m'.settle b').targetUnitId := by
    rw [howner, howner, rule?, rule?, hspace, hrule, hvariable]
  exact
    { space := hspace
      ruleId := hrule
      routingVariable := hvariable
      targetUnitId := htarget
      targetUnit := by rw [targetUnit?, targetUnit?, unit?, unit?, hspace, htarget] }

namespace Invocation

variable {i : Invocation} {s : Snapshot} {r : Request}

theorem IsResolved.liveSpace? (h : i.IsResolved s) {space : LiveSpace}
    (hspace : i.live.space = some space) : s.liveSpace? space.id = some space := by
  obtain ⟨r, es, ls, hlive, -⟩ := h
  rw [hlive] at hspace
  obtain ⟨id, -, hfind⟩ := Option.bind_eq_some_iff.1 hspace
  have hid : space.id = id := by
    rw [Snapshot.liveSpace?_eq_find?] at hfind
    simpa using List.find?_some hfind
  rwa [hid]

/-- The next hop knows the same of the units, wherever it is and whatever it is asked for. -/
theorem agrees_live_send (h : i.IsResolved s) {space : LiveSpace}
    (hspace : i.live.space = some space) (hid : space.id ≠ "") {rule : String}
    (hrule : i.live.ruleId = some rule) (hne : rule ≠ "") (hplain : r.IsPlain)
    (receiver : Context) (es : List Endpoint) (ls : List RequestListener) :
    (resolve receiver s (i.send r) es ls).live.Agrees i.live := by
  have hreadSpace : (i.send r).header? Header.liveSpace = some space.id :=
    header?_send hplain (by simp [told, hspace])
  have hreadRule : (i.send r).header? Header.unitRule = some rule :=
    header?_send hplain (by simp [told, hrule])
  have hreadVariable : (i.send r).header? Header.routingVariable = i.live.routingVariable? :=
    header?_send hplain (by simp [told])
  have hfind := h.liveSpace? hspace
  obtain ⟨r₀, es₀, ls₀, hlive, -⟩ := h
  rw [hlive] at hspace hrule hreadVariable ⊢
  refine LiveFacts.agrees_settle ?_ ?_ ?_
  · calc _ = ((nonEmpty? ((i.send r).header? Header.liveSpace)).or _).bind s.liveSpace? := rfl
      _ = some space := by rw [hreadSpace, nonEmpty?_some hid, Option.some_or]; exact hfind
      _ = _ := hspace.symm
  · calc _ = (nonEmpty? ((i.send r).header? Header.unitRule)).or _ := rfl
      _ = some rule := by rw [hreadRule, nonEmpty?_some hne, Option.some_or]
      _ = _ := hrule.symm
  · calc _ = nonEmpty? (nonEmpty? ((i.send r).header? Header.routingVariable)) := rfl
      _ = _ := by rw [hreadVariable]; exact (nonEmpty?_nonEmpty? _).trans (nonEmpty?_nonEmpty? _)

end Invocation

open TwoUnits in
/-- A call that was checked by the second unit goes on to a service that has no unit rule, and is
received in the first unit. -/
theorem agrees_live_send_east :
    let sent := (Engine.inbound (call "west")).2
    let request : Request := { service := "payments" }
    sent.IsResolved snapshot ∧ sent.live.space = some space ∧ space.id ≠ "" ∧
      sent.live.ruleId = some "users" ∧ request.IsPlain ∧
      (Invocation.resolve (context "east") snapshot (sent.send request) [] []).live.Agrees
        sent.live := by
  intro sent request
  have hresolved : sent.IsResolved snapshot :=
    (Engine.settles_inbound _).isResolved (Invocation.isResolved_resolve ..)
  have hspace : sent.live.space = some space := rfl
  have hrule : sent.live.ruleId = some "users" := rfl
  have hplain : request.IsPlain := fun _ _ => rfl
  exact ⟨hresolved, hspace, by decide, hrule, hplain,
    sent.agrees_live_send hresolved hspace (by decide) hrule (by decide) hplain (context "east")
      [] []⟩

/-! ## Lanes -/

/-- Whether two calls go to the same lane of the same space. -/
structure LaneFacts.Agrees (m m' : LaneFacts) : Prop where
  targetSpaceId : m.targetSpaceId = m'.targetSpaceId
  targetLane : m.targetLane? = m'.targetLane?

namespace Invocation

variable {i : Invocation} {s : Snapshot} {r : Request}

/-- The space in which the request travels is its target. -/
theorem IsResolved.targetSpaceId (h : i.IsResolved s) {space : LaneSpace}
    (hspace : i.lane.space = some space) : i.lane.targetSpaceId = some space.id := by
  obtain ⟨r, es, ls, -, hlane⟩ := h
  rw [hlane] at hspace ⊢
  obtain ⟨id, hid, hfind⟩ := Option.bind_eq_some_iff.1 hspace
  have hspaceId : space.id = id := by
    rw [Snapshot.laneSpace?_eq_find?] at hfind
    simpa using List.find?_some hfind
  rw [hspaceId]
  exact (congrArg (Option.or · _) hid).trans Option.some_or

/-- The target lane is a matter of the target space and the current lane. -/
theorem IsResolved.targetLane? (h : i.IsResolved s) :
    i.lane.targetLane? =
      (i.lane.targetSpaceId.bind s.laneSpace?).bind (·.laneOrDefault? i.lane.currentLaneId) := by
  obtain ⟨r, es, ls, -, hlane⟩ := h
  rw [hlane]
  rfl

/-- Calls that travel in the same lane and have the same target space go to the same lane. -/
theorem IsResolved.agrees_lane_iff {i' : Invocation} (h' : i'.IsResolved s) (h : i.IsResolved s)
    (hlane : i'.lane.currentLaneId = i.lane.currentLaneId) :
    i'.lane.Agrees i.lane ↔ i'.lane.targetSpaceId = i.lane.targetSpaceId := by
  refine ⟨LaneFacts.Agrees.targetSpaceId, fun htarget => ⟨htarget, ?_⟩⟩
  rw [h'.targetLane?, h.targetLane?, htarget, hlane]

/-- The next hop looks for its target space first in what it is told, then at its own place and last
of all among the defaults. -/
theorem targetSpaceId_send (hplain : r.IsPlain) (receiver : Context) (es : List Endpoint)
    (ls : List RequestListener) :
    (resolve receiver s (i.send r) es ls).lane.targetSpaceId =
      (nonEmpty? (i.lane.space.map (·.id))).or
        (receiver.application.location.laneSpace.or (s.defaultLaneSpace?.map (·.id))) := by
  have hread : (i.send r).header? Header.laneSpace = i.lane.space.map (·.id) :=
    header?_send hplain (by simp [told])
  calc _ = ((nonEmpty? ((i.send r).header? Header.laneSpace)).or
        receiver.application.location.laneSpace).or (s.defaultLaneSpace?.map (·.id)) := rfl
    _ = _ := by rw [hread, Option.or_assoc]

theorem currentLaneId_send {lane : String} (hlane : i.lane.currentLaneId = some lane)
    (hne : lane ≠ "") (hplain : r.IsPlain) (receiver : Context) (es : List Endpoint)
    (ls : List RequestListener) :
    (resolve receiver s (i.send r) es ls).lane.currentLaneId = i.lane.currentLaneId := by
  have hread : (i.send r).header? Header.lane = some lane :=
    header?_send hplain (by simp [told, hlane])
  calc _ = (nonEmpty? ((i.send r).header? Header.lane)).or _ := rfl
    _ = i.lane.currentLaneId := by rw [hread, nonEmpty?_some hne, Option.some_or, hlane]

/-- The next hop goes to the same lane if the sender tells it a lane space. Otherwise the space is a
matter of the place of the receiver and the default. -/
theorem agrees_lane_send_iff (h : i.IsResolved s) {lane : String}
    (hlane : i.lane.currentLaneId = some lane) (hne : lane ≠ "") (hplain : r.IsPlain)
    (receiver : Context) (es : List Endpoint) (ls : List RequestListener) :
    (resolve receiver s (i.send r) es ls).lane.Agrees i.lane ↔
      (∃ space, i.lane.space = some space ∧ space.id ≠ "") ∨
        receiver.application.location.laneSpace.or (s.defaultLaneSpace?.map (·.id)) =
          i.lane.targetSpaceId := by
  rw [(isResolved_resolve ..).agrees_lane_iff h (currentLaneId_send hlane hne hplain ..),
    targetSpaceId_send hplain]
  cases hid : nonEmpty? (i.lane.space.map (·.id)) with
  | some id =>
    obtain ⟨hid, hne⟩ := nonEmpty?_eq_some_iff.1 hid
    obtain ⟨space, hspace, rfl⟩ := Option.map_eq_some_iff.1 hid
    rw [Option.some_or, h.targetSpaceId hspace]
    exact iff_of_true rfl (.inl ⟨space, hspace, hne⟩)
  | none =>
    rw [Option.none_or]
    refine (or_iff_right ?_).symm
    rintro ⟨space, hspace, hne⟩
    simp [hspace, nonEmpty?_some hne] at hid

end Invocation

namespace TwoSpaces

/-- Two lane spaces with a lane of one name, the first of which is for requests that name none. -/
def snapshot : Snapshot := .ofDocument { laneSpaces := [
  { id := "home", isDefault := true, lanes := [{ code := "base", isDefault := true },
    { code := "gray" }] },
  { id := "other", lanes := [{ code := "gray" }] }] }

/-- A call in a lane of no space, from a place in none. -/
def call : Invocation :=
  .resolve {} snapshot { service := "orders", headers := .ofList [(Header.lane, "gray")] } [] []

/-- What the call asks for next. -/
def request : Request := { service := "payments" }

theorem isPlain_request : request.IsPlain := fun _ _ => rfl

/-- A place in the second space. -/
def receiver : Context := { application := { location := { laneSpace := some "other" } } }

end TwoSpaces

open TwoSpaces in
/-- Received at a place in no lane space, the call keeps its lane. -/
theorem agrees_lane_send_home :
    call.IsResolved snapshot ∧ call.lane.currentLaneId = some "gray" ∧ request.IsPlain ∧
      (Invocation.resolve {} snapshot (call.send request) [] []).lane.Agrees call.lane :=
  have hresolved : call.IsResolved snapshot := Invocation.isResolved_resolve ..
  ⟨hresolved, rfl, isPlain_request,
    (call.agrees_lane_send_iff hresolved rfl (by decide) isPlain_request {} [] []).2 (.inr rfl)⟩

/-- Whether calls that travel in a lane keep it at every next hop : wherever they are received, they
go to the same lane of the same space. -/
def Snapshot.KeepsLanes (s : Snapshot) : Prop :=
  ∀ (i : Invocation) (lane : String) (target : Lane), i.IsResolved s →
    i.lane.currentLaneId = some lane → lane ≠ "" → i.lane.targetLane? = some target →
    ∀ r : Request, r.IsPlain → ∀ receiver es ls,
      (Invocation.resolve receiver s (i.send r) es ls).lane.Agrees i.lane

open TwoSpaces in
/-- A place in the second space takes the call for one of its own lane. -/
theorem not_keepsLanes : ¬snapshot.KeepsLanes := by
  intro h
  have hagrees := h call "gray" { code := "gray" } (Invocation.isResolved_resolve ..) rfl
    (by decide) rfl request isPlain_request receiver [] []
  have hother : (Invocation.resolve receiver snapshot (call.send request) [] []
      ).lane.targetSpaceId = some "other" := rfl
  exact absurd (hother.symm.trans hagrees.targetSpaceId) (by decide)

end TrafficControl
