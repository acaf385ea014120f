import TrafficControl.Policy.Snapshot

/-!
# Hosts of both kinds

A host may be bound in several live spaces, there by a host of the space or by a host of a unit, and
in several lane spaces. What a snapshot knows about it are the last binding of each kind in the
order of the document (`IsLastLive`, `IsLastLane`), and it knows the host if it is bound at all
(`IsJoined`, `Snapshot.isJoined_host?`).

The last binding is found from the inside out : in the last space that binds the host, in the last
host of this space that does, it is the last of the units with this name, or the host itself where
no unit has the name. The index finds it by one look-up in the bindings read backwards
(`lookup_liveBindings`). Those of lane spaces are first put into a table of their own, and it does
not matter in which order they are taken from there (`find?_hostIndexIn`), as no host is twice in
the table.
-/

namespace TrafficControl

/-! ## Last elements -/

section Last

variable {α β : Type} {l : List α} {a : α}

/-- Whether `a` is the last element of a list that satisfies `p`. -/
def IsLastOf (p : α → Prop) (l : List α) (a : α) : Prop :=
  ∃ before after, l = before ++ a :: after ∧ p a ∧ ∀ b ∈ after, ¬p b

/-- A search that goes backwards ends at the last element that it finds anything for. -/
theorem findSome?_reverse_eq_some_iff {p : α → Prop} {f : α → Option β}
    (hp : ∀ a, f a = none ↔ ¬p a) {b : β} :
    l.reverse.findSome? f = some b ↔ ∃ a, IsLastOf p l a ∧ f a = some b := by
  rw [List.findSome?_eq_some_iff]
  constructor
  · rintro ⟨after, a, before, hl, ha, hafter⟩
    have hpa : p a := Classical.byContradiction fun hnot =>
      nomatch ((hp a).2 hnot).symm.trans ha
    refine ⟨a, ⟨before.reverse, after.reverse, ?_, hpa, fun b hb => ?_⟩, ha⟩
    · rw [← List.reverse_reverse l, hl]
      simp
    · exact (hp b).1 (hafter b (List.mem_reverse.1 hb))
  · rintro ⟨a, ⟨before, after, rfl, -, hafter⟩, ha⟩
    refine ⟨after.reverse, a, before.reverse, by simp, ha, fun b hb => ?_⟩
    exact (hp b).2 (hafter b (List.mem_reverse.1 hb))

theorem findSome?_reverse_eq_none_iff {p : α → Prop} {f : α → Option β}
    (hp : ∀ a, f a = none ↔ ¬p a) : l.reverse.findSome? f = none ↔ ∀ a ∈ l, ¬p a := by
  simp only [List.findSome?_eq_none_iff, List.mem_reverse, hp]

/-- The last binding of a name in the bindings that several elements give. -/
theorem lookup_reverse_flatMap (f : α → List (String × β)) (l : List α) (name : String) :
    (l.flatMap f).reverse.lookup name =
      l.reverse.findSome? fun a => (f a).reverse.lookup name := by
  induction l with
  | nil => rfl
  | cons a l ih =>
    rw [List.flatMap_cons, List.reverse_append, List.lookup_append, ih, List.reverse_cons,
      List.findSome?_append, List.findSome?_singleton]

/-- The last binding of a name where every element binds one name. -/
theorem lookup_reverse_map (key : α → String) (value : α → β) (l : List α) (name : String) :
    (l.map fun a => (key a, value a)).reverse.lookup name =
      l.reverse.findSome? fun a => if key a = name then some (value a) else none := by
  rw [List.map_eq_flatMap, lookup_reverse_flatMap]
  congr 1
  funext a
  by_cases h : key a = name
  · simp [h]
  · simp [List.lookup_cons, h, beq_eq_false_iff_ne.2 (Ne.symm h)]

end Last

/-! ## Bindings of a host -/

/-- Whether a host of a live space, or one of its units, has the name given. -/
def LiveHost.Binds (h : LiveHost) (host : String) : Prop :=
  h.host = host ∨ ∃ u ∈ h.unitHosts, u.host = host

/-- Whether a live space binds a host. -/
def LiveSpace.Binds (s : LiveSpace) (host : String) : Prop := ∃ h ∈ s.spec.hosts, h.Binds host

/-- Whether a lane space binds a host. -/
def LaneSpace.Binds (s : LaneSpace) (host : String) : Prop := ∃ h ∈ s.hosts, h.host = host

/-- Whether a binding is the last one that a host of a live space gives. Its own name comes before
those of its units. -/
def LiveHost.IsLast (h : LiveHost) (host : String) : Option UnitHost → Prop
  | some u => IsLastOf (·.host = host) h.unitHosts u
  | none => h.host = host ∧ ∀ u ∈ h.unitHosts, u.host ≠ host

/-- Whether a binding is the last one of a host in live spaces. -/
def IsLastLive (spaces : List LiveSpace) (host : String) (b : LiveBinding) : Prop :=
  ∃ s, IsLastOf (·.Binds host) spaces s ∧ s.id = b.space ∧
    IsLastOf (·.Binds host) s.spec.hosts b.host ∧ b.host.IsLast host b.unitHost

/-- Whether a binding is the last one of a host in lane spaces. -/
def IsLastLane (spaces : List LaneSpace) (host : String) (b : LaneBinding) : Prop :=
  ∃ s, IsLastOf (·.Binds host) spaces s ∧ s.id = b.space ∧ IsLastOf (·.host = host) s.hosts b.host

/-- Whether what is known about a host is what the lists of a document say about it. -/
structure IsJoined (d : Document) (host : String) (found : Option HostPolicy) : Prop where
  /-- Nothing is known exactly about a host that is not bound. -/
  eq_none_iff : found = none ↔
    (∀ s ∈ d.liveSpaces, ¬s.Binds host) ∧ ∀ s ∈ d.laneSpaces, ¬s.Binds host
  host_eq : ∀ p ∈ found, p.host = host
  live : ∀ p ∈ found, ∀ b, p.live = some b ↔ IsLastLive d.liveSpaces host b
  live_eq_none_iff : ∀ p ∈ found, p.live = none ↔ ∀ s ∈ d.liveSpaces, ¬s.Binds host
  lane : ∀ p ∈ found, ∀ b, p.lane = some b ↔ IsLastLane d.laneSpaces host b
  lane_eq_none_iff : ∀ p ∈ found, p.lane = none ↔ ∀ s ∈ d.laneSpaces, ¬s.Binds host

/-! ## Looking backwards -/

/-- The bindings that a host of a live space gives. -/
def LiveHost.bindings (space : String) (h : LiveHost) : List (String × LiveBinding) :=
  (h.host, ⟨space, h, none⟩) :: h.unitHosts.map fun u => (u.host, ⟨space, h, some u⟩)

variable {host : String}

theorem LiveHost.lookup_bindings (space : String) (h : LiveHost) :
    (h.bindings space).reverse.lookup host =
      (h.unitHosts.reverse.findSome? fun u =>
        if u.host = host then some (LiveBinding.mk space h (some u)) else none).or
          (if h.host = host then some ⟨space, h, none⟩ else none) := by
  rw [bindings, List.reverse_cons, List.lookup_append,
    lookup_reverse_map (·.host) fun u => LiveBinding.mk space h (some u)]
  congr 1
  have hone := lookup_reverse_map LiveHost.host (fun h => LiveBinding.mk space h none) [h] host
  simpa using hone

theorem LiveHost.lookup_bindings_eq_none_iff (space : String) (h : LiveHost) :
    (h.bindings space).reverse.lookup host = none ↔ ¬h.Binds host := by
  rw [lookup_bindings, Option.or_eq_none_iff,
    findSome?_reverse_eq_none_iff (p := fun u => u.host = host) (by simp), Binds]
  grind

theorem LiveHost.lookup_bindings_eq_some_iff (space : String) (h : LiveHost) (b : LiveBinding) :
    (h.bindings space).reverse.lookup host = some b ↔
      space = b.space ∧ h = b.host ∧ h.IsLast host b.unitHost := by
  have hp : ∀ u : UnitHost, (if u.host = host then some (LiveBinding.mk space h (some u)) else none)
      = none ↔ ¬u.host = host := by simp
  rw [lookup_bindings, Option.or_eq_some_iff, findSome?_reverse_eq_some_iff hp,
    findSome?_reverse_eq_none_iff hp]
  obtain ⟨space', h', u'⟩ := b
  constructor
  · rintro (⟨u, hlast, hu⟩ | ⟨hnone, hown⟩)
    · obtain ⟨-, hu⟩ := Option.ite_none_right_eq_some.1 hu
      obtain ⟨rfl, rfl, rfl⟩ := LiveBinding.mk.inj (Option.some.inj hu)
      exact ⟨rfl, rfl, hlast⟩
    · obtain ⟨hname, hown⟩ := Option.ite_none_right_eq_some.1 hown
      obtain ⟨rfl, rfl, rfl⟩ := LiveBinding.mk.inj (Option.some.inj hown)
      exact ⟨rfl, rfl, hname, hnone⟩
  · rintro ⟨rfl, rfl, hlast⟩
    cases u' with
    | some u =>
      obtain ⟨before, after, hl, hname, hafter⟩ := hlast
      exact .inl ⟨u, ⟨before, after, hl, hname, hafter⟩, if_pos hname⟩
    | none => exact .inr ⟨hlast.2, if_pos hlast.1⟩

theorem lookup_liveBindings (spaces : List LiveSpace) (host : String) :
    (liveBindings spaces).reverse.lookup host = spaces.reverse.findSome? fun s =>
      s.spec.hosts.reverse.findSome? fun h => (h.bindings s.id).reverse.lookup host := by
  have hspaces : liveBindings spaces =
      spaces.flatMap fun s => s.spec.hosts.flatMap fun h => h.bindings s.id := rfl
  rw [hspaces, lookup_reverse_flatMap]
  congr 1
  funext s
  exact lookup_reverse_flatMap ..

theorem lookup_liveSpace_eq_none_iff (s : LiveSpace) :
    (s.spec.hosts.reverse.findSome? fun h => (h.bindings s.id).reverse.lookup host) = none ↔
      ¬s.Binds host := by
  rw [findSome?_reverse_eq_none_iff fun h => h.lookup_bindings_eq_none_iff s.id, LiveSpace.Binds]
  simp

theorem lookup_liveBindings_eq_none_iff {spaces : List LiveSpace} :
    (liveBindings spaces).reverse.lookup host = none ↔ ∀ s ∈ spaces, ¬s.Binds host := by
  rw [lookup_liveBindings, findSome?_reverse_eq_none_iff lookup_liveSpace_eq_none_iff]

theorem lookup_liveBindings_eq_some_iff {spaces : List LiveSpace} {b : LiveBinding} :
    (liveBindings spaces).reverse.lookup host = some b ↔ IsLastLive spaces host b := by
  rw [lookup_liveBindings, findSome?_reverse_eq_some_iff lookup_liveSpace_eq_none_iff]
  refine exists_congr fun s => and_congr_right fun _ => ?_
  rw [findSome?_reverse_eq_some_iff fun h => h.lookup_bindings_eq_none_iff s.id]
  simp only [LiveHost.lookup_bindings_eq_some_iff]
  constructor
  · rintro ⟨h, hlast, hspace, rfl, hunit⟩
    exact ⟨hspace, hlast, hunit⟩
  · rintro ⟨hspace, hlast, hunit⟩
    exact ⟨b.host, hlast, hspace, rfl, hunit⟩

theorem lookup_laneBindings (spaces : List LaneSpace) (host : String) :
    (laneBindings spaces).reverse.lookup host = spaces.reverse.findSome? fun s =>
      s.hosts.reverse.findSome? fun h =>
        if h.host = host then some (LaneBinding.mk s.id h) else none := by
  rw [laneBindings, lookup_reverse_flatMap]
  congr 1
  funext s
  exact lookup_reverse_map ..

theorem lookup_laneSpace_eq_none_iff (s : LaneSpace) :
    (s.hosts.reverse.findSome? fun h =>
      if h.host = host then some (LaneBinding.mk s.id h) else none) = none ↔ ¬s.Binds host := by
  rw [findSome?_reverse_eq_none_iff (p := fun h => h.host = host) (by simp), LaneSpace.Binds]
  simp

theorem lookup_laneBindings_eq_none_iff {spaces : List LaneSpace} :
    (laneBindings spaces).reverse.lookup host = none ↔ ∀ s ∈ spaces, ¬s.Binds host := by
  rw [lookup_laneBindings, findSome?_reverse_eq_none_iff lookup_laneSpace_eq_none_iff]

theorem lookup_laneBindings_eq_some_iff {spaces : List LaneSpace} {b : LaneBinding} :
    (laneBindings spaces).reverse.lookup host = some b ↔ IsLastLane spaces host b := by
  rw [lookup_laneBindings, findSome?_reverse_eq_some_iff lookup_laneSpace_eq_none_iff]
  refine exists_congr fun s => and_congr_right fun _ => ?_
  rw [findSome?_reverse_eq_some_iff (p := fun h => h.host = host) (by simp)]
  obtain ⟨space, h⟩ := b
  constructor
  · rintro ⟨h', hlast, hb⟩
    obtain ⟨-, hb⟩ := Option.ite_none_right_eq_some.1 hb
    obtain ⟨rfl, rfl⟩ := LaneBinding.mk.inj (Option.some.inj hb)
    exact ⟨rfl, hlast⟩
  · rintro ⟨rfl, before, after, hl, hname, hafter⟩
    exact ⟨h, ⟨before, after, hl, hname, hafter⟩, if_pos hname⟩

/-! ## The index -/

/-- The lane bindings that count, by host. -/
def laneTable (spaces : List LaneSpace) : Table LaneBinding := .ofList (laneBindings spaces)

/-- The index of the hosts of live spaces. -/
def liveIndex (liveSpaces : List LiveSpace) (laneSpaces : List LaneSpace) : Table HostPolicy :=
  (liveBindings liveSpaces).foldl (fun t (host, b) =>
    t.insert host { host, live := some b, lane := (laneTable laneSpaces).find? host }) .empty

/-- The index of all hosts, to which the lane bindings that count are added in the order given. -/
def hostIndexIn (order : List (String × LaneBinding)) (liveSpaces : List LiveSpace)
    (laneSpaces : List LaneSpace) : Table HostPolicy :=
  order.foldl (fun t (host, b) => t.insertNew host { host, live := none, lane := some b })
    (liveIndex liveSpaces laneSpaces)

theorem hostIndex_eq (liveSpaces : List LiveSpace) (laneSpaces : List LaneSpace) :
    hostIndex liveSpaces laneSpaces =
      hostIndexIn (laneTable laneSpaces).bindings liveSpaces laneSpaces := rfl

theorem find?_laneTable (spaces : List LaneSpace) (host : String) :
    (laneTable spaces).find? host = (laneBindings spaces).reverse.lookup host :=
  Table.find?_ofList ..

/-- The latest binding of a name stands where values are made as they are bound. -/
theorem find?_foldl_insert_made {α β : Type} (f : String → α → β) (l : List (String × α))
    (t : Table β) (name : String) :
    (l.foldl (fun t b => t.insert b.1 (f b.1 b.2)) t).find? name =
      ((l.reverse.lookup name).map (f name)).or (t.find? name) := by
  induction l generalizing t with
  | nil => rfl
  | cons b l ih =>
    obtain ⟨n, a⟩ := b
    have hone := lookup_reverse_map Prod.fst Prod.snd [(n, a)] name
    rw [List.map_singleton, List.reverse_singleton, List.findSome?_singleton] at hone
    rw [List.foldl_cons, ih, Table.find?_insert, List.reverse_cons, List.lookup_append, hone,
      Option.map_or, Option.or_assoc]
    grind

/-- What a search for a name finds first is what is bound to it. -/
theorem find?_fst_eq {α : Type} (l : List (String × α)) (name : String) :
    l.find? (·.1 = name) = (l.lookup name).map (name, ·) := by
  induction l with
  | nil => rfl
  | cons b l ih =>
    obtain ⟨n, a⟩ := b
    by_cases h : n = name
    · subst h
      simp
    · rw [List.find?_cons_of_neg (by simpa using h), ih, List.lookup_cons,
        beq_eq_false_iff_ne.2 (Ne.symm h)]

/-- A host that live spaces bind takes along what lane spaces say about it. -/
theorem find?_liveIndex (liveSpaces : List LiveSpace) (laneSpaces : List LaneSpace)
    (host : String) : (liveIndex liveSpaces laneSpaces).find? host =
      ((liveBindings liveSpaces).reverse.lookup host).map fun b =>
        { host, live := some b, lane := (laneTable laneSpaces).find? host } := by
  have hmade := find?_foldl_insert_made
    (fun host b => (⟨host, some b, (laneTable laneSpaces).find? host⟩ : HostPolicy))
    (liveBindings liveSpaces) .empty host
  rwa [Table.find?_empty, Option.or_none] at hmade

/-- What is known about a host, given its last binding of each kind. -/
def HostPolicy.join (host : String) : Option LiveBinding → Option LaneBinding → Option HostPolicy
  | none, none => none
  | live, lane => some { host, live, lane }

theorem HostPolicy.join_eq_none_iff {live : Option LiveBinding} {lane : Option LaneBinding} :
    join host live lane = none ↔ live = none ∧ lane = none := by
  cases live <;> cases lane <;> simp [join]

theorem HostPolicy.eq_of_mem_join {live : Option LiveBinding} {lane : Option LaneBinding}
    {p : HostPolicy} (h : p ∈ join host live lane) : p = { host, live, lane } := by
  cases live <;> cases lane <;> simp_all [join]

/-- The index knows the last binding of each kind, in whichever order the lane bindings that count
are added. -/
theorem find?_hostIndexIn (liveSpaces : List LiveSpace) (laneSpaces : List LaneSpace)
    {order : List (String × LaneBinding)} (horder : order.Perm (laneTable laneSpaces).bindings)
    (host : String) : (hostIndexIn order liveSpaces laneSpaces).find? host =
      HostPolicy.join host ((liveBindings liveSpaces).reverse.lookup host)
        ((laneBindings laneSpaces).reverse.lookup host) := by
  have hnodup : (order.map Prod.fst).Nodup :=
    (horder.map Prod.fst).nodup_iff.2 (laneTable laneSpaces).nodup
  have hlookup : order.lookup host = (laneTable laneSpaces).find? host := by
    apply Option.ext
    intro b
    rw [Table.lookup_eq_some_iff hnodup, Table.find?_eq_some_iff, horder.mem_iff]
  have hadded := Table.find?_foldl_insertNew Prod.fst
    (fun b => (⟨b.1, none, some b.2⟩ : HostPolicy)) order (liveIndex liveSpaces laneSpaces) host
  rw [find?_fst_eq, hlookup, find?_liveIndex, find?_laneTable, Option.map_map] at hadded
  refine hadded.trans ?_
  cases (liveBindings liveSpaces).reverse.lookup host with
  | some b => rfl
  | none => cases (laneBindings laneSpaces).reverse.lookup host <;> rfl

namespace Snapshot

/-- A snapshot knows about a host what its lists say last about it, and what it knows does not
depend on the order in which the lane bindings come into the index. -/
theorem isJoined_host? (s : Snapshot) (host : String) :
    IsJoined s.document host (s.host? host) ∧
      ∀ order : List (String × LaneBinding),
        order.Perm (laneTable s.document.laneSpaces).bindings →
          (hostIndexIn order s.document.liveSpaces s.document.laneSpaces).find? host =
            s.host? host := by
  have hfound := find?_hostIndexIn s.document.liveSpaces s.document.laneSpaces (.refl _) host
  rw [← hostIndex_eq, ← s.indexes.hosts.get_eq] at hfound
  change s.host? host = _ at hfound
  refine ⟨?_, fun order horder => (find?_hostIndexIn _ _ horder host).trans hfound.symm⟩
  rw [hfound]
  exact
    { eq_none_iff := by
        rw [HostPolicy.join_eq_none_iff, lookup_liveBindings_eq_none_iff,
          lookup_laneBindings_eq_none_iff]
      host_eq := fun p hp => by rw [HostPolicy.eq_of_mem_join hp]
      live := fun p hp b => by
        rw [HostPolicy.eq_of_mem_join hp, lookup_liveBindings_eq_some_iff]
      live_eq_none_iff := fun p hp => by
        rw [HostPolicy.eq_of_mem_join hp, lookup_liveBindings_eq_none_iff]
      lane := fun p hp b => by
        rw [HostPolicy.eq_of_mem_join hp, lookup_laneBindings_eq_some_iff]
      lane_eq_none_iff := fun p hp => by
        rw [HostPolicy.eq_of_mem_join hp, lookup_laneBindings_eq_none_iff] }

end Snapshot

/-! ## A host that is bound many times -/

namespace CrossBound

/-- The host of a space that has a unit of the same name. -/
def shop : LiveHost := { host := "shop", unitHosts := [⟨"shop", "east"⟩] }

/-- A host with two units of another name. -/
def pay : LiveHost := { host := "pay", unitHosts := [⟨"shop", "west"⟩, ⟨"shop", "mid"⟩] }

/-- All bindings of the host are in the first live space. The second lane space binds it again. -/
def document : Document where
  liveSpaces := [{ id := "live", spec := { hosts := [pay, shop, pay] } }, { id := "bare" }]
  laneSpaces :=
    [{ id := "old", hosts := [⟨"shop"⟩, ⟨"beta"⟩] }, { id := "new", hosts := [⟨"shop"⟩] }]

/-- The lane bindings that count, the later host first. -/
def order : List (String × LaneBinding) :=
  [("beta", ⟨"old", ⟨"beta"⟩⟩), ("shop", ⟨"new", ⟨"shop"⟩⟩)]

end CrossBound

open CrossBound in
/-- The last unit with the name counts, and the last lane space, though the lane bindings were added
in another order. -/
theorem isJoined_host?_crossBound :
    order.Perm (laneTable document.laneSpaces).bindings ∧
      (hostIndexIn order document.liveSpaces document.laneSpaces).find? "shop" =
        some ⟨"shop", some ⟨"live", pay, some ⟨"shop", "mid"⟩⟩, some ⟨"new", ⟨"shop"⟩⟩⟩ ∧
      IsLastLive document.liveSpaces "shop" ⟨"live", pay, some ⟨"shop", "mid"⟩⟩ := by
  have horder : order.Perm (laneTable document.laneSpaces).bindings := by decide
  obtain ⟨hjoined, hany⟩ := (Snapshot.ofDocument document).isJoined_host? "shop"
  have hfound : (Snapshot.ofDocument document).host? "shop" =
      some ⟨"shop", some ⟨"live", pay, some ⟨"shop", "mid"⟩⟩, some ⟨"new", ⟨"shop"⟩⟩⟩ := by decide
  exact ⟨horder, (hany order horder).trans hfound, (hjoined.live _ hfound _).1 rfl⟩

end TrafficControl
