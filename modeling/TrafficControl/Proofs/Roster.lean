import TrafficControl.Proofs.Shelf

/-!
# Rosters

Breakers and limiters are kept in the same way. Who needs one looks it up for a resource, under a
key and a version : the one that is registered is given if it has this version, else a new one takes
its place. A `Roster` is what a registry is to those who look things up, `Roster.Step` what can
happen to it, and a `Lookup` tells how a look-up went.

`Roster.Records` is what a roster and the look-ups so far have to do with each other : what is
registered under a key is what was given last under this key, and no object is ever given under two
keys. From it follows when an object is replaced (`Lookup.Follows.replaces_iff`).
-/

namespace TrafficControl

variable {ρ : Type}

/-- A look-up of the object for a resource. -/
structure Lookup (ρ : Type) where
  resource : ρ
  version : UInt64
  /-- The number and the version of the object that was registered so far. -/
  found : Option (Nat × UInt64)
  /-- The number of the object that was given. -/
  given : Nat
deriving DecidableEq

namespace Lookup

/-- Whether another object took the place of the one registered. -/
def Replaces (l : Lookup ρ) : Prop := ∃ n v, l.found = some (n, v) ∧ l.given ≠ n

/-- The look-ups under a key. -/
def under (key : ρ → String) (k : String) (ls : List (Lookup ρ)) : List (Lookup ρ) :=
  ls.filter fun l => key l.resource = k

/-- How a look-up goes after others. -/
structure Follows (key : ρ → String) (past : List (Lookup ρ)) (l : Lookup ρ) : Prop where
  /-- What is registered is what was given last under the key. -/
  found : ∀ n v, l.found = some (n, v) →
    ∃ m, (under key (key l.resource) past).getLast? = some m ∧ m.given = n ∧ m.version = v
  /-- It is given if it has the version that is looked for. -/
  reuses : ∀ n, l.found = some (n, l.version) → l.given = n
  /-- Else a new object is given. -/
  renews : (∀ n, l.found ≠ some (n, l.version)) → ∀ m ∈ past, m.given ≠ l.given

variable {key : ρ → String} {past : List (Lookup ρ)} {l : Lookup ρ}

theorem mem_under {k : String} : l ∈ under key k past ↔ l ∈ past ∧ key l.resource = k := by
  simp [under]

theorem under_append_self (l : Lookup ρ) (past : List (Lookup ρ)) :
    (under key (key l.resource) (past ++ [l])).getLast? = some l := by
  simp [under]

theorem under_append_of_ne {k : String} (h : k ≠ key l.resource) :
    under key k (past ++ [l]) = under key k past := by
  simp [under, h.symm]

end Lookup

open Lookup

/-- What a registry is to those who look things up : under each key the number and the version of
the object registered, and how many objects were made so far. -/
structure Roster where
  find? : String → Option (Nat × UInt64)
  made : Nat

namespace Roster

/-- The roster on which nothing is registered. -/
def empty : Roster := ⟨fun _ => none, 0⟩

/-- What can happen to a roster, with the look-up that it is, if it is one. -/
inductive Step (key : ρ → String) : Roster → List (Lookup ρ) → Roster → Prop where
  | reuse {r : Roster} {x : ρ} {n : Nat} {v : UInt64} (h : r.find? (key x) = some (n, v)) :
      Step key r [⟨x, v, some (n, v), n⟩] r
  | make {r : Roster} {x : ρ} {v : UInt64} (h : ∀ n, r.find? (key x) ≠ some (n, v)) :
      Step key r [⟨x, v, r.find? (key x), r.made⟩]
        ⟨Function.update r.find? (key x) (some (r.made, v)), r.made + 1⟩
  | drop {r r' : Roster} (h : ∀ k, r'.find? k = r.find? k ∨ r'.find? k = none)
      (made : r'.made = r.made) : Step key r [] r'

/-- Any number of steps of a roster, with the look-ups among them, in order. -/
inductive Run (key : ρ → String) : Roster → List (Lookup ρ) → Roster → Prop where
  | refl (r : Roster) : Run key r [] r
  | head {r r' r'' : Roster} {ls ls' : List (Lookup ρ)} (hstep : Step key r ls r')
      (hrest : Run key r' ls' r'') : Run key r (ls ++ ls') r''

variable {key : ρ → String} {r r' r'' : Roster} {past ls ls' : List (Lookup ρ)}

/-! ## Records -/

theorem Run.single (h : Step key r ls r') : Run key r ls r' := by
  simpa using Run.head h (.refl r')

theorem Run.trans (h : Run key r ls r') (h' : Run key r' ls' r'') :
    Run key r (ls ++ ls') r'' := by
  induction h with
  | refl => exact h'
  | head hstep _ ih =>
    rw [List.append_assoc]
    exact .head hstep (ih h')

/-- What a roster and the look-ups so far have to do with each other. -/
structure Records (key : ρ → String) (past : List (Lookup ρ)) (r : Roster) : Prop where
  registered : ∀ k n v, r.find? k = some (n, v) →
    ∃ m, (under key k past).getLast? = some m ∧ m.given = n ∧ m.version = v
  made : ∀ l ∈ past, l.given < r.made
  /-- No object is given under two keys. -/
  apart : ∀ l ∈ past, ∀ m ∈ past, l.given = m.given → key l.resource = key m.resource
  follows : ∀ before l, before ++ [l] <+: past → l.Follows key before

theorem records_empty (key : ρ → String) : Records key [] empty where
  registered _ _ _ h := nomatch h
  made _ h := nomatch h
  apart _ h := nomatch h
  follows _ _ h := by simp at h

/-- It is enough to look at the look-up that is new. -/
theorem Records.snoc (h : Records key past r) {l : Lookup ρ} (hfollows : l.Follows key past)
    (hregistered : ∀ k n v, k ≠ key l.resource → r'.find? k = some (n, v) →
      r.find? k = some (n, v))
    (hself : r'.find? (key l.resource) = some (l.given, l.version))
    (hmade : ∀ m ∈ past ++ [l], m.given < r'.made)
    (hapart : ∀ m ∈ past, m.given = l.given → key m.resource = key l.resource) :
    Records key (past ++ [l]) r' where
  registered k n v hentry := by
    by_cases hk : k = key l.resource
    · subst hk
      obtain ⟨rfl, rfl⟩ := Prod.mk.inj (Option.some.inj (hself.symm.trans hentry))
      exact ⟨l, under_append_self l past, rfl, rfl⟩
    · rw [under_append_of_ne hk]
      exact h.registered k n v (hregistered k n v hk hentry)
  made := hmade
  apart a ha b hb hgiven := by
    rcases List.mem_append.1 ha with hold | hnew <;> rcases List.mem_append.1 hb with hold' | hnew'
    · exact h.apart a hold b hold' hgiven
    · rw [List.mem_singleton.1 hnew'] at hgiven ⊢
      exact hapart a hold hgiven
    · rw [List.mem_singleton.1 hnew] at hgiven ⊢
      exact (hapart b hold' hgiven.symm).symm
    · rw [List.mem_singleton.1 hnew, List.mem_singleton.1 hnew']
  follows before m hbefore := by
    rcases List.prefix_concat_iff.1 hbefore with heq | hbefore
    · obtain ⟨rfl, hm⟩ := List.append_inj' heq rfl
      obtain rfl := List.singleton_inj.1 hm
      exact hfollows
    · exact h.follows before m hbefore

theorem Records.step (h : Records key past r) (hstep : Step key r ls r') :
    Records key (past ++ ls) r' := by
  cases hstep with
  | @reuse x n v hfound =>
    obtain ⟨m, hm, rfl, rfl⟩ := h.registered _ _ _ hfound
    obtain ⟨hmem, hkey⟩ := mem_under.1 (List.mem_of_getLast? hm)
    have hfollows : Lookup.Follows key past ⟨x, m.version, some (m.given, m.version), m.given⟩ :=
      { found := fun n v hsome => h.registered _ n v (hfound.trans hsome)
        reuses := fun n hsome => (Prod.mk.inj (Option.some.inj hsome)).1
        renews := fun hother => absurd rfl (hother m.given) }
    refine h.snoc hfollows (fun _ _ _ _ hentry => hentry) hfound (fun l hl => ?_) ?_
    · rcases List.mem_append.1 hl with hold | hnew
      · exact h.made l hold
      · rw [List.mem_singleton.1 hnew]
        exact h.made m hmem
    · intro l hl hgiven
      exact (h.apart l hl m hmem hgiven).trans hkey
  | @make x v hother =>
    have hnew : ∀ m ∈ past, m.given ≠ r.made := fun m hm => Nat.ne_of_lt (h.made m hm)
    have hfollows : Lookup.Follows key past ⟨x, v, r.find? (key x), r.made⟩ :=
      { found := fun n v hsome => h.registered _ n v hsome
        reuses := fun n hsome => absurd hsome (hother n)
        renews := fun _ => hnew }
    refine h.snoc hfollows (fun k n v' hk hentry => ?_) (Function.update_self ..)
      (fun l hl => ?_) ?_
    · exact (Function.update_of_ne hk ..).symm.trans hentry
    · rcases List.mem_append.1 hl with hold | hlast
      · exact Nat.lt_succ_of_lt (h.made l hold)
      · rw [List.mem_singleton.1 hlast]
        exact Nat.lt_succ_self _
    · intro m hm hgiven
      exact absurd hgiven (hnew m hm)
  | drop hentries hmade =>
    rw [List.append_nil]
    refine { h with registered := fun k n v hentry => ?_, made := fun l hl => hmade ▸ h.made l hl }
    rcases hentries k with hsame | hnone
    · exact h.registered k n v (hsame ▸ hentry)
    · exact nomatch hnone.symm.trans hentry

/-- What every step preserves, every run does. -/
theorem Records.run (h : Records key past r) (hrun : Run key r ls r') :
    Records key (past ++ ls) r' := by
  induction hrun generalizing past with
  | refl =>
    rw [List.append_nil]
    exact h
  | head hstep _ ih =>
    rw [← List.append_assoc]
    exact ih (h.step hstep)

theorem records_run (h : Run key empty ls r) : Records key ls r := (records_empty key).run h

end Roster

/-! ## Rosters of shelves -/

namespace Shelf

variable {α ε : Type} {key : ρ → String} {version : α → UInt64} {s t u : Shelf α} {x : ρ}
  {v : UInt64} {ls ls' : List (Lookup ρ)} {n : Nat} {a a' : α}

/-- What a shelf is to those who look things up, where objects have versions as given. -/
def roster (version : α → UInt64) (s : Shelf α) : Roster where
  find? key := (s.find? key).bind fun e => (s.objects[e.2]?).map fun a => (e.2, version a)
  made := s.objects.length

theorem find?_roster_eq_some_iff {k : String} : (s.roster version).find? k = some (n, v) ↔
    ∃ owner a, s.find? k = some (owner, n) ∧ s.objects[n]? = some a ∧ version a = v := by
  simp [roster, Option.bind_eq_some_iff]

/-- Whether a shelf came from another by the look-ups given. -/
structure Goes (key : ρ → String) (version : α → UInt64) (s : Shelf α) (ls : List (Lookup ρ))
    (t : Shelf α) : Prop where
  run : Roster.Run key (s.roster version) ls (t.roster version)
  isBounded : t.IsBounded

theorem Goes.refl (h : s.IsBounded) : s.Goes key version [] s := ⟨.refl _, h⟩

theorem Goes.trans (h : s.Goes key version ls t) (h' : t.Goes key version ls' u) :
    s.Goes key version (ls ++ ls') u := ⟨h.run.trans h'.run, h'.isBounded⟩

/-- Looking up nothing more. -/
theorem Goes.trans_nil (h : s.Goes key version ls t) (h' : t.Goes key version [] u) :
    s.Goes key version ls u := by
  simpa using h.trans h'

/-- A new object stands on the roster under its key. -/
theorem roster_register (h : s.IsBounded) (k service : String) (a : α) :
    (s.register k service a).roster version =
      ⟨Function.update (s.roster version).find? k (some (s.objects.length, version a)),
        s.objects.length + 1⟩ := by
  unfold roster
  congr 1
  · funext k'
    rw [find?_register, Function.update_apply]
    split
    · simp [register]
    · refine Option.bind_congr fun e he => ?_
      rw [register, List.getElem?_append_left (h k' e he)]
  · simp [register]

/-- A roster does not show how an object changes. -/
theorem roster_put (ha : s.objects[n]? = some a) (hversion : version a' = version a) :
    (s.put n a').roster version = s.roster version := by
  unfold roster put
  congr 1
  · funext k
    refine Option.bind_congr fun e _ => ?_
    rw [List.getElem?_set']
    split
    · next hn =>
      rw [← hn, ha]
      exact congrArg (fun w => some (n, w)) hversion
    · rfl
  · exact List.length_set ..

/-- What is no longer registered is no longer on the roster. -/
theorem find?_roster_retain (s : Shelf α) (keep : String → α → Bool) (k : String) :
    ((s.retain keep).roster version).find? k = (s.roster version).find? k ∨
      ((s.retain keep).roster version).find? k = none := by
  simp only [roster, retain]
  cases s.find? k with
  | none => exact .inl rfl
  | some e =>
    rw [Option.filter_some]
    split
    · exact .inl rfl
    · exact .inr rfl

/-- Another object is registered, if none of the version is. -/
theorem goes_register (h : s.IsBounded) (service : String) (hversion : version a = v)
    (hother : ∀ n, (s.roster version).find? (key x) ≠ some (n, v)) :
    s.Goes key version [⟨x, v, (s.roster version).find? (key x), s.objects.length⟩]
      (s.register (key x) service a) where
  run := by
    rw [roster_register h, hversion]
    exact .single (.make hother)
  isBounded := h.register (key x) service a

/-- An object is looked up by its version. -/
theorem goes_get (h : s.IsBounded) {service : String} {make : Except ε α}
    (hmake : ∀ a, make = .ok a → version a = v)
    (hget : s.get (key x) service (version · = v) make = .ok (n, t)) :
    s.Goes key version [⟨x, v, (s.roster version).find? (key x), n⟩] t := by
  rcases get_cases hget with ⟨rfl, owner, a, hfound, ha, hwanted⟩ |
    ⟨owner, a, hmade, rfl, rfl, hunwanted⟩
  · have hentry : (t.roster version).find? (key x) = some (n, v) :=
      find?_roster_eq_some_iff.2 ⟨owner, a, hfound, ha, by simpa using hwanted⟩
    rw [hentry]
    exact ⟨.single (.reuse hentry), h⟩
  · refine goes_register h owner (hmake a hmade) fun n hn => ?_
    obtain ⟨_, b, hsome, hb, hversion⟩ := find?_roster_eq_some_iff.1 hn
    exact hunwanted _ b hsome hb (by simpa using hversion)

/-- An object changes, but not its version. -/
theorem goes_put (h : s.IsBounded) (ha : s.objects[n]? = some a)
    (hversion : version a' = version a) : s.Goes key version [] (s.put n a') where
  run := by
    rw [roster_put ha hversion]
    exact .refl _
  isBounded := h.put n a'

theorem goes_retain (h : s.IsBounded) (keep : String → α → Bool) :
    s.Goes key version [] (s.retain keep) where
  run := .single (.drop (find?_roster_retain s keep) rfl)
  isBounded := h.retain keep

end Shelf

end TrafficControl
