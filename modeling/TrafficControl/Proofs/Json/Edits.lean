import TrafficControl.Proofs.Json.RoundTrip

/-!
# Edits that do not show

Three kinds of edits do not change what a record is read as : its members are put in another order,
a member is added under a name that the record does not have, and a member is removed that has the
value which stands for it where it is missing. `Codec.Edit` is one such edit of one record, which
may be the whole of what a codec reads or stand anywhere inside : in a member of a record, in an
item of a list, in the value of a table. No edit changes what is read (`Codec.Edit.decode_eq`), and
so no run of edits does (`Codec.decode_eq_of_edits`).

Only a member whose name is given once can be removed. A name that is given again makes the record
an error as long as it stands.
-/

namespace TrafficControl

namespace Codec

/-! ## Records by the names of their members -/

section Given

variable {members members' before after : List (Option String × Json)} {name : String}
  {value : Json}

theorem given?_perm (h : members.Perm members') (name : String) :
    given? members' name = given? members name := by
  have hfilter := h.filter (·.1 = some name)
  unfold given?
  generalize members.filter _ = given at *
  generalize members'.filter _ = given' at *
  rcases given with _ | ⟨m, _ | ⟨n, rest⟩⟩
  · rw [hfilter.nil_eq]
  · rw [List.singleton_perm.1 hfilter]
  · rcases given' with _ | ⟨m', _ | ⟨n', rest'⟩⟩
    · cases hfilter.length_eq
    · cases hfilter.length_eq
    · rfl

/-- A member of another name makes no difference. -/
theorem given?_insert_of_ne {other : Option String} (h : other ≠ some name) :
    given? (before ++ (other, value) :: after) name = given? (before ++ after) name := by
  have hfilter : (before ++ (other, value) :: after).filter (·.1 = some name) =
      (before ++ after).filter (·.1 = some name) := by
    simp [List.filter_append, List.filter_cons_of_neg, h]
  simp only [given?, hfilter]

theorem given?_of_notMem (h : ∀ m ∈ members, m.1 ≠ some name) :
    given? members name = some none := by
  rw [given?, filter_name_eq_nil_iff.2 h]

end Given

namespace Members

variable {α β : Type} {members members' : List (Option String × Json)}

/-- What a record is read as, by its members. -/
def read (m : Members α) (members : List (Option String × Json)) : Option α :=
  (m.names.mapM (given? members)).bind m.decode

theorem read_one (f : Field α) :
    (one f).read members = (given? members f.name).bind f.decode := by
  cases h : given? members f.name <;> simp [read, one, h]

theorem read_cons (f : Field α) (m : Members β) :
    (cons f m).read members =
      ((given? members f.name).bind f.decode).bind fun a => (m.read members).map (a, ·) := by
  cases hslot : given? members f.name with
  | none => simp [read, cons, hslot]
  | some slot =>
    cases hslots : m.names.mapM (given? members) with
    | none => cases hvalue : f.decode slot <;> simp [read, cons, hslot, hslots, hvalue]
    | some slots => simp [read, cons, hslot, hslots, Option.map_eq_bind]

/-- Only what is given for the names of a record counts. -/
theorem read_congr (m : Members α)
    (h : ∀ name ∈ m.names, given? members' name = given? members name) :
    m.read members' = m.read members := by
  have hslots : m.names.mapM (given? members') = m.names.mapM (given? members) := by
    generalize m.names = names at h
    induction names with
    | nil => rfl
    | cons name names ih =>
      have hrest := ih fun n hn => h n (List.mem_cons_of_mem _ hn)
      rw [List.mapM_cons, List.mapM_cons, h name List.mem_cons_self, hrest]
  rw [read, read, hslots]

/-- Whether `f` is the member at a position, and the only one of its name. -/
inductive At : {α β : Type} → Members α → Nat → Field β → Prop
  | one {α : Type} (f : Field α) : At (one f) 0 f
  | head {α β : Type} {f : Field α} {m : Members β} (h : f.name ∉ m.names) : At (cons f m) 0 f
  | tail {α β γ : Type} {f : Field α} {g : Field γ} {m : Members β} {n : Nat}
    (hne : f.name ≠ g.name) (h : At m n g) : At (cons f m) (n + 1) g

namespace At

variable {m : Members α} {n : Nat} {f : Field β}

/-- A record is read the same if one of its members is, and what is given for the others does not
change. -/
theorem read_eq (h : m.At n f)
    (hothers : ∀ name ≠ f.name, given? members' name = given? members name)
    (hmember : (given? members' f.name).bind f.decode = (given? members f.name).bind f.decode) :
    m.read members' = m.read members := by
  induction h with
  | one f => rw [read_one, read_one, hmember]
  | head hnew =>
    rw [read_cons, read_cons, hmember,
      read_congr _ fun name hname => hothers name fun heq => hnew (heq ▸ hname)]
  | tail hne _ ih => rw [read_cons, read_cons, hothers _ hne, ih hothers hmember]

/-- The same for a record that is given by the values of its members in order. -/
theorem decode_eq {before after : List (Option Json)} {slot slot' : Option Json}
    (h : m.At before.length f) (hslot : f.decode slot' = f.decode slot) :
    m.decode (before ++ slot' :: after) = m.decode (before ++ slot :: after) := by
  generalize hn : before.length = n at h
  induction h generalizing before with
  | one f =>
    obtain rfl := List.length_eq_zero_iff.1 hn
    cases after with
    | nil => exact hslot
    | cons => rfl
  | head =>
    obtain rfl := List.length_eq_zero_iff.1 hn
    simp [cons, hslot]
  | tail _ _ ih =>
    obtain ⟨s, before, rfl⟩ := List.exists_cons_of_length_eq_add_one hn
    have hrest := ih hslot (Nat.succ.inj hn)
    simp [cons, hrest]

end At

end Members

/-! ## Edits -/

/-- Whether one value comes from another by an edit of a record somewhere in what a codec reads. -/
inductive Edit : {α : Type} → Codec α → Json → Json → Prop
  /-- The members of a record are put in another order. -/
  | permute {α : Type} {m : Members α} {members members' : List (Option String × Json)}
    (h : members.Perm members') : Edit (record m) (.record members) (.record members')
  /-- A member is added under a name that the record does not have. -/
  | add {α : Type} {m : Members α} {before after : List (Option String × Json)} {name : String}
    {value : Json} (h : name ∉ m.names) :
    Edit (record m) (.record (before ++ after)) (.record (before ++ (some name, value) :: after))
  /-- A member is removed that has the value which stands for it where it is missing. -/
  | remove {α β : Type} {m : Members α} {n : Nat} {f : Field β} {b : β}
    {before after : List (Option String × Json)} {value : Json} (hf : m.At n f)
    (hdefault : f.default = some b) (hvalue : f.codec.decode value = some b)
    (honce : ∀ p ∈ before ++ after, p.1 ≠ some f.name) :
    Edit (record m) (.record (before ++ (some f.name, value) :: after)) (.record (before ++ after))
  /-- The value of a member is edited. -/
  | member {α β : Type} {m : Members α} {n : Nat} {f : Field β}
    {before after : List (Option String × Json)} {value value' : Json} (hf : m.At n f)
    (h : Edit f.codec value value') :
    Edit (record m) (.record (before ++ (some f.name, value) :: after))
      (.record (before ++ (some f.name, value') :: after))
  /-- The value of a member is edited in a record that is given as a list. -/
  | position {α β : Type} {m : Members α} {f : Field β} {before after : List Json}
    {value value' : Json} (hf : m.At before.length f) (h : Edit f.codec value value') :
    Edit (record m) (.list (before ++ value :: after)) (.list (before ++ value' :: after))
  | item {α : Type} {c : Codec α} {before after : List Json} {value value' : Json}
    (h : Edit c value value') :
    Edit c.list (.list (before ++ value :: after)) (.list (before ++ value' :: after))
  | binding {α : Type} {c : Codec α} {before after : List (Option String × Json)}
    {name : Option String} {value value' : Json} (h : Edit c value value') :
    Edit c.table (.record (before ++ (name, value) :: after))
      (.record (before ++ (name, value') :: after))
  | option {α : Type} {c : Codec α} {value value' : Json} (h : Edit c value value') :
    Edit c.option value value'
  | imap {α β : Type} {c : Codec α} {f : α → β} {g : β → α} {value value' : Json}
    (h : Edit c value value') : Edit (c.imap f g) value value'

variable {α : Type} {c : Codec α} {j j' : Json}

/-- Only records and lists are edited. -/
theorem Edit.ne_null (h : Edit c j j') : j ≠ .null ∧ j' ≠ .null := by
  induction h with
  | option _ ih => exact ih
  | imap _ ih => exact ih
  | _ => exact ⟨nofun, nofun⟩

/-- Records with readable names are read the same if their members are. -/
theorem decode_record_congr {m : Members α} {members members' : List (Option String × Json)}
    (hnames : (members'.all fun p => p.1.isSome) = members.all fun p => p.1.isSome)
    (hread : m.read members' = m.read members) :
    (record m).decode (.record members') = (record m).decode (.record members) := by
  have hdecode (l : List (Option String × Json)) : (record m).decode (.record l) =
      if l.all fun p => p.1.isSome then m.read l else none := by
    by_cases hl : l.all fun p => p.1.isSome <;> simp only [record, slots?, hl] <;> rfl
  rw [hdecode, hdecode, hnames, hread]

/-- An edit does not change what is read. -/
theorem Edit.decode_eq (h : Edit c j j') : c.decode j' = c.decode j := by
  induction h with
  | @permute _ m members members' hperm =>
    exact decode_record_congr hperm.symm.all_eq (m.read_congr fun name _ => given?_perm hperm name)
  | @add _ m _ _ name _ hname =>
    refine decode_record_congr (by simp) (m.read_congr fun other hother => ?_)
    exact given?_insert_of_ne fun heq => hname (Option.some.inj heq ▸ hother)
  | @remove _ _ m n f b before after value hf hdefault hvalue honce =>
    refine decode_record_congr (by simp) (hf.read_eq (fun name hname => ?_) ?_)
    · exact (given?_insert_of_ne fun heq => hname (Option.some.inj heq).symm).symm
    · rw [given?_insert_self, if_pos honce, given?_of_notMem honce]
      exact hdefault.trans hvalue.symm
  | @member _ _ m n f before after value value' hf _ ih =>
    refine decode_record_congr (by simp) (hf.read_eq (fun name hname => ?_) ?_)
    · have hne : some f.name ≠ some name := fun heq => hname (Option.some.inj heq).symm
      rw [given?_insert_of_ne hne, given?_insert_of_ne hne]
    · rw [given?_insert_self, given?_insert_self]
      split
      · exact ih
      · rfl
  | @position _ _ m f before after value value' hf _ ih =>
    have hslots (v : Json) : slots? m.names (.list (before ++ v :: after)) =
        if before.length + (after.length + 1) ≤ m.names.length then
          some (before.map some ++ some v :: (after.map some ++
            List.replicate (m.names.length - (before.length + (after.length + 1))) none))
        else none := by
      simp [slots?]
    simp only [record, hslots]
    split
    · rw [← List.length_map some] at hf
      exact hf.decode_eq ih
    · rfl
  | @item _ c before after value value' _ ih =>
    simp only [list, List.mapM_append, List.mapM_cons, ih]
  | @binding _ c before after name value value' _ ih =>
    have hbinding : c.decodeBinding (name, value') = c.decodeBinding (name, value) := by
      cases name with
      | none => rfl
      | some name => exact congrArg (Option.map (name, ·)) ih
    simp only [table, List.mapM_append, List.mapM_cons, hbinding]
  | option h ih =>
    rw [decode_option h.ne_null.1, decode_option h.ne_null.2, ih]
  | imap _ ih => exact congrArg (Option.map _) ih

/-- No run of edits changes what is read. -/
theorem decode_eq_of_edits (h : Relation.ReflTransGen c.Edit j j') : c.decode j' = c.decode j := by
  induction h with
  | refl => rfl
  | tail _ hlast ih => exact hlast.decode_eq.trans ih

end Codec

end TrafficControl
