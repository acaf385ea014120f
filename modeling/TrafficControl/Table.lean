/-!
# Tables

A `Table` binds names to values. It is a list of bindings in which no name occurs twice, in the
order in which the names were first bound. `insert` gives a name its latest value, `insertNew` lets
the first one stand, `retain` drops bindings. `find?` is the view : `find?_insert`,
`find?_insertNew` and `find?_retain` say what each operation does to it.
-/

namespace TrafficControl

/-- Values bound to names, each name at most once. -/
structure Table (α : Type) where
  bindings : List (String × α)
  nodup : (bindings.map Prod.fst).Nodup
deriving DecidableEq

namespace Table

variable {α β : Type}

/-! ## Bindings as a list -/

/-- Bind `name` to `a`, in its old place if it has one, else at the end. -/
def rebind (name : String) (a : α) : List (String × α) → List (String × α)
  | [] => [(name, a)]
  | (n, b) :: rest => if n = name then (name, a) :: rest else (n, b) :: rebind name a rest

theorem mem_keys_rebind {name n : String} {a : α} {l : List (String × α)} :
    n ∈ (rebind name a l).map Prod.fst ↔ n = name ∨ n ∈ l.map Prod.fst := by
  induction l with
  | nil => simp [rebind]
  | cons p rest ih =>
    by_cases h : p.1 = name <;> simp_all [rebind]
    grind

theorem nodup_rebind {name : String} {a : α} {l : List (String × α)}
    (h : (l.map Prod.fst).Nodup) : ((rebind name a l).map Prod.fst).Nodup := by
  induction l with
  | nil => simp [rebind]
  | cons p rest ih =>
    have hmem := @mem_keys_rebind α name p.1 a rest
    by_cases hp : p.1 = name <;> simp_all [rebind]

theorem lookup_rebind {name n : String} {a : α} {l : List (String × α)} :
    (rebind name a l).lookup n = if n = name then some a else l.lookup n := by
  induction l with
  | nil =>
    by_cases h : n = name
    · simp [rebind, h]
    · simp [rebind, List.lookup_cons, h, beq_eq_false_iff_ne.mpr h]
  | cons p rest ih => by_cases h : p.1 = name <;> simp_all [rebind, List.lookup_cons] <;> grind

theorem rebind_of_notMem {name : String} {a : α} {l : List (String × α)}
    (h : name ∉ l.map Prod.fst) : rebind name a l = l ++ [(name, a)] := by
  induction l with
  | nil => rfl
  | cons p rest ih =>
    rw [List.map_cons, List.mem_cons, not_or] at h
    rw [rebind, if_neg (Ne.symm h.1), ih h.2, List.cons_append]

/-! ## Operations -/

/-- The table without bindings. -/
def empty : Table α := ⟨[], by simp⟩

instance : EmptyCollection (Table α) := ⟨empty⟩
instance : Inhabited (Table α) := ⟨empty⟩

/-- The value bound to `name`. -/
def find? (t : Table α) (name : String) : Option α := t.bindings.lookup name

/-- Whether `name` is bound. -/
def contains (t : Table α) (name : String) : Bool := (t.find? name).isSome

/-- The number of names bound. -/
def size (t : Table α) : Nat := t.bindings.length

/-- Bind `name` to `a`, whatever it was bound to. -/
def insert (t : Table α) (name : String) (a : α) : Table α :=
  ⟨rebind name a t.bindings, nodup_rebind t.nodup⟩

/-- Bind `name` to `a`, unless it is bound already. -/
def insertNew (t : Table α) (name : String) (a : α) : Table α :=
  if t.contains name then t else t.insert name a

/-- Keep the bindings that satisfy `p`. -/
def retain (t : Table α) (p : String → α → Bool) : Table α :=
  ⟨t.bindings.filter fun b => p b.1 b.2, t.nodup.sublist (List.filter_sublist.map _)⟩

/-- Bind each name in turn, so that the last value given for a name stands. -/
def ofList (l : List (String × α)) : Table α :=
  l.foldl (fun t b => t.insert b.1 b.2) empty

/-- Index `items` by `key`; of items with one key the first stands. -/
def index (key : α → String) (items : List α) : Table α :=
  items.foldl (fun t a => t.insertNew (key a) a) empty

/-! ## The view -/

@[simp] theorem find?_empty (name : String) : (empty : Table α).find? name = none := rfl

@[simp, grind =] theorem find?_insert (t : Table α) (name n : String) (a : α) :
    (t.insert name a).find? n = if n = name then some a else t.find? n := lookup_rebind

@[grind =] theorem find?_insertNew (t : Table α) (name n : String) (a : α) :
    (t.insertNew name a).find? n = (t.find? n).or (if n = name then some a else none) := by
  unfold insertNew contains
  cases h : t.find? name <;> by_cases hn : n = name <;> simp_all

/-- The first item that has a name stands, after what was bound to the name already. -/
theorem find?_foldl_insertNew (key : α → String) (value : α → β) (items : List α) (t : Table β)
    (name : String) :
    (items.foldl (fun t a => t.insertNew (key a) (value a)) t).find? name =
      (t.find? name).or ((items.find? (key · = name)).map value) := by
  induction items generalizing t with
  | nil => simp
  | cons a items ih =>
    rw [List.foldl_cons, ih, find?_insertNew, Option.or_assoc, List.find?_cons]
    by_cases h : name = key a
    · simp [h]
    · simp [h, Ne.symm h]

/-- What an index finds for a key is the first item that has it. -/
theorem find?_index (key : α → String) (items : List α) (name : String) :
    (index key items).find? name = items.find? (key · = name) := by
  have h := find?_foldl_insertNew key (fun a => a) items empty name
  rwa [find?_empty, Option.none_or, Option.map_id'] at h

/-- The latest binding of a name in a list stands, before those that were there already. -/
theorem find?_foldl_insert (l : List (String × α)) (t : Table α) (name : String) :
    (l.foldl (fun t b => t.insert b.1 b.2) t).find? name =
      (l.reverse.lookup name).or (t.find? name) := by
  induction l generalizing t with
  | nil => rfl
  | cons b rest ih =>
    obtain ⟨n, a⟩ := b
    have hone : [(n, a)].lookup name = if name = n then some a else none := by
      by_cases h : name = n
      · simp [h]
      · simp [List.lookup_cons, h, beq_eq_false_iff_ne.2 h]
    rw [List.foldl_cons, ih, find?_insert, List.reverse_cons, List.lookup_append, hone,
      Option.or_assoc]
    split <;> rfl

theorem find?_ofList (l : List (String × α)) (name : String) :
    (ofList l).find? name = l.reverse.lookup name :=
  (find?_foldl_insert l empty name).trans (Option.or_none ..)

theorem lookup_eq_some_iff {l : List (String × α)} (h : (l.map Prod.fst).Nodup) {name : String}
    {a : α} : l.lookup name = some a ↔ (name, a) ∈ l := by
  induction l with
  | nil => simp
  | cons p rest ih =>
    obtain ⟨n, b⟩ := p
    simp only [List.map_cons, List.nodup_cons] at h
    by_cases hn : name = n
    · subst hn
      simp only [List.lookup_cons, beq_self_eq_true, Option.some.injEq, List.mem_cons,
        Prod.mk.injEq, true_and]
      refine ⟨fun hb => .inl hb.symm, ?_⟩
      rintro (hb | hb)
      · exact hb.symm
      · exact absurd (List.mem_map_of_mem hb) h.1
    · have hb : (name == n) = false := by simpa using hn
      simp [List.lookup_cons, hb, ih h.2, hn]

theorem find?_eq_some_iff {t : Table α} {name : String} {a : α} :
    t.find? name = some a ↔ (name, a) ∈ t.bindings := lookup_eq_some_iff t.nodup

@[grind =] theorem find?_retain (t : Table α) (p : String → α → Bool) (name : String) :
    (t.retain p).find? name = (t.find? name).filter (p name) := by
  apply Option.ext
  intro a
  rw [find?_eq_some_iff, Option.filter_eq_some_iff, find?_eq_some_iff]
  simp [retain]

/-! ## Tables from lists -/

/-- Names that are not bound yet are bound in turn. -/
theorem bindings_foldl_insert {t : Table α} {l : List (String × α)}
    (h : ((t.bindings ++ l).map Prod.fst).Nodup) :
    (l.foldl (fun t b => t.insert b.1 b.2) t).bindings = t.bindings ++ l := by
  induction l generalizing t with
  | nil => exact (List.append_nil _).symm
  | cons b rest ih =>
    have hnew : b.1 ∉ t.bindings.map Prod.fst := fun hmem => by
      rw [List.map_append, List.nodup_append] at h
      exact h.2.2 _ hmem _ List.mem_cons_self rfl
    have hinsert : (t.insert b.1 b.2).bindings = t.bindings ++ [b] := rebind_of_notMem hnew
    rw [List.append_cons, ← hinsert] at h
    rw [List.foldl_cons, ih h, hinsert, ← List.append_cons]

/-- Binding the names of a table in turn makes the table. -/
theorem ofList_bindings (t : Table α) : ofList t.bindings = t := by
  have hbindings : (ofList t.bindings).bindings = t.bindings := bindings_foldl_insert t.nodup
  cases hlist : ofList t.bindings with
  | mk bindings nodup =>
    rw [hlist] at hbindings
    subst hbindings
    rfl

end Table

end TrafficControl
