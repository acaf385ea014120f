import TrafficControl.Json.Codec
import TrafficControl.Proofs.Number.Single

/-!
# Reading back what was written

A codec reads a value back if it decodes what it encodes (`Codec.Reads`). Every way to make codecs
keeps that : the codec of a record reads a value back if the codecs of the members do, as long as
no two members have one name (`Codec.Reads.record`). Of the numbers a double and a single have to be
finite, because `null` is written for any other, and an optional value must not itself be written
as `null`.
-/

namespace TrafficControl

/-- An item of a list without repetitions differs from those around it. -/
theorem ne_of_nodup_middle {α β : Type} {f : α → β} {a : α} {before after : List α}
    (h : ((before ++ a :: after).map f).Nodup) : ∀ b ∈ before ++ after, f b ≠ f a := by
  rw [List.map_append, List.map_cons, List.nodup_middle, ← List.map_append] at h
  exact fun b hb heq => (List.nodup_cons.1 h).1 (List.mem_map.2 ⟨b, hb, heq⟩)

namespace Codec

variable {α β γ : Type} {c : Codec α}

theorem filter_name_eq_nil_iff {members : List (Option String × Json)} {name : String} :
    members.filter (·.1 = some name) = [] ↔ ∀ m ∈ members, m.1 ≠ some name := by
  simp [List.filter_eq_nil_iff]

/-- What is given for a name next to a member of this name : its value, unless the name is given
again. -/
theorem given?_insert_self {before after : List (Option String × Json)} {name : String}
    {value : Json} :
    given? (before ++ (some name, value) :: after) name =
      if ∀ m ∈ before ++ after, m.1 ≠ some name then some (some value) else none := by
  have hfilter : (before ++ (some name, value) :: after).filter (·.1 = some name) =
      before.filter (·.1 = some name) ++ (some name, value) :: after.filter (·.1 = some name) := by
    simp [List.filter_append]
  simp only [given?, hfilter, ← filter_name_eq_nil_iff, List.filter_append]
  rcases before.filter _ with _ | ⟨m, _ | ⟨n, rest⟩⟩
  · cases after.filter (·.1 = some name) <;> rfl
  · rfl
  · rfl

/-! ## Values that are read back -/

/-- Whether a codec reads a value back from what it writes for it. -/
def Reads (c : Codec α) (a : α) : Prop := c.decode (c.encode a) = some a

/-- Whether the values written for the members of a record are read back. -/
structure Members.Reads (m : Members α) (a : α) : Prop where
  length_encode : (m.encode a).length = m.names.length
  decode_encode : m.decode ((m.encode a).map some) = some a

theorem Members.Reads.one {f : Field α} {a : α} (h : f.codec.Reads a) : (one f).Reads a :=
  ⟨rfl, h⟩

theorem Members.Reads.cons {f : Field α} {m : Members β} {a : α} {b : β} (hf : f.codec.Reads a)
    (hm : m.Reads b) : (cons f m).Reads (a, b) where
  length_encode := congrArg (· + 1) hm.length_encode
  decode_encode := by
    have ha : f.decode (some (f.codec.encode a)) = some a := hf
    simp [Members.cons, ha, hm.decode_encode]

theorem decode_option {j : Json} (h : j ≠ .null) : c.option.decode j = (c.decode j).map some := by
  cases j with
  | null => exact absurd rfl h
  | _ => rfl

/-- A list is read back if its items are. -/
theorem mapM_map {f : α → β} {g : β → Option γ} {h : α → γ} {as : List α}
    (hread : ∀ a ∈ as, g (f a) = some (h a)) : (as.map f).mapM g = some (as.map h) := by
  induction as with
  | nil => rfl
  | cons a as ih =>
    have hrest := ih fun b hb => hread b (List.mem_cons_of_mem _ hb)
    simp [List.mapM_cons, hread a List.mem_cons_self, hrest]

/-- Of names that differ each one is given the value next to it. -/
theorem mapM_given?_zip {names : List String} {values : List Json} (hnodup : names.Nodup)
    (hlength : values.length = names.length) :
    names.mapM (given? ((names.zip values).map fun m => (some m.1, m.2))) =
      some (values.map some) := by
  have hnames : (names.zip values).map Prod.fst = names :=
    List.map_fst_zip (Nat.le_of_eq hlength.symm)
  have hvalues : (names.zip values).map Prod.snd = values :=
    List.map_snd_zip (Nat.le_of_eq hlength)
  generalize names.zip values = members at *
  subst hnames hvalues
  rw [List.map_map]
  refine mapM_map fun m hm => ?_
  obtain ⟨before, after, rfl⟩ := List.append_of_mem hm
  have honce : ∀ n ∈ (before ++ after).map fun m => (some m.1, m.2), n.1 ≠ some m.1 := by
    intro n hn heq
    obtain ⟨p, hp, rfl⟩ := List.mem_map.1 hn
    exact ne_of_nodup_middle hnodup p hp (Option.some.inj heq)
  rw [List.map_append] at honce
  rw [List.map_append, List.map_cons, given?_insert_self, if_pos honce]
  rfl

namespace Reads

theorem imap {f : α → β} {g : β → α} {b : β} (h : c.Reads (g b)) (hfg : f (g b) = b) :
    (c.imap f g).Reads b := by
  have hdecode : (c.imap f g).decode (c.encode (g b)) = some (f (g b)) := congrArg (Option.map f) h
  exact hdecode.trans (congrArg some hfg)

/-! ### Simple values -/

theorem bool (b : Bool) : Codec.bool.Reads b := rfl

theorem string (s : String) : Codec.string.Reads s := rfl

theorem natural {n bound : Nat} (h : n < bound) : (Codec.natural bound).Reads n := if_pos h

theorem word16 (w : UInt16) : Codec.word16.Reads w :=
  .imap (.natural w.toNat_lt) (UInt16.ofNat_toNat ..)

theorem word32 (w : UInt32) : Codec.word32.Reads w :=
  .imap (.natural w.toNat_lt) (UInt32.ofNat_toNat ..)

theorem word64 (w : UInt64) : Codec.word64.Reads w :=
  .imap (.natural w.toNat_lt) (UInt64.ofNat_toNat ..)

theorem double {x : Float} (h : x.isFinite = true) : Codec.double.Reads x := by
  have hencode : Codec.double.encode x = .number (.real x) := if_pos h
  rw [Reads, hencode]
  rfl

theorem single {x : Float32} (h : x.isFinite = true) : Codec.single.Reads x := by
  have hencode : Codec.single.encode x = .number (.real (widen x)) := if_pos h
  rw [Reads, hencode]
  exact congrArg some (narrow_widen h).2

/-- A name out of a fixed set is read back if no two values have it. -/
theorem enumeration [DecidableEq α] {names : List (α × String)} {a : α}
    (hnames : (names.map Prod.snd).Nodup) (ha : a ∈ names.map Prod.fst) :
    (Codec.enumeration names).Reads a := by
  obtain ⟨s, hs⟩ : ∃ s, names.lookup a = some s := by
    rw [← Option.isSome_iff_exists]
    simpa using ha
  obtain ⟨before, after, rfl, -⟩ := List.lookup_eq_some_iff.1 hs
  have hfind : (before ++ (a, s) :: after).find? (fun n => n.2 = s) = some (a, s) := by
    have hbefore : before.find? (fun n => n.2 = s) = none := by
      simp only [List.find?_eq_none, decide_eq_true_eq]
      exact fun n hn => ne_of_nodup_middle hnames n (List.mem_append_left _ hn)
    have hself : ((a, s) :: after).find? (fun n => n.2 = s) = some (a, s) :=
      List.find?_cons_of_pos (decide_eq_true rfl)
    rw [List.find?_append, hbefore, Option.none_or, hself]
  have hencode : (Codec.enumeration (before ++ (a, s) :: after)).encode a = .string s := by
    simp only [Codec.enumeration, hs, Option.getD_some]
  rw [Reads, hencode]
  exact congrArg (Option.map Prod.fst) hfind

/-! ### Values made of values -/

theorem option {o : Option α} (h : ∀ a ∈ o, c.Reads a) (hnull : ∀ a, c.encode a ≠ .null) :
    c.option.Reads o := by
  cases o with
  | none => rfl
  | some a =>
    have hdecode : c.option.decode (c.encode a) = (c.decode (c.encode a)).map some :=
      decode_option (hnull a)
    exact hdecode.trans (congrArg _ (h a rfl))

theorem list {as : List α} (h : ∀ a ∈ as, c.Reads a) : c.list.Reads as := by
  have hread := mapM_map (h := id) h
  rwa [List.map_id] at hread

theorem table {t : Table α} (h : ∀ b ∈ t.bindings, c.Reads b.2) : c.table.Reads t := by
  have hread : (t.bindings.map fun b => (some b.1, c.encode b.2)).mapM c.decodeBinding =
      some (t.bindings.map id) :=
    mapM_map fun b hb => congrArg (Option.map (b.1, ·)) (h b hb)
  have hencode : c.table.encode t =
      .record (t.bindings.map fun b => (some b.1, c.encode b.2)) := by
    simp [Codec.table, Json.object, Function.comp_def]
  rw [Reads, hencode]
  simp [Codec.table, hread, Table.ofList_bindings]

/-- A record is read back if its members are, and no two of them have one name. -/
theorem record {m : Members α} {a : α} (hnodup : m.names.Nodup) (h : m.Reads a) :
    (Codec.record m).Reads a := by
  have hslots : slots? m.names (Json.object (m.names.zip (m.encode a))) =
      some ((m.encode a).map some) := by
    rw [Json.object, slots?, if_pos (by simp), mapM_given?_zip hnodup h.length_encode]
  have hdecode : (Codec.record m).decode ((Codec.record m).encode a) =
      m.decode ((m.encode a).map some) := congrArg (Option.bind · m.decode) hslots
  exact hdecode.trans h.decode_encode

end Reads

end Codec

end TrafficControl
