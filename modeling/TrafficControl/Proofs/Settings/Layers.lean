import TrafficControl.Settings.Load
import TrafficControl.Table

/-!
# Layers of settings

A value that is laid over a tree under a path of names stands there afterwards, and all else is as
it was (`Setting.replaces_putAt`), if the path is open : on it there are groups or nothing
(`Setting.isOpen`). What is laid over both trees under a path that leads elsewhere
(`Setting.staysClear`) does not change this (`Setting.Replaces.putAt`).

So a variable for an open path sets what is there, whatever other variables there are, as long as
their paths lead elsewhere (`replaces_foldl_layVariable`).
-/

namespace TrafficControl

namespace Setting

variable {t t' value w : Setting} {name : String} {names : List String} {path : List Step}

/-! ## Entries -/

theorem lookup_replace (name : String) (value : Setting) (es : List (String × Setting))
    (n : String) :
    (replace name value es).lookup n = if n = name then some value else es.lookup n := by
  have hrebind : replace name value es = Table.rebind name value es := by
    induction es with
    | nil => rfl
    | cons e es ih => rw [replace, Table.rebind, ih]
  rw [hrebind, Table.lookup_rebind]

/-- What a tree has under a name. -/
def child (t : Setting) (name : String) : Setting := (t.entries.lookup name).getD absent

/-- Whether a value is no group. -/
def IsSingle (value : Setting) : Prop := ∀ es, value ≠ group es

theorem put_eq (h : value.IsSingle) (t : Setting) (name : String) :
    t.put name value = group (replace (Text.lowercase name) value t.entries) := by
  rw [put]
  exact h

theorem isSingle_ofText (s : String) : (ofText s).IsSingle := by
  intro es
  unfold ofText
  split
  · exact nofun
  · exact nofun
  · split <;> exact nofun

theorem putAt_eq (t : Setting) (n : String) (step : Step) (path : List Step) (value : Setting) :
    t.putAt (.entry n :: step :: path) value =
      group (replace n ((t.child n).putAt (step :: path) value) t.entries) := rfl

/-! ## Paths -/

/-- Whether a value may have others laid over its entries, without being replaced. -/
def isSection : Setting → Bool
  | absent | group _ => true
  | _ => false

/-- Whether all that a path leads through are sections, if they are there. -/
def isOpen : List String → Setting → Bool
  | [], _ => true
  | name :: names, t => t.isSection && isOpen names (t.child name)

/-- Whether a path leaves the one of the names given before its end. -/
def staysClear : List Step → List String → Bool
  | [.entry n], name :: _ => Text.lowercase n ≠ name
  | .entry n :: path, name :: names => n ≠ name || staysClear path names
  | _, _ => false

/-- Whether the second tree has a value under a path, and all else as the first one has it. -/
def Replaces (value : Setting) : List String → Setting → Setting → Prop
  | [], _, t' => t' = value
  | name :: names, t, t' => t.isSection ∧ (∃ es, t' = group es) ∧
      (∀ n, n ≠ name → t'.entries.lookup n = t.entries.lookup n) ∧
      ∃ u, t'.entries.lookup name = some u ∧ Replaces value names (t.child name) u

theorem Replaces.isOpen (h : Replaces value names t t') : isOpen names t := by
  induction names generalizing t t' with
  | nil => rfl
  | cons name names ih =>
    obtain ⟨hsection, -, -, u, -, hu⟩ := h
    rw [Setting.isOpen, hsection, ih hu]
    rfl

/-- What a tree with a changed entry has under names. -/
theorem child_group_replace (t : Setting) (n : String) (u : Setting) (name : String) :
    (group (replace n u t.entries)).child name = if name = n then u else t.child name := by
  rw [child, entries, lookup_replace]
  split <;> rfl

/-- An entry is laid over a section. -/
theorem replaces_replace (hsection : t.isSection) {u : Setting}
    (h : Replaces value names (t.child name) u) :
    Replaces value (name :: names) t (group (replace name u t.entries)) := by
  refine ⟨hsection, ⟨_, rfl⟩, fun n hn => ?_, u, ?_, h⟩
  · exact (lookup_replace ..).trans (if_neg hn)
  · exact (lookup_replace ..).trans (if_pos rfl)

namespace Replaces

/-- The entries on the path change. -/
theorem replace_self (h : Replaces value (name :: names) t t') {u u' : Setting}
    (hu : Replaces value names u u') :
    Replaces value (name :: names) (group (replace name u t.entries))
      (group (replace name u' t'.entries)) := by
  obtain ⟨-, -, hothers, -⟩ := h
  refine ⟨rfl, ⟨_, rfl⟩, fun n hn => ?_, u', ?_, ?_⟩
  · rw [entries, entries, lookup_replace, lookup_replace, if_neg hn, if_neg hn, hothers n hn]
  · rw [entries, lookup_replace, if_pos rfl]
  · rwa [child_group_replace, if_pos rfl]

/-- Entries that are not on the path change in the same way. -/
theorem replace_of_ne (h : Replaces value (name :: names) t t') {n : String} (hn : n ≠ name)
    (u : Setting) : Replaces value (name :: names) (group (replace n u t.entries))
      (group (replace n u t'.entries)) := by
  obtain ⟨-, -, hothers, v, hv, hrest⟩ := h
  refine ⟨rfl, ⟨_, rfl⟩, fun m hm => ?_, v, ?_, ?_⟩
  · rw [entries, entries, lookup_replace, lookup_replace, hothers m hm]
  · rw [entries, lookup_replace, if_neg hn.symm, hv]
  · rwa [child_group_replace, if_neg hn.symm]

theorem child_of_ne (h : Replaces value (name :: names) t t') {n : String} (hn : n ≠ name) :
    t'.child n = t.child n := by
  obtain ⟨-, -, hothers, -⟩ := h
  rw [child, hothers n hn, child]

end Replaces

/-- A value that is laid over an open tree stands there. -/
theorem replaces_putAt (hvalue : value.IsSingle)
    (hlower : ∀ n ∈ name :: names, Text.lowercase n = n) (h : isOpen (name :: names) t) :
    Replaces value (name :: names) t (t.putAt ((name :: names).map .entry) value) := by
  induction names generalizing name t with
  | nil =>
    obtain ⟨hsection, -⟩ := Bool.and_eq_true_iff.1 h
    have hput := put_eq hvalue t name
    rw [hlower name List.mem_cons_self] at hput
    rw [List.map_singleton, putAt, hput]
    exact replaces_replace hsection rfl
  | cons next names ih =>
    obtain ⟨hsection, hopen⟩ := Bool.and_eq_true_iff.1 h
    exact replaces_replace hsection (ih (fun n hn => hlower n (.tail name hn)) hopen)

theorem not_staysClear_nil (path : List Step) : ¬staysClear path [] := by
  rcases path with - | ⟨n | index, - | ⟨step, path⟩⟩ <;> exact Bool.false_ne_true

/-- What is laid over both trees under a path that leads elsewhere stands in both. -/
theorem Replaces.putAt (h : Replaces value names t t') (hw : w.IsSingle)
    (hclear : staysClear path names) : Replaces value names (t.putAt path w) (t'.putAt path w) := by
  induction names generalizing path t t' with
  | nil => exact absurd hclear (not_staysClear_nil path)
  | cons name names ih =>
    rcases path with - | ⟨n | index, - | ⟨step, path⟩⟩
    · exact absurd hclear Bool.false_ne_true
    · have hn : Text.lowercase n ≠ name := of_decide_eq_true hclear
      rw [Setting.putAt, Setting.putAt, put_eq hw, put_eq hw]
      exact h.replace_of_ne hn w
    · rw [putAt_eq, putAt_eq]
      by_cases hn : n = name
      · subst hn
        have hrest : staysClear (step :: path) names := by simpa [staysClear] using hclear
        obtain ⟨u, hu, hreplaces⟩ := h.2.2.2
        have hchild : t'.child n = u := by rw [child, hu, Option.getD_some]
        rw [hchild]
        exact h.replace_self (ih hreplaces hrest)
      · rw [h.child_of_ne hn]
        exact h.replace_of_ne hn _
    · exact absurd hclear Bool.false_ne_true
    · exact absurd hclear Bool.false_ne_true

end Setting

/-! ## Variables -/

open Setting

variable {t t' value : Setting} {names : List String}
  {environment before after : List (String × String)}

/-- Whether a variable is no setting, or one with a path that leads elsewhere. -/
def leadsElsewhere (names : List String) (x : String × String) : Bool :=
  (variablePath? x.1).all (staysClear · names)

theorem replaces_layVariable (h : Replaces value names t t') {x : String × String}
    (hclear : leadsElsewhere names x) :
    Replaces value names (layVariable t x) (layVariable t' x) := by
  unfold layVariable
  unfold leadsElsewhere at hclear
  dsimp only
  cases hpath : variablePath? x.1 with
  | none => exact h
  | some path =>
    rw [hpath, Option.all_some] at hclear
    exact h.putAt (isSingle_ofText x.2) hclear

theorem Setting.Replaces.foldl_layVariable (h : Replaces value names t t')
    (hclear : ∀ x ∈ environment, leadsElsewhere names x) :
    Replaces value names (environment.foldl layVariable t)
      (environment.foldl layVariable t') := by
  induction environment generalizing t t' with
  | nil => exact h
  | cons x environment ih =>
    have hx := replaces_layVariable h (hclear x List.mem_cons_self)
    exact ih hx fun y hy => hclear y (.tail x hy)

/-- An open path stays open. -/
theorem Setting.isOpen_foldl_layVariable (hlower : ∀ n ∈ names, Text.lowercase n = n)
    (h : isOpen names t) (hclear : ∀ x ∈ environment, leadsElsewhere names x) :
    isOpen names (environment.foldl layVariable t) := by
  cases names with
  | nil => rfl
  | cons name names =>
    exact ((replaces_putAt (isSingle_ofText "") hlower h).foldl_layVariable hclear).isOpen

/-- A variable for an open path sets what is there, whatever variables for other paths do. -/
theorem replaces_foldl_layVariable {name : String} (text : String) (hne : names ≠ [])
    (hname : variablePath? name = some (names.map .entry))
    (hlower : ∀ n ∈ names, Text.lowercase n = n) (h : isOpen names t)
    (hclear : ∀ x ∈ before ++ after, leadsElsewhere names x) :
    Replaces (ofText text) names ((before ++ after).foldl layVariable t)
      ((before ++ (name, text) :: after).foldl layVariable t) := by
  obtain ⟨next, names, rfl⟩ := List.exists_cons_of_ne_nil hne
  have hbefore := isOpen_foldl_layVariable hlower h fun x hx => hclear x (List.mem_append_left _ hx)
  have hlaid : layVariable (before.foldl layVariable t) (name, text) =
      (before.foldl layVariable t).putAt ((next :: names).map .entry) (ofText text) := by
    rw [layVariable, hname]
  rw [List.foldl_append, List.foldl_append, List.foldl_cons, hlaid]
  exact (replaces_putAt (isSingle_ofText text) hlower hbefore).foldl_layVariable
    fun x hx => hclear x (List.mem_append_right _ hx)

end TrafficControl
