import TrafficControl.Proofs.Settings.Layers
import TrafficControl.Proofs.Settings.Texts

/-!
# Leaves of the settings

The settings that are texts are the leaves of the tree that is read (`TextLeaf`). A reader of a
group depends on the entry of a field in that field only (`Setting.IsField`), and so from section to
section down to a leaf (`Setting.IsLeaf`). Hence a variable for a leaf decides the leaf and nothing
else (`TextLeaf.load?_variable`). The leaf is what the value of the variable is rewritten to.
-/

namespace TrafficControl

namespace Setting

variable {ρ α β : Type} {read? : Setting → Option ρ} {field? : Setting → Option α}
  {es es' : List (String × Setting)} {name : String} {names : List String}

/-! ## Members of groups -/

theorem member?_eq_of_lookup {place : Nat} {default : α} {u : Setting}
    (h : es.lookup name = some u) : (group es).member? place name field? default = field? u := by
  rw [member?, h]

theorem member?_eq_of_missing {place : Nat} {default : α} (h : es.lookup name = none) :
    (group es).member? place name field? default = some default := by
  rw [member?, h]

theorem member?_congr {place : Nat} {default : α} (h : es'.lookup name = es.lookup name) :
    (group es').member? place name field? default =
      (group es).member? place name field? default := by
  rw [member?, h, member?]

/-! ## Fields and leaves -/

/-- Whether an entry of a group is a field of what is read : the field is read from it alone, and
nothing else is. -/
structure IsField (read? : Setting → Option ρ) (name : String) (field? : Setting → Option α)
    (get : ρ → α) (set : α → ρ → ρ) : Prop where
  read_absent : read? absent = none
  get_eq : ∀ {es u r}, es.lookup name = some u → read? (group es) = some r → field? u = some (get r)
  set_eq : ∀ {es es' u r a}, (∀ n, n ≠ name → es'.lookup n = es.lookup n) →
    es'.lookup name = some u → field? u = some a → read? (group es) = some r →
    read? (group es') = some (set a r)

/-- Whether a field that is missing is read as a group without entries. -/
def IsSectionField (read? : Setting → Option ρ) (name : String) (field? : Setting → Option α)
    (get : ρ → α) : Prop :=
  ∀ {es r}, es.lookup name = none → read? (group es) = some r → field? (group []) = some (get r)

/-- Whether the value under a path decides a part of what is read, and nothing else. -/
structure IsLeaf (read? : Setting → Option ρ) (names : List String) (leaf? : Setting → Option α)
    (get : ρ → α) (set : α → ρ → ρ) : Prop where
  get_eq : ∀ {value t t' r}, Replaces value names t t' → read? t' = some r →
    leaf? value = some (get r)
  set_eq : ∀ {value t t' r a}, Replaces value names t t' → leaf? value = some a →
    read? t = some r → read? t' = some (set a r)

theorem IsField.isLeaf {get : ρ → α} {set : α → ρ → ρ} (h : IsField read? name field? get set) :
    IsLeaf read? [name] field? get set where
  get_eq := by
    rintro value t t' r ⟨-, ⟨es', rfl⟩, -, u, hu, rfl⟩ hr
    exact h.get_eq hu hr
  set_eq := by
    rintro value t t' r a ⟨hsection, ⟨es', rfl⟩, hothers, u, hu, rfl⟩ ha hr
    cases t with
    | absent => cases h.read_absent.symm.trans hr
    | group es => exact h.set_eq hothers hu ha hr
    | _ => cases hsection

/-- What a tree has under the name of a section is read like the section, whether it is there or
not. -/
theorem IsField.isLeaf_cons {get : ρ → α} {set : α → ρ → ρ} {leaf? : Setting → Option β}
    {get' : α → β} {set' : β → α → α} (h : IsField read? name field? get set)
    (hmissing : IsSectionField read? name field? get) {next : String}
    (hleaf : IsLeaf field? (next :: names) leaf? get' set') :
    IsLeaf read? (name :: next :: names) leaf? (fun r => get' (get r))
      (fun b r => set (set' b (get r)) r) where
  get_eq := by
    rintro value t t' r ⟨-, ⟨es', rfl⟩, -, u, hu, hreplaces⟩ hr
    exact hleaf.get_eq hreplaces (h.get_eq hu hr)
  set_eq := by
    rintro value t t' r b ⟨hsection, ⟨es', rfl⟩, hothers, u, hu, hreplaces⟩ hb hr
    cases t with
    | absent => cases h.read_absent.symm.trans hr
    | group es =>
      refine h.set_eq hothers hu ?_ hr
      cases hfound : es.lookup name with
      | none =>
        have hempty : Replaces value (next :: names) (group []) u := by
          rwa [child, entries, hfound] at hreplaces
        exact hleaf.set_eq hempty hb (hmissing hfound hr)
      | some v =>
        rw [child, entries, hfound] at hreplaces
        exact hleaf.set_eq hreplaces hb (h.get_eq hfound hr)
    | _ => cases hsection

end Setting

open Setting

/-! ## Fields of the settings -/

/-- A field of a location. -/
inductive Place where
  | region | zone | unit | cell | liveSpace | laneSpace | lane
deriving DecidableEq

namespace Place

/-- The name of the field. -/
def name : Place → String
  | region => "region"
  | zone => "zone"
  | unit => "unit"
  | cell => "cell"
  | liveSpace => "live_space_id"
  | laneSpace => "lane_space_id"
  | lane => "lane"

/-- The field of a location. -/
def get (p : Place) (l : Location) : Option String :=
  match p with
  | region => l.region
  | zone => l.zone
  | unit => l.unit
  | cell => l.cell
  | liveSpace => l.liveSpace
  | laneSpace => l.laneSpace
  | lane => l.lane

/-- A location with another value of the field. -/
def set (p : Place) (v : Option String) (l : Location) : Location :=
  match p with
  | region => { l with region := v }
  | zone => { l with zone := v }
  | unit => { l with unit := v }
  | cell => { l with cell := v }
  | liveSpace => { l with liveSpace := v }
  | laneSpace => { l with laneSpace := v }
  | lane => { l with lane := v }

theorem get_set (p q : Place) (v : Option String) (l : Location) :
    q.get (p.set v l) = if q = p then v else q.get l := by
  cases p <;> cases q <;> rfl

theorem name_inj {p q : Place} (h : p.name = q.name) : p = q := by
  cases p <;> cases q <;> first | rfl | exact absurd h (by decide)

end Place

theorem Location.ofSetting?_eq_some_iff {es : List (String × Setting)} {l : Location} :
    Location.ofSetting? (group es) = some l ↔
      ∀ p : Place, (group es).member? p.ctorIdx p.name (optional? text?) none = some (p.get l) := by
  unfold Location.ofSetting?
  simp only [Option.bind_eq_bind, Option.bind_eq_some_iff, Option.pure_def, Option.some.injEq]
  constructor
  · rintro ⟨a, ha, b, hb, c, hc, d, hd, e, he, f, hf, g, hg, rfl⟩ p
    cases p <;> assumption
  · intro h
    exact ⟨_, h .region, _, h .zone, _, h .unit, _, h .cell, _, h .liveSpace, _, h .laneSpace, _,
      h .lane, rfl⟩

theorem Place.isField (p : Place) :
    IsField Location.ofSetting? p.name (optional? text?) p.get p.set where
  read_absent := rfl
  get_eq hu hl := (member?_eq_of_lookup hu).symm.trans (Location.ofSetting?_eq_some_iff.1 hl p)
  set_eq {es es' u l v} hothers hu hv hl := by
    refine Location.ofSetting?_eq_some_iff.2 fun q => ?_
    rw [Place.get_set]
    split
    · next hq => rw [hq, member?_eq_of_lookup hu, hv]
    · next hq =>
      rw [member?_congr (hothers q.name fun hname => hq (Place.name_inj hname))]
      exact Location.ofSetting?_eq_some_iff.1 hl q

theorem Application.ofSetting?_eq_some_iff {es : List (String × Setting)} {a : Application} :
    Application.ofSetting? (group es) = some a ↔
      (group es).member? 0 "name" text? "" = some a.name ∧
        (group es).member? 1 "location" Location.ofSetting? {} = some a.location := by
  unfold Application.ofSetting?
  simp only [Option.bind_eq_bind, Option.bind_eq_some_iff, Option.pure_def, Option.some.injEq]
  constructor
  · rintro ⟨name, hname, location, hlocation, rfl⟩
    exact ⟨hname, hlocation⟩
  · rintro ⟨hname, hlocation⟩
    exact ⟨_, hname, _, hlocation, rfl⟩

theorem isField_name : IsField Application.ofSetting? "name" text? (·.name)
    (fun name a => { a with name }) where
  read_absent := rfl
  get_eq hu ha := (member?_eq_of_lookup hu).symm.trans (Application.ofSetting?_eq_some_iff.1 ha).1
  set_eq hothers hu hv ha := by
    obtain ⟨-, hlocation⟩ := Application.ofSetting?_eq_some_iff.1 ha
    exact Application.ofSetting?_eq_some_iff.2 ⟨(member?_eq_of_lookup hu).trans hv,
      (member?_congr (hothers _ (by decide))).trans hlocation⟩

theorem isField_location : IsField Application.ofSetting? "location" Location.ofSetting?
    (·.location) (fun location a => { a with location }) where
  read_absent := rfl
  get_eq hu ha := (member?_eq_of_lookup hu).symm.trans (Application.ofSetting?_eq_some_iff.1 ha).2
  set_eq hothers hu hv ha := by
    obtain ⟨hname, -⟩ := Application.ofSetting?_eq_some_iff.1 ha
    exact Application.ofSetting?_eq_some_iff.2
      ⟨(member?_congr (hothers _ (by decide))).trans hname, (member?_eq_of_lookup hu).trans hv⟩

theorem BalanceSettings.ofSetting?_eq_some_iff {es : List (String × Setting)}
    {s : BalanceSettings} : BalanceSettings.ofSetting? (group es) = some s ↔
      (group es).member? 0 "default_type" text? "round_robin" = some s.default := by
  unfold BalanceSettings.ofSetting?
  simp only [Option.bind_eq_bind, Option.bind_eq_some_iff, Option.pure_def, Option.some.injEq]
  constructor
  · rintro ⟨name, hname, rfl⟩
    exact hname
  · exact fun hname => ⟨_, hname, rfl⟩

theorem isField_balancing : IsField BalanceSettings.ofSetting? "default_type" text? (·.default)
    (fun default _ => { default }) where
  read_absent := rfl
  get_eq hu hs :=
    (member?_eq_of_lookup hu).symm.trans (BalanceSettings.ofSetting?_eq_some_iff.1 hs)
  set_eq _ hu hv _ :=
    BalanceSettings.ofSetting?_eq_some_iff.2 ((member?_eq_of_lookup hu).trans hv)

theorem LogSettings.ofSetting?_eq_some_iff {es : List (String × Setting)} {s : LogSettings} :
    LogSettings.ofSetting? (group es) = some s ↔
      (group es).member? 0 "level" text? "info" = some s.level ∧
        (group es).member? 1 "json" bool? false = some s.json := by
  unfold LogSettings.ofSetting?
  simp only [Option.bind_eq_bind, Option.bind_eq_some_iff, Option.pure_def, Option.some.injEq]
  constructor
  · rintro ⟨level, hlevel, json, hjson, rfl⟩
    exact ⟨hlevel, hjson⟩
  · rintro ⟨hlevel, hjson⟩
    exact ⟨_, hlevel, _, hjson, rfl⟩

theorem isField_level : IsField LogSettings.ofSetting? "level" text? (·.level)
    (fun level s => { s with level }) where
  read_absent := rfl
  get_eq hu hs := (member?_eq_of_lookup hu).symm.trans (LogSettings.ofSetting?_eq_some_iff.1 hs).1
  set_eq hothers hu hv hs := by
    obtain ⟨-, hjson⟩ := LogSettings.ofSetting?_eq_some_iff.1 hs
    exact LogSettings.ofSetting?_eq_some_iff.2 ⟨(member?_eq_of_lookup hu).trans hv,
      (member?_congr (hothers _ (by decide))).trans hjson⟩

/-! ## Sections of the settings -/

/-- What the sections of a group are read as. -/
structure Settings.Reads (es : List (String × Setting)) (s : Settings) : Prop where
  application : (group es).member? 0 "application" Application.ofSetting? {} = some s.application
  live : (group es).member? 1 "live" Toggle.ofSetting? {} = some s.live
  lane : (group es).member? 2 "lane" Toggle.ofSetting? {} = some s.lane
  breakers : (group es).member? 3 "circuit_breaker" Toggle.ofSetting? {} = some s.breakers
  limits : (group es).member? 4 "rate_limit" LimitSettings.ofSetting? {} = some s.limits
  balance : (group es).member? 5 "load_balance" BalanceSettings.ofSetting? {} = some s.balance
  log : (group es).member? 6 "logging" LogSettings.ofSetting? {} = some s.log

theorem Settings.ofSetting?_eq_some_iff {es : List (String × Setting)} {s : Settings} :
    Settings.ofSetting? (group es) = some s ↔ Settings.Reads es s := by
  unfold Settings.ofSetting?
  simp only [Option.bind_eq_bind, Option.bind_eq_some_iff, Option.pure_def, Option.some.injEq]
  constructor
  · rintro ⟨a, ha, b, hb, c, hc, d, hd, e, he, f, hf, g, hg, rfl⟩
    exact ⟨ha, hb, hc, hd, he, hf, hg⟩
  · rintro ⟨ha, hb, hc, hd, he, hf, hg⟩
    exact ⟨_, ha, _, hb, _, hc, _, hd, _, he, _, hf, _, hg, rfl⟩

theorem isField_application : IsField Settings.ofSetting? "application" Application.ofSetting?
    (·.application) (fun application s => { s with application }) where
  read_absent := rfl
  get_eq hu hs :=
    (member?_eq_of_lookup hu).symm.trans (Settings.ofSetting?_eq_some_iff.1 hs).application
  set_eq hothers hu hv hs := by
    have h := Settings.ofSetting?_eq_some_iff.1 hs
    exact Settings.ofSetting?_eq_some_iff.2 {
      application := (member?_eq_of_lookup hu).trans hv
      live := (member?_congr (hothers _ (by decide))).trans h.live
      lane := (member?_congr (hothers _ (by decide))).trans h.lane
      breakers := (member?_congr (hothers _ (by decide))).trans h.breakers
      limits := (member?_congr (hothers _ (by decide))).trans h.limits
      balance := (member?_congr (hothers _ (by decide))).trans h.balance
      log := (member?_congr (hothers _ (by decide))).trans h.log }

theorem isField_balance : IsField Settings.ofSetting? "load_balance" BalanceSettings.ofSetting?
    (·.balance) (fun balance s => { s with balance }) where
  read_absent := rfl
  get_eq hu hs :=
    (member?_eq_of_lookup hu).symm.trans (Settings.ofSetting?_eq_some_iff.1 hs).balance
  set_eq hothers hu hv hs := by
    have h := Settings.ofSetting?_eq_some_iff.1 hs
    exact Settings.ofSetting?_eq_some_iff.2 {
      application := (member?_congr (hothers _ (by decide))).trans h.application
      live := (member?_congr (hothers _ (by decide))).trans h.live
      lane := (member?_congr (hothers _ (by decide))).trans h.lane
      breakers := (member?_congr (hothers _ (by decide))).trans h.breakers
      limits := (member?_congr (hothers _ (by decide))).trans h.limits
      balance := (member?_eq_of_lookup hu).trans hv
      log := (member?_congr (hothers _ (by decide))).trans h.log }

theorem isField_log : IsField Settings.ofSetting? "logging" LogSettings.ofSetting?
    (·.log) (fun log s => { s with log }) where
  read_absent := rfl
  get_eq hu hs :=
    (member?_eq_of_lookup hu).symm.trans (Settings.ofSetting?_eq_some_iff.1 hs).log
  set_eq hothers hu hv hs := by
    have h := Settings.ofSetting?_eq_some_iff.1 hs
    exact Settings.ofSetting?_eq_some_iff.2 {
      application := (member?_congr (hothers _ (by decide))).trans h.application
      live := (member?_congr (hothers _ (by decide))).trans h.live
      lane := (member?_congr (hothers _ (by decide))).trans h.lane
      breakers := (member?_congr (hothers _ (by decide))).trans h.breakers
      limits := (member?_congr (hothers _ (by decide))).trans h.limits
      balance := (member?_congr (hothers _ (by decide))).trans h.balance
      log := (member?_eq_of_lookup hu).trans hv }

/-! ## Leaves -/

/-- A setting that is a text. -/
inductive TextLeaf where
  | name
  | place (p : Place)
  | balancing
  | level
deriving DecidableEq

namespace TextLeaf

/-- The names on the way to the leaf. -/
def names : TextLeaf → List String
  | name => ["application", "name"]
  | place p => ["application", "location", p.name]
  | balancing => ["load_balance", "default_type"]
  | level => ["logging", "level"]

/-- The variable for the leaf. -/
def variableName : TextLeaf → String
  | name => "GOVERNANCE_APPLICATION__NAME"
  | place .region => "GOVERNANCE_APPLICATION__LOCATION__REGION"
  | place .zone => "GOVERNANCE_APPLICATION__LOCATION__ZONE"
  | place .unit => "GOVERNANCE_APPLICATION__LOCATION__UNIT"
  | place .cell => "GOVERNANCE_APPLICATION__LOCATION__CELL"
  | place .liveSpace => "GOVERNANCE_APPLICATION__LOCATION__LIVE_SPACE_ID"
  | place .laneSpace => "GOVERNANCE_APPLICATION__LOCATION__LANE_SPACE_ID"
  | place .lane => "GOVERNANCE_APPLICATION__LOCATION__LANE"
  | balancing => "GOVERNANCE_LOAD_BALANCE__DEFAULT_TYPE"
  | level => "GOVERNANCE_LOGGING__LEVEL"

/-- The leaf of settings, if it is set. -/
def get (leaf : TextLeaf) (s : Settings) : Option String :=
  match leaf with
  | name => some s.application.name
  | place p => p.get s.application.location
  | balancing => some s.balance.default
  | level => some s.log.level

/-- The settings with another text as this leaf. -/
def set (leaf : TextLeaf) (v : String) (s : Settings) : Settings :=
  match leaf with
  | name => { s with application := { s.application with name := v } }
  | place p =>
    { s with application :=
      { s.application with location := p.set (some v) s.application.location } }
  | balancing => { s with balance := { default := v } }
  | level => { s with log := { s.log with level := v } }

theorem variablePath?_variableName (leaf : TextLeaf) :
    variablePath? leaf.variableName = some (leaf.names.map .entry) := by
  rcases leaf with - | p | - | -
  case place => cases p <;> decide +kernel
  all_goals decide +kernel

theorem names_ne_nil (leaf : TextLeaf) : leaf.names ≠ [] := by
  cases leaf <;> exact List.cons_ne_nil _ _

theorem lowercase_of_mem_names (leaf : TextLeaf) : ∀ n ∈ leaf.names, Text.lowercase n = n := by
  rcases leaf with - | p | - | -
  case place => cases p <;> decide
  all_goals decide

theorem isSectionField_application : IsSectionField Settings.ofSetting? "application"
    Application.ofSetting? (·.application) := fun hmissing hs =>
  (member?_eq_of_missing hmissing).symm.trans (Settings.ofSetting?_eq_some_iff.1 hs).application

theorem isSectionField_location : IsSectionField Application.ofSetting? "location"
    Location.ofSetting? (·.location) := fun hmissing ha =>
  (member?_eq_of_missing hmissing).symm.trans (Application.ofSetting?_eq_some_iff.1 ha).2

theorem isSectionField_balance : IsSectionField Settings.ofSetting? "load_balance"
    BalanceSettings.ofSetting? (·.balance) := fun hmissing hs =>
  (member?_eq_of_missing hmissing).symm.trans (Settings.ofSetting?_eq_some_iff.1 hs).balance

theorem isSectionField_log : IsSectionField Settings.ofSetting? "logging"
    LogSettings.ofSetting? (·.log) := fun hmissing hs =>
  (member?_eq_of_missing hmissing).symm.trans (Settings.ofSetting?_eq_some_iff.1 hs).log

theorem optional?_ofText (v : String) :
    optional? text? (ofText v) = some (some (rewritten v)) := by
  have htext := text?_ofText v
  cases hvalue : ofText v with
  | absent => exact nomatch hvalue ▸ htext
  | _ => rw [optional?, ← hvalue, htext, Option.map_some]; exact nofun

/-- A text that stands in place of a leaf is read there, written anew, and nothing else changes. -/
theorem read_of_replaces (leaf : TextLeaf) {v : String} {t t' : Setting}
    (h : Replaces (ofText v) leaf.names t t') :
    (∀ s, Settings.ofSetting? t = some s →
        Settings.ofSetting? t' = some (leaf.set (rewritten v) s)) ∧
      ∀ s, Settings.ofSetting? t' = some s → leaf.get s = some (rewritten v) := by
  have htext := text?_ofText v
  have hoptional := optional?_ofText v
  cases leaf with
  | name =>
    have hleaf := isField_application.isLeaf_cons isSectionField_application isField_name.isLeaf
    refine ⟨fun s hs => hleaf.set_eq h htext hs, fun s hs => ?_⟩
    exact (hleaf.get_eq h hs).symm.trans htext
  | place p =>
    have hleaf := isField_application.isLeaf_cons isSectionField_application
      (isField_location.isLeaf_cons isSectionField_location p.isField.isLeaf)
    refine ⟨fun s hs => hleaf.set_eq h hoptional hs, fun s hs => ?_⟩
    exact Option.some.inj ((hleaf.get_eq h hs).symm.trans hoptional)
  | balancing =>
    have hleaf := isField_balance.isLeaf_cons isSectionField_balance isField_balancing.isLeaf
    refine ⟨fun s hs => hleaf.set_eq h htext hs, fun s hs => ?_⟩
    exact (hleaf.get_eq h hs).symm.trans htext
  | level =>
    have hleaf := isField_log.isLeaf_cons isSectionField_log isField_level.isLeaf
    refine ⟨fun s hs => hleaf.set_eq h htext hs, fun s hs => ?_⟩
    exact (hleaf.get_eq h hs).symm.trans htext

/-- A variable for a leaf decides the leaf, and nothing else. What is read there is the text of the
variable, if it is plain. -/
theorem load?_variable (leaf : TextLeaf) (v : String) (format : FileFormat) (file : Option String)
    (hopen : (fileTree? format file).all (isOpen leaf.names))
    (before after : List (String × String))
    (hclear : ∀ x ∈ before ++ after, leadsElsewhere leaf.names x) :
    (∀ s, Settings.load? file (before ++ after) format = some s →
        Settings.load? file (before ++ (leaf.variableName, v) :: after) format =
          some (leaf.set (rewritten v) s)) ∧
      (∀ s, Settings.load? file (before ++ (leaf.variableName, v) :: after) format = some s →
        leaf.get s = some (rewritten v)) ∧
      (rewritten v = v ↔ IsPlain v) := by
  have hload (environment : List (String × String)) : Settings.load? file environment format =
      (fileTree? format file).bind fun t => Settings.ofSetting? (environment.foldl layVariable t) :=
    rfl
  cases hfile : fileTree? format file with
  | none =>
    have hnone (environment : List (String × String)) :
        Settings.load? file environment format = none := by
      rw [hload, hfile, Option.bind_none]
    rw [hnone, hnone]
    exact ⟨fun s hs => (nomatch hs), fun s hs => (nomatch hs), rewritten_eq_iff⟩
  | some t =>
    rw [hfile, Option.all_some] at hopen
    have hreplaces := replaces_foldl_layVariable v leaf.names_ne_nil leaf.variablePath?_variableName
      leaf.lowercase_of_mem_names hopen hclear
    obtain ⟨hset, hget⟩ := leaf.read_of_replaces hreplaces
    rw [hload, hload, hfile, Option.bind_some, Option.bind_some]
    exact ⟨hset, hget, rewritten_eq_iff⟩

end TextLeaf

/-- A file that tells the cell. -/
def cellFile : String := "\x7b\"application\":\x7b\"location\":\x7b\"cell\":\"e1\"\x7d\x7d\x7d"

/-- A unit with a plain code is read as it was written, whatever else is set. -/
theorem load?_unit_east :
    (fileTree? .json (some cellFile)).all (isOpen (TextLeaf.place .unit).names) ∧
      (∀ x ∈ [("GOVERNANCE_APPLICATION__NAME", "shop")] ++ [("PATH", "/bin")],
        leadsElsewhere (TextLeaf.place .unit).names x) ∧
      Settings.load? (some cellFile) ([("GOVERNANCE_APPLICATION__NAME", "shop")] ++
          ((TextLeaf.place .unit).variableName, "east") :: [("PATH", "/bin")]) =
        some { application :=
          { name := "shop", location := { unit := some "east", cell := some "e1" } } } := by
  have hopen : (fileTree? .json (some cellFile)).all (isOpen (TextLeaf.place .unit).names) := by
    decide +kernel
  have hclear : ∀ x ∈ [("GOVERNANCE_APPLICATION__NAME", "shop")] ++ [("PATH", "/bin")],
      leadsElsewhere (TextLeaf.place .unit).names x := by
    decide +kernel
  have hwithout : Settings.load? (some cellFile)
      ([("GOVERNANCE_APPLICATION__NAME", "shop")] ++ [("PATH", "/bin")]) =
        some { application := { name := "shop", location := { cell := some "e1" } } } := by
    decide +kernel
  have hplain : rewritten "east" = "east" := by decide +kernel
  refine ⟨hopen, hclear, ?_⟩
  rw [((TextLeaf.place .unit).load?_variable "east" .json (some cellFile) hopen _ _ hclear).1 _
    hwithout, hplain]
  rfl

/-- A unit whose code has needless zeros is not read as it was written. -/
theorem load?_unit_zeros :
    ∃ s, Settings.load? none [((TextLeaf.place .unit).variableName, "007")] = some s ∧
      (TextLeaf.place .unit).get s ≠ some "007" :=
  ⟨{ application := { location := { unit := some "7" } } }, by decide +kernel, by decide⟩

end TrafficControl
