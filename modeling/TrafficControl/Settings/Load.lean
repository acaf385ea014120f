import TrafficControl.Json.Reader
import TrafficControl.Settings.Basic
import TrafficControl.Settings.Source
import TrafficControl.Text.Match

/-!
# Loading settings

Settings come from a file, whose text is read in some `FileFormat`, and from environment variables,
which count more than the file (`Settings.load?`). The name of a variable begins with `governance_`,
in any case of letters; two underscores in it go one level down.
-/

namespace TrafficControl

/-! ## Reading sections -/

/-- Reads a part that can be turned off. -/
def Toggle.ofSetting? (s : Setting) : Option Toggle := do
  return { enabled := ← s.member? 0 "enabled" Setting.bool? true }

/-- Reads the settings of rate limits. -/
def LimitSettings.ofSetting? (s : Setting) : Option LimitSettings := do
  return {
    enabled := ← s.member? 0 "enabled" Setting.bool? true
    defaultWaitMillis := ← s.member? 1 "default_timeout_ms" Setting.word64? 0 }

/-- Reads the settings of load balancing. -/
def BalanceSettings.ofSetting? (s : Setting) : Option BalanceSettings := do
  return { default := ← s.member? 0 "default_type" Setting.text? "round_robin" }

/-- Reads the settings of the log. -/
def LogSettings.ofSetting? (s : Setting) : Option LogSettings := do
  return {
    level := ← s.member? 0 "level" Setting.text? "info"
    json := ← s.member? 1 "json" Setting.bool? false }

/-- Reads a location. -/
def Location.ofSetting? (s : Setting) : Option Location := do
  let place (n : Nat) (name : String) := s.member? n name (Setting.optional? Setting.text?) none
  return {
    region := ← place 0 "region"
    zone := ← place 1 "zone"
    unit := ← place 2 "unit"
    cell := ← place 3 "cell"
    liveSpace := ← place 4 "live_space_id"
    laneSpace := ← place 5 "lane_space_id"
    lane := ← place 6 "lane" }

/-- Reads an application. -/
def Application.ofSetting? (s : Setting) : Option Application := do
  return {
    name := ← s.member? 0 "name" Setting.text? ""
    location := ← s.member? 1 "location" Location.ofSetting? {} }

/-- Reads all settings. -/
def Settings.ofSetting? (s : Setting) : Option Settings := do
  return {
    application := ← s.member? 0 "application" Application.ofSetting? {}
    live := ← s.member? 1 "live" Toggle.ofSetting? {}
    lane := ← s.member? 2 "lane" Toggle.ofSetting? {}
    breakers := ← s.member? 3 "circuit_breaker" Toggle.ofSetting? {}
    limits := ← s.member? 4 "rate_limit" LimitSettings.ofSetting? {}
    balance := ← s.member? 5 "load_balance" BalanceSettings.ofSetting? {}
    log := ← s.member? 6 "logging" LogSettings.ofSetting? {} }

/-! ## Layers -/

/-- A format of settings files : the named values that a text holds, if it can be read. -/
structure FileFormat where
  entries? : String → Option (List (String × Setting))

/-- The greatest depth of a JSON file. -/
def maxFileDepth : Nat := 127

/-- The format of JSON files. The text has to be a record. -/
def FileFormat.json : FileFormat where
  entries? file := do
    match ← Setting.ofJson? maxFileDepth (← Json.read? file) with
    | .group es => return es
    | _ => none

/-- The tree of a file, where there is one. -/
def fileTree? (format : FileFormat) : Option String → Option Setting
  | some file => do
    let es ← format.entries? file
    return es.foldl (fun tree (name, value) =>
      tree.putAt (Setting.path (Text.lowercase name)) value) (.group [])
  | none => some (.group [])

/-- What the names of variables begin with. -/
def variableStart : String := "governance_"

/-- A name with points in place of every two underscores in a row. -/
def levels : List Char → List Char
  | '_' :: '_' :: cs => '.' :: levels cs
  | c :: cs => c :: levels cs
  | [] => []

/-- The path of a setting that the name of a variable stands for, if it is such a name. -/
def variablePath? (name : String) : Option (List Setting.Step) :=
  let name := Text.lowercase name
  if Text.beginsWith variableStart name then
    some (Setting.path (String.ofList (levels (name.toList.drop variableStart.length))))
  else none

/-- Lay the value of a variable over a tree, if the variable is a setting. -/
def layVariable (tree : Setting) : String × String → Setting
  | (name, text) =>
    match variablePath? name with
    | some path => tree.putAt path (.ofText text)
    | none => tree

/-- The settings of a file, where there is one, and of environment variables. -/
def Settings.load? (file : Option String) (environment : List (String × String))
    (format : FileFormat := .json) : Option Settings := do
  let tree ← fileTree? format file
  Settings.ofSetting? (environment.foldl layVariable tree)

end TrafficControl
