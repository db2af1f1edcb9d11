import ExecTrace.Config
import ExecTrace.Text.Setting

/-
  This file reads a configuration from environment variables.
  A variable whose name starts with `RETRACE_` is a setting, and
  two underscores or a point lead from a group to one of its
  settings. Names are read in either case.

  Key definitions include:
    * `Config.placeOfVariable?`
    * `Config.settingOfVariable?`
    * `Config.ofEnvironment`
    * `Config.watched`
-/

namespace ExecTrace.Config

open Json

/- What the names of all settings start with. -/
def variablePrefix : String := "RETRACE_"

/- The variable with the path of a configuration file. -/
def pathVariable : String := variablePrefix ++ "CONFIG"

/- A value as the only setting at a place in nested groups. -/
def nested
    (value : Json) : List String → Json
  | [] => value
  | name :: path => .obj [(name, nested value path)]

/-
  The place of the setting that a variable holds. A variable
  with an empty part in its name holds none, and neither does
  the one with the path of the configuration.
-/
def placeOfVariable? (name : String) : Option (List String) :=
  let start := variablePrefix.toLower.toList
  let cs := name.toLower.toList
  if start.isPrefixOf cs then
    let key := String.ofList (cs.drop start.length)
    let path := (key.splitOn "__").flatMap (·.splitOn ".")
    if path = ["config"] ∨ path.contains "" then none
    else some path
  else none

/- The setting in a variable, as a document. -/
def settingOfVariable?
    (name text : String) : Option Json :=
  (placeOfVariable? name).map fun path =>
    nested (Setting.ofText text).lastMembers path

/-
  All settings among some variables, as one document. The
  variables are laid over each other in the order of their
  names.
-/
def groupsOfVariables
    (environment : List (String × String)) : Json :=
  let ordered := environment.mergeSort fun a b =>
    decide (a.1 ≤ b.1)
  (ordered.filterMap fun (name, text) =>
      settingOfVariable? name text).foldl Json.lay (.obj [])

/- The configuration in some environment variables. -/
def ofEnvironment
    (environment : List (String × String)) :
    Except Problem Config :=
  ofGroups (groupsOfVariables environment)

/- The names of the variables that matter. -/
def watched : List String :=
  [pathVariable, variablePrefix ++ "OUTPUT",
    variablePrefix ++ "OUTPUT__ENABLED",
    variablePrefix ++ "OUTPUT__LOG_FILE",
    variablePrefix ++ "OUTPUT__LABEL",
    variablePrefix ++ "RECORDER",
    variablePrefix ++ "RECORDER__ECHO",
    variablePrefix ++ "REWRITE",
    variablePrefix ++ "REWRITE__RECORD_READS",
    variablePrefix ++ "REWRITE__RECORD_OPERATORS",
    variablePrefix ++ "REWRITE__EXCLUDE_CLASSES"]

end ExecTrace.Config
