import ExecTrace.Command.Arguments

/-
  This file defines the help texts of the command line.

  Key definitions include:
    * `Command.helpText`
-/

namespace ExecTrace.Command

/- What an option does. -/
def Flag.about : Flag → String
  | .verbose => "Enable debug logging"
  | .config =>
    "Configuration file (TOML, YAML or JSON); supplies the "
      ++ "default log path [env: RETRACE_CONFIG="
  | .depth => "Elide events nested deeper than this"
  | .filter =>
    "Only show events whose description matches; events nested "
      ++ "in hidden ones are still shown"
  | .json => "Print as JSON"
  | .help => "Print help"
  | .version => "Print version"

/- How an option is written. -/
def Flag.written (f : Flag) : String :=
  let letter :=
    match f.short? with
    | some c => "-" ++ String.ofList [c] ++ ", "
    | none => "    "
  let value :=
    if f.takesValue then " <" ++ f.long.toUpper ++ ">" else ""
  letter ++ "--" ++ f.long ++ value

/- What a verb does. -/
def Verb.about : Verb → String
  | .show => "Render the event tree"
  | .check =>
    "Validate ordering, parent links and bracket symmetry"
  | .stats => "Event counts, depth and call counts"
  | .version => "Version information"

/- A text filled up with blanks. -/
def padded
    (width : Nat)
    (s : String) : String :=
  s ++ String.ofList (List.replicate (width - s.length) ' ')

/- Two columns, the first as wide as its widest text. -/
def columns (rows : List (String × String)) : List String :=
  let width := (rows.map fun r => r.1.length).foldl max 0
  rows.map fun (left, right) =>
    "  " ++ padded width left ++ "  " ++ right

/-
  The rows for some options. The value of the variable with the
  path of the configuration is shown.
-/
def optionRows
    (configPath : String)
    (flags : List Flag) : List (String × String) :=
  flags.map fun f =>
    (f.written,
      if f = .config then f.about ++ configPath ++ "]"
      else f.about)

/- The options of a verb, in the order of its help text. -/
def Verb.listed : Verb → List Flag
  | .show => [.verbose, .config, .depth, .filter, .help]
  | .stats => [.verbose, .config, .json, .help]
  | v => v.flags

/- The help text of a verb. -/
def verbHelp
    (configPath : String)
    (v : Verb) : List String :=
  let log := if v.takesLog then " [LOG]" else ""
  [v.about, "",
    "Usage: retrace " ++ v.word ++ " [OPTIONS]" ++ log, ""]
  ++ (if v.takesLog then
      ["Arguments:",
        "  [LOG]  Trace log (defaults to the configured output "
          ++ "file)",
        ""]
    else [])
  ++ ["Options:"] ++ columns (optionRows configPath v.listed)

/- What the request for help does. -/
def helpAbout : String :=
  "Print this message or the help of the given subcommand(s)"

/- The help text of the request for help. -/
def helpHelp : List String :=
  [helpAbout, "", "Usage: retrace help [COMMAND]...", "",
    "Arguments:",
    "  [COMMAND]...  Print help for the subcommand(s)"]

/- The help text of the whole command. -/
def generalHelp (configPath : String) : List String :=
  let verbs := Verb.all.map fun v => (v.word, v.about)
  let help := ("help", helpAbout)
  ["Inspect retrace execution logs", "",
    "Usage: retrace [OPTIONS] <COMMAND>", "", "Commands:"]
  ++ columns (verbs ++ [help]) ++ ["", "Options:"]
  ++ columns (optionRows configPath commonFlags)

/- The lines of the help text for a topic. -/
def helpLines
    (configPath : String) : Topic → List String
  | .everything => generalHelp configPath
  | .verb v => verbHelp configPath v
  | .help => helpHelp

/- The help text for a topic. -/
def helpText
    (configPath : String)
    (topic : Topic) : String :=
  String.join
    ((helpLines configPath topic).map fun s => s ++ "\n")

end ExecTrace.Command
