import ExecTrace.Instrument.Options
import ExecTrace.Text.Json.Reader
import ExecTrace.Text.Json.Record

/-
  This file defines the configuration of the tracer and its
  JSON form. Whatever a document leaves out has its default,
  and members that are no setting are skipped.

  Key definitions include:
    * `Config`
    * `Config.ofJson?`
    * `Config.toJson`
    * `Config.check`
    * `Config.ofDocument`
    * `Config.ofFileAt`
-/

namespace ExecTrace

open Json Instrument

------------------------------------------------------------
-- Settings
------------------------------------------------------------

/- Whether and where the log of a session is written. -/
structure OutputConfig where
  enabled : Bool := true
  logFile : String := "./retrace.jsonl"
  label : Option String := none
  deriving DecidableEq, Repr

/- How a recorder works. -/
structure RecorderConfig where
  echo : Bool := false
  deriving DecidableEq, Repr

/- The configuration of the tracer. -/
structure Config where
  output : OutputConfig := {}
  recorder : RecorderConfig := {}
  instrument : Options := {}
  deriving DecidableEq, Repr

------------------------------------------------------------
-- Reading
------------------------------------------------------------

/-
  Whether an array may have more items than there are settings.
  A single document has to fit, and sources of settings that
  are laid over each other need not.
-/
inductive Fit where
  | exact
  | loose
  deriving DecidableEq, Repr

/-
  The members of a group of settings. A group is an object, or
  an array with the values of its first settings.
-/
def settings?
    (fit : Fit)
    (names : List String) : Json → Option Members
  | .arr items =>
    if fit = .loose ∨ items.length ≤ names.length then
      some (names.zip items)
    else none
  | j => j.object? names

/- A setting that may be left out. -/
def setting?
    {α : Type}
    (members : Members)
    (name : String)
    (default : α)
    (decode : Json → Option α) : Option α :=
  match members.lookup name with
  | some j => decode j
  | none => some default

/- A text or null. -/
def asLabel? : Json → Option (Option String)
  | .null => some none
  | .str s => some (some s)
  | _ => none

/- Read the settings of the output. -/
def OutputConfig.ofJson?
    (fit : Fit)
    (j : Json) : Option OutputConfig := do
  let m ← settings? fit ["enabled", "log_file", "label"] j
  let d : OutputConfig := {}
  let enabled ← setting? m "enabled" d.enabled asBool?
  let logFile ← setting? m "log_file" d.logFile asString?
  let label ← setting? m "label" d.label asLabel?
  some ⟨enabled, logFile, label⟩

/- Read the settings of the recorder. -/
def RecorderConfig.ofJson?
    (fit : Fit)
    (j : Json) : Option RecorderConfig := do
  let m ← settings? fit ["echo"] j
  let d : RecorderConfig := {}
  let echo ← setting? m "echo" d.echo asBool?
  some ⟨echo⟩

/- Read the options of instrumentation. -/
def Instrument.Options.ofJson?
    (fit : Fit)
    (j : Json) : Option Options := do
  let m ← settings? fit
    ["record_reads", "record_operators", "exclude_classes"] j
  let d : Options := {}
  let reads ← setting? m "record_reads" d.recordReads asBool?
  let operators ← setting? m "record_operators"
    d.recordOperators asBool?
  let exclude ← setting? m "exclude_classes" d.excludeClasses
    (asList? asString?)
  some ⟨reads, operators, exclude⟩

namespace Config

/- Read a configuration. -/
def ofJson?
    (fit : Fit)
    (j : Json) : Option Config := do
  let m ← settings? fit ["output", "recorder", "rewrite"] j
  let output ←
    setting? m "output" {} (OutputConfig.ofJson? fit)
  let recorder ←
    setting? m "recorder" {} (RecorderConfig.ofJson? fit)
  let instrument ←
    setting? m "rewrite" {} (Options.ofJson? fit)
  some ⟨output, recorder, instrument⟩

------------------------------------------------------------
-- Writing
------------------------------------------------------------

/- The JSON form of a configuration. -/
def toJson (c : Config) : Json :=
  .obj
    [("output", .obj
        [("enabled", .bool c.output.enabled),
          ("log_file", .str c.output.logFile),
          ("label", Json.ofOption .str c.output.label)]),
      ("recorder", .obj [("echo", .bool c.recorder.echo)]),
      ("rewrite", .obj
        [("record_reads", .bool c.instrument.recordReads),
          ("record_operators",
            .bool c.instrument.recordOperators),
          ("exclude_classes",
            .arr (c.instrument.excludeClasses.map .str))])]

------------------------------------------------------------
-- Validity
------------------------------------------------------------

/-
  Check a configuration: a log that is written needs a path, and
  every exclusion has to be a pattern.
-/
def check (c : Config) : Except Problem Unit :=
  if c.output.enabled && c.output.logFile.isEmpty then
    .error (.configuration "output.log_file must not be empty")
  else
    match c.instrument.exclusions? with
    | .ok _ => .ok ()
    | .error p => .error p

/- A valid configuration. -/
def checked (c : Config) : Except Problem Config :=
  match c.check with
  | .ok _ => .ok c
  | .error p => .error p

------------------------------------------------------------
-- Files
------------------------------------------------------------

/- What is wrong with a source that cannot be understood. -/
def unreadable : Problem :=
  .configuration "Failed to load"

/- The nesting that the reader of a configuration allows. -/
def maxNesting : Nat := 127

/-
  The configuration in a document that is laid over the
  defaults, once it is valid. Of equal names the last counts.
-/
def ofGroups (j : Json) : Except Problem Config :=
  match j.lastMembers with
  | .obj members =>
    match ofJson? .loose (.obj members) with
    | some c => c.checked
    | none => .error unreadable
  | _ => .error unreadable

/- Whether a path names a JSON document: `.json` ends a name. -/
def isDocumentPath (path : String) : Bool :=
  match path.toList.reverse with
  | 'n' :: 'o' :: 's' :: 'j' :: '.' :: c :: _ => c != '/'
  | _ => false

/- Whether a line is blank or a comment. -/
def isIdleLine (line : List Char) : Bool :=
  match line.dropWhile (fun c => c == ' ' || c == '\t') with
  | [] | ['\r'] => true
  | c :: _ => c == '#'

/- The configuration in the text of a JSON document. -/
def ofDocument (text : String) : Except Problem Config :=
  match Json.ofText? maxNesting text with
  | some j => ofGroups j
  | none => .error unreadable

/-
  The configuration in the file at a path. A file that does not
  exist leaves the defaults, and so does one that is no JSON
  document but has only blank lines and comments; nothing else
  is understood.
-/
def ofFileAt
    (path : String) : Option String → Except Problem Config
  | none => Config.checked {}
  | some text =>
    if isDocumentPath path then ofDocument text
    else if (text.splitOn "\n").all (isIdleLine ·.toList) then
      Config.checked {}
    else .error unreadable

end Config

end ExecTrace
