import ExecTrace.Command.Help
import ExecTrace.Config.Environment
import ExecTrace.Session
import ExecTrace.Trace.Codec.Report
import ExecTrace.Trace.Validity

/-
  This file defines what the command line does. Files are read
  through a function that the caller provides, so that the same
  definitions work on a disk and on a list of files.

  Key definitions include:
    * `Command.Outcome`
    * `Command.Surroundings`
    * `Command.showForest`
    * `Command.checkForest`
    * `Command.tellStats`
    * `Command.run`
-/

namespace ExecTrace.Command

------------------------------------------------------------
-- Outcomes
------------------------------------------------------------

/- What a command leaves: a code, its output, and an error. -/
structure Outcome where
  code : Nat := 0
  output : String := ""
  error : Option String := none
  deriving DecidableEq, Repr

/- A command that is wrong. -/
def Outcome.usage : Outcome :=
  { code := 2 }

/- A command that does not work out. -/
def Outcome.failed (reason : String) : Outcome :=
  { code := 1, error := some ("Error: " ++ reason) }

/- Where a command runs: a file reader and an environment. -/
structure Surroundings (m : Type → Type) where
  read : String → m (Option ByteArray)
  environment : List (String × String)

/- The version of the command and of the library. -/
def versionNumber : String := "0.1.0"

/- The version of the command. -/
def versionLine : String := "retrace " ++ versionNumber

------------------------------------------------------------
-- Reports
------------------------------------------------------------

/- Lines, each with a line break. -/
def linesText (lines : List String) : String :=
  String.join (lines.map fun s => s ++ "\n")

/- Whether one method is called more often than another. -/
def moreCalls (a b : String × Nat) : Bool :=
  decide (b.2 < a.2) || a.2 == b.2 && decide (a.1 ≤ b.1)

/- A count under a name. -/
def countLine
    (width : Nat)
    (entry : String × Nat) : String :=
  "  " ++ padded width entry.1 ++ " " ++ toString entry.2

/- Statistics as text. -/
def statsLines (s : Stats) : List String :=
  ["events:    " ++ toString s.events,
    "max depth: " ++ toString s.maxDepth, "", "by type:"]
  ++ s.byType.map (countLine 24)
  ++ (if s.calls.isEmpty then []
      else
        ["", "calls:"]
        ++ (s.calls.mergeSort moreCalls).map (countLine 32))

/- Show a forest. -/
def showForest
    (depth? : Option Nat)
    (pattern? : Option Pattern)
    (f : Forest) : Outcome :=
  let shown := fun (e : Event) =>
    match pattern? with
    | some p => p.occursIn e.describe
    | none => true
  { output := f.render depth? shown ++ "\n" }

/- Check the forest in a file. -/
def checkForest
    (path : String)
    (f : Forest) : Outcome :=
  match f.validate with
  | [] =>
    { output :=
        path ++ ": " ++ toString f.size ++ " events, ok\n" }
  | vs => { code := 1, output := linesText (vs.map Violation.text) }

/- Tell the statistics of a forest. -/
def tellStats
    (json : Bool)
    (f : Forest) : Outcome :=
  { output :=
      if json then f.stats.toJson.pretty ++ "\n"
      else linesText (statsLines f.stats) }

------------------------------------------------------------
-- Running
------------------------------------------------------------

section Run

variable {m : Type → Type} [Monad m]

/- The configuration in the bytes of the file at a path. -/
def configOfBytes
    (path : String) :
    Option ByteArray → Except Problem Config
  | none => Config.ofFileAt path none
  | some bytes =>
    match String.fromUTF8? bytes with
    | some text => Config.ofFileAt path (some text)
    | none => .error Config.unreadable

/-
  The path of the log: the one given, or else the one of the
  configuration.
-/
def logPath
    (s : Surroundings m)
    (i : Invocation) : ExceptT String m String :=
  match i.log?, i.config? with
  | some path, _ => pure path
  | none, some file => do
    let bytes ← s.read file
    match configOfBytes file bytes with
    | .ok c => pure c.output.logFile
    | .error _ => throw ("failed to load config " ++ file)
  | none, none =>
    match Config.ofEnvironment s.environment with
    | .ok c => pure c.output.logFile
    | .error _ => throw "failed to load config"

/- The pattern of the events to show. -/
def filterPattern (i : Invocation) :
    ExceptT String m (Option Pattern) :=
  match i.filter? with
  | none => pure none
  | some text =>
    match Pattern.ofText? text with
    | some p => pure (some p)
    | none => throw ("invalid filter '" ++ text ++ "'")

/- The forest of the log in a file. -/
def loadForest
    (s : Surroundings m)
    (path : String) : ExceptT String m Forest := do
  let bytes ← s.read path
  match Log.ofFile bytes with
  | .error _ => throw ("failed to read " ++ path)
  | .ok r =>
    match r.log.forest? with
    | .ok f => pure f
    | .error _ =>
      throw ("failed to rebuild event tree from " ++ path)

/- Do what is asked for. -/
def perform
    (s : Surroundings m)
    (i : Invocation) : ExceptT String m Outcome :=
  match i.verb with
  | .version =>
    pure
      { output :=
          linesText
            [versionLine, "retrace-core " ++ versionNumber] }
  | .show => do
    let path ← logPath s i
    let pattern? ← filterPattern i
    let f ← loadForest s path
    pure (showForest i.depth? pattern? f)
  | .check => do
    let path ← logPath s i
    let f ← loadForest s path
    pure (checkForest path f)
  | .stats => do
    let path ← logPath s i
    let f ← loadForest s path
    pure (tellStats (i.behind.has .json) f)

/- Run the command with some arguments. -/
def run
    (s : Surroundings m)
    (args : List String) : m Outcome :=
  let setPath := s.environment.lookup Config.pathVariable
  match Invocation.ofArguments setPath args with
  | .error .usage => pure Outcome.usage
  | .error .version => pure { output := versionLine ++ "\n" }
  | .error (.help topic) =>
    pure { output := helpText (setPath.getD "") topic }
  | .ok i => do
    match ← (perform s i).run with
    | .ok outcome => pure outcome
    | .error reason => pure (Outcome.failed reason)

end Run

end ExecTrace.Command
