import ExecTrace.Command.Run

/-
  This file is the command itself: it looks at the variables
  and the files that the library asks for, and prints what the
  library answers.
-/

namespace ExecTrace.Command

/- Read a file, unless that fails. -/
def readFile? (path : String) : IO (Option ByteArray) := do
  try
    let bytes ← IO.FS.readBinFile path
    return some bytes
  catch _ =>
    return none

/- The variables that matter and are set. -/
def setVariables : IO (List (String × String)) :=
  Config.watched.filterMapM fun name => do
    let value ← IO.getEnv name
    return value.map fun v => (name, v)

end ExecTrace.Command

open ExecTrace Command in
/- The command. -/
def main (args : List String) : IO UInt32 := do
  let environment ← setVariables
  let surroundings : Surroundings IO :=
    { read := readFile?, environment := environment }
  let outcome ← run surroundings args
  IO.print outcome.output
  match outcome.error with
  | some reason => IO.eprintln reason
  | none => pure ()
  return UInt32.ofNat outcome.code
