import ExecTrace.Config
import ExecTrace.Trace.Log
import ExecTrace.Trace.Recorder

/-
  This file defines sessions: one recorder from the start of a
  program to the log of what it did. If output is enabled, the
  log is to be written to the configured file; the log exists
  whether that works or not.

  Key definitions include:
    * `Session`
    * `Session.start`
    * `Session.finish`
    * `Session.destination?`
    * `Log.ofFile`
-/

namespace ExecTrace

/- A recorder and the configuration it was started with. -/
structure Session where
  recorder : Recorder
  config : Config
  deriving Repr

namespace Session

/- Start recording; the first event says when. -/
def start
    (config : Config)
    (now : Timestamp) : Session :=
  ⟨Recorder.create config.recorder.echo now, config⟩

/- The log of a session. -/
def finish
    (s : Session)
    (runId : Uuid)
    (now : Timestamp) : Log :=
  Log.ofForest s.recorder.forest
    { runId := runId
      createdAt := now
      label := s.config.output.label }

/- The path that the log is written to, if it is written. -/
def destination? (s : Session) : Option String :=
  if s.config.output.enabled then some s.config.output.logFile
  else none

end Session

/- What is wrong with a path that leads nowhere. -/
def missingFile : Problem :=
  .io "No such file or directory (os error 2)"

/- Read the log in a file, which may be missing. -/
def Log.ofFile : Option ByteArray → Except Problem Log.Reading
  | none => .error missingFile
  | some bytes => Log.ofBytes? bytes

end ExecTrace
