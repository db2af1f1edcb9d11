/-
  This file defines the ways in which an operation of the
  tracer can fail, and their texts. A broken invariant is not a
  way to fail but a defect of whoever drives the tracer.

  Key definitions include:
    * `Problem`
    * `Problem.text`
    * `brokenInvariant`
-/

namespace ExecTrace

/- A failure, by the part of the tracer that noticed it. -/
inductive Problem where
  | configuration (reason : String)
  | instrumentation (reason : String)
  | malformedLog (reason : String)
  | runtime (reason : String)
  | io (reason : String)
  | other (reason : String)
  deriving DecidableEq, Repr

/- The text of a failure. -/
def Problem.text : Problem → String
  | .configuration reason => "Configuration error: " ++ reason
  | .instrumentation reason => "Instrumentation error: " ++ reason
  | .malformedLog reason => "Malformed trace log: " ++ reason
  | .runtime reason => "Runtime error: " ++ reason
  | .io reason => "IO error: " ++ reason
  | .other reason => reason

/- The text with which a broken invariant is reported. -/
def brokenInvariant (what : String) : String :=
  "retrace internal invariant violated: " ++ what

end ExecTrace
