import ExecTrace.Machine.State

/-
  This file defines observers of runs. At every moment that is
  worth a look an observer sees what happened and the state of
  the run, and may stop the run and say why. The silent observer
  never does.

  Key definitions include:
    * `Moment`
    * `Observer`
    * `Observer.silent`
    * `watch`
-/

namespace ExecTrace

/-
  What an observer gets to see: the value of an expression, the
  old value of a target, a method that starts to report, a
  method about to report its end, a value that is captured, as
  one of the items of an array too, an action that was just
  recorded, or the end of a body that returned nothing.
-/
inductive Moment where
  | value (e : Expr) (v : Val)
  | loaded (target : Expr) (v : Val)
  | entered (method : Callee)
  | leaving (method : String)
  | captured (kind : Kind) (v : Val)
  | recorded
  | ended (m : MethodDef)

/- Why a run is stopped at a moment, if it is. -/
abbrev Observer := Moment → Machine → Option String

/- The observer that never stops a run. -/
def Observer.silent : Observer :=
  fun _ _ => none

/- Stop a run if its observer says so. -/
def watch
    (w : Observer)
    (x : Moment) : Run Unit := fun m =>
  match w x m with
  | none => (.ok (), m)
  | some why => (.error (.stopped why), m)

end ExecTrace
