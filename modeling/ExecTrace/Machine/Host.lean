import ExecTrace.Machine.Eval
import ExecTrace.Problem

/-
  This file defines what a host can ask of a machine: to call a
  static method, to give the text of a value, and to look at a
  static field. A machine stays usable whatever a call did.

  Key definitions include:
    * `Completion`
    * `Broken`
    * `Machine.request`
    * `Machine.call`
    * `Machine.render`
    * `Machine.staticValue?`
-/

namespace ExecTrace

------------------------------------------------------------
-- Ends of a request
------------------------------------------------------------

/- How a call from the host ends. -/
inductive Completion where
  | returned (value : Val)
  | threw (exception : Val)
  deriving DecidableEq, Repr

/- The value that a call ends with. -/
def Completion.value : Completion → Val
  | .returned v => v
  | .threw v => v

/-
  Why a request of the host has no result: the program cannot be
  executed, the tracer is defective, or the fuel ran out.
-/
inductive Broken where
  | problem (problem : Problem)
  | panic (message : String)
  | outOfFuel
  deriving DecidableEq, Repr

namespace Machine

/- The class of the frame that every call runs in. -/
def hostFrame : String := "<host>"

/- The run of a static method that the host calls. -/
def request
    (w : Observer)
    (p : Program)
    (fuel : Nat)
    (cls method : String)
    (args : List Val) : Run Val :=
  inFrame ⟨hostFrame, "call", false⟩
    (Call.onClass p (invoke w p fuel) cls method args)

/- What the host is told about something cut short. -/
def broken : Interrupt → Broken
  | .throw _ => .panic "not handled"
  | .fault cause => .problem (.runtime cause.text)
  | .panic message => .panic message
  | .outOfFuel => .outOfFuel
  | .stopped why => .panic why

/- Call a static method. -/
def call
    (p : Program)
    (fuel : Nat)
    (cls method : String)
    (args : List Val)
    (m : Machine) : Except Broken Completion × Machine :=
  match request .silent p fuel cls method args m with
  | (.ok v, m) => (.ok (.returned v), m)
  | (.error (.throw e), m) => (.ok (.threw e), m)
  | (.error cut, m) => (.error (broken cut), m)

/- The text of a value, as the program would convert it. -/
def render
    (p : Program)
    (fuel : Nat)
    (v : Val)
    (m : Machine) : Except Broken String × Machine :=
  match Call.textOf p (invoke .silent p fuel) "render" v m with
  | (.ok s, m) => (.ok s, m)
  | (.error (.throw e), m) =>
    (.error (.problem (.runtime
      ("toString threw " ++ m.heap.className e))), m)
  | (.error cut, m) => (.error (broken cut), m)

/- The value of a static field, if there is such a field. -/
def staticValue?
    (p : Program)
    (cls field : String)
    (m : Machine) : Option Val :=
  match Run.getStatic p cls field m with
  | (.ok v, _) => some v
  | (.error _, _) => none

end Machine

end ExecTrace
