import ExecTrace.Trace.Forest

/-
  This file defines the structural properties that a trace can
  break, and lists the broken ones of a forest: first those of
  the order of numbers, then those of single events, both depth
  first.

  Key definitions include:
    * `Violation`
    * `Violation.text`
    * `Forest.validate`
-/

namespace ExecTrace

------------------------------------------------------------
-- Violations
------------------------------------------------------------

/- A broken structural property of a trace. -/
inductive Violation where
  | notIncreasing (previous id : EventId)
  | wrongParent (id : EventId) (claimed : Option EventId)
  | unclosed (owner : EventId) (frame : FrameKind)
  | strayClose (id : EventId)
  | closedTwice (owner : EventId)
  deriving DecidableEq, Repr

/- The sentence for a violation. -/
def Violation.text : Violation → String
  | .notIncreasing previous id =>
    "event " ++ id.text ++ " follows " ++ previous.text
      ++ " but is not greater"
  | .wrongParent id (some parent) =>
    "event " ++ id.text ++ " claims parent " ++ parent.text
      ++ " but is not nested in it"
  | .wrongParent id none =>
    "event " ++ id.text ++ " claims to be a root but is nested"
  | .unclosed owner frame =>
    frame.text ++ " frame opened by " ++ owner.text
      ++ " is never closed"
  | .strayClose id =>
    "closing event " ++ id.text
      ++ " does not match its enclosing frame"
  | .closedTwice owner =>
    "frame opened by " ++ owner.text
      ++ " is closed more than once"

namespace Forest

------------------------------------------------------------
-- Order of numbers
------------------------------------------------------------

/- Neighbours whose numbers do not increase. -/
def orderViolations : List Event → List Violation
  | a :: b :: rest =>
    let later := orderViolations (b :: rest)
    if b.id.number ≤ a.id.number then
      .notIncreasing a.id b.id :: later
    else later
  | _ => []

------------------------------------------------------------
-- Single events
------------------------------------------------------------

/- Whether an event names the event that it is nested in. -/
def parentViolations
    (e : Event)
    (parent : Option Event) : List Violation :=
  if e.parent = parent.map Event.id then []
  else [.wrongParent e.id e.parent]

/- Whether a closing event closes the frame that it lies in. -/
def closeViolations
    (e : Event)
    (parent : Option Event) : List Violation :=
  match e.ends with
  | none => []
  | some frame =>
    let fits :=
      match parent with
      | none => false
      | some p =>
        decide (p.opens = some frame)
          && decide (e.closes = some p.id)
    if fits then [] else [.strayClose e.id]

/- Whether a frame is closed, by its last event and only once. -/
def frameViolations
    (f : Forest)
    (i : Nat)
    (e : Event) : List Violation :=
  match e.opens with
  | none => []
  | some frame =>
    let closers :=
      (f.childrenAt i).countP fun c =>
        match f.nodes[c]? with
        | some child => decide (child.closes = some e.id)
        | none => false
    if 1 < closers then [.closedTwice e.id]
    else if (f.closing i e).isNone then [.unclosed e.id frame]
    else []

/- The broken properties of one event. -/
def violationsAt
    (f : Forest)
    (i : Nat)
    (e : Event)
    (parent : Option Event) : List Violation :=
  parentViolations e parent ++ closeViolations e parent
    ++ f.frameViolations i e

/- The broken properties of a forest. -/
def validate (f : Forest) : List Violation :=
  orderViolations f.eventsInOrder
    ++ f.walk
      (fun out i e parent =>
        (out ++ f.violationsAt i e parent, some (some e)))
      none []

end Forest

end ExecTrace
