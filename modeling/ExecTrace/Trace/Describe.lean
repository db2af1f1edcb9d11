import ExecTrace.Trace.Event

/-
  This file describes events in one sentence each.

  Key definitions include:
    * `JumpTarget.text`
    * `OuterFrame.text`
    * `Place.text`
    * `Action.describe`
    * `Event.describe`
-/

namespace ExecTrace

------------------------------------------------------------
-- Parts
------------------------------------------------------------

/- A construct with its label and where it starts. -/
def JumpTarget.text (t : JumpTarget) : String :=
  let label :=
    match t.label with
    | some l => " '" ++ l ++ "'"
    | none => ""
  t.construct ++ label ++ " at " ++ toString t.line ++ ":"
    ++ toString t.col

/- A frame with its file and line, as far as they are known. -/
def OuterFrame.text (f : OuterFrame) : String :=
  let position :=
    match f.file, f.line with
    | some file, some line =>
      " (" ++ file ++ ":" ++ toString line ++ ")"
    | some file, none => " (" ++ file ++ ")"
    | none, _ => ""
  f.cls ++ "." ++ f.method ++ position

/- A class, a method and its signature. -/
def Callee.text (c : Callee) : String :=
  c.cls ++ "." ++ c.method ++ c.signature

/- A storage location. -/
def Place.text : Place Snapshot → String
  | .localVar name => "local " ++ name
  | .staticField cls field => "static field " ++ cls ++ "." ++ field
  | .instanceField cls object field =>
    "field " ++ cls ++ "." ++ field ++ " of " ++ object.text
  | .element array index => array.text ++ "[" ++ index.text ++ "]"

------------------------------------------------------------
-- Actions
------------------------------------------------------------

/- The sentence for a statement. -/
def Statement.describe
    (span : Span) : Statement Snapshot → String
  | .return method => "return from " ++ method
  | .break target => "break out of " ++ target.text
  | .continue target => "continue " ++ target.text
  | .yield value target =>
    "yield " ++ value.text ++ " from " ++ target.text
  | .switch selector => "switch on " ++ selector.text
  | .declare name type =>
    "declaration of local " ++ name ++ ": " ++ type
  | .throw exception => "throw " ++ exception.detailed
  | .caught exception => "caught " ++ exception.detailed
  | .assertion outcome text =>
    if outcome.asBool = some false then
      "assertion " ++ text ++ " fails"
    else
      "assertion " ++ text ++ " holds"
  | .exec => "execute statement at " ++ span.text
  | .ifCondition outcome =>
    "condition of if evaluates to " ++ outcome.text
  | .loopCondition outcome loop =>
    "condition of " ++ loop.text ++ " loop evaluates to "
      ++ outcome.text

/- The sentence for an operation. -/
def Operation.describe : Operation Snapshot → String
  | .switch selector => "switch expression on " ++ selector.text
  | .loopEnter loop => "enter " ++ loop.text ++ " loop"
  | .loopExit loop => "exit " ++ loop.text ++ " loop"
  | .nextElement element =>
    "next iteration with element " ++ element.text
  | .ternaryCondition outcome =>
    "condition of ternary evaluates to " ++ outcome.text
  | .assign place value => place.text ++ " = " ++ value.text
  | .compoundAssign place operator old rhs new =>
    place.text ++ " " ++ operator ++ " " ++ rhs.text ++ ": "
      ++ old.text ++ " -> " ++ new.text
  | .incDec place operator old new result =>
    operator ++ " on " ++ place.text ++ ": " ++ old.text
      ++ " -> " ++ new.text ++ ", yields " ++ result.text
  | .read place value =>
    "read " ++ place.text ++ ": " ++ value.text
  | .unary operator operand result =>
    operator ++ operand.text ++ " = " ++ result.text

/- The sentence for the end of an activation. -/
def Exit.describe
    (method : String) : Exit Snapshot → String
  | .explicit (some value) =>
    "method " ++ method ++ " exits returning " ++ value.text
  | .explicit none => "method " ++ method ++ " exits"
  | .endOfBody => "method " ++ method ++ " exits at end of body"
  | .exceptional exception =>
    "method " ++ method ++ " exits with " ++ exception.detailed

/- The sentence for the end of a call. -/
def Resumption.describe
    (cls method : String) : Resumption Snapshot → String
  | .returned value =>
    cls ++ "." ++ method ++ " returned " ++ value.text
  | .void => cls ++ "." ++ method ++ " returned"
  | .aborted exception =>
    cls ++ "." ++ method ++ " aborted by " ++ exception.detailed

/- The sentence for an action at a position. -/
def Action.describe
    (span : Span) : Action EventId Snapshot → String
  | .statement s => s.describe span
  | .operation o => o.describe
  | .castAttempt value type succeeds =>
    "cast of " ++ value.text ++ " to type " ++ type
      ++ (if succeeds then " succeeds"
        else " fails with ClassCastException")
  | .binary operator lhs rhs result =>
    let right :=
      match rhs with
      | some r => r.text
      | none => "(not evaluated)"
    lhs.text ++ " " ++ operator ++ " " ++ right ++ " = "
      ++ result.text
  | .typeTest tested type result =>
    tested.text ++ " instanceof " ++ type ++ " is "
      ++ Scalar.boolText result
  | .call callee none args =>
    "invocation of static method " ++ callee.text
      ++ " with arguments [" ++ Snapshot.texts args ++ "]"
  | .call callee (some receiver) args =>
    "invocation of method " ++ callee.text ++ " on "
      ++ receiver.detailed ++ " with arguments ["
      ++ Snapshot.texts args ++ "]"
  | .enter method [] => "enter method " ++ method.text
  | .enter method enclosing =>
    "enter method " ++ method.text ++ " via non-instrumented "
      ++ String.intercalate " -> " (enclosing.map OuterFrame.text)
  | .exit _ method how => how.describe method
  | .resume _ cls method how => how.describe cls method

/- The sentence for an event. -/
def Event.describe (e : Event) : String :=
  match e.what with
  | .initialization time =>
    "trace initialized at " ++ time.offsetText
  | .action a span => a.describe span

end ExecTrace
