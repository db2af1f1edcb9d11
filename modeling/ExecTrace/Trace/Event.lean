import ExecTrace.Text.Timestamp
import ExecTrace.Span
import ExecTrace.Trace.Action

/-
  This file defines the events of a trace. Every event has a
  number and the number of the event that opened the innermost
  frame around it. A trace starts with the moment at which
  recording began; every other event is an action somewhere in
  the source.

  Key definitions include:
    * `EventId`
    * `FrameKind`
    * `Occurrence`
    * `Event`
    * `Event.name`
    * `Event.family`
    * `Event.opens`
    * `Event.ends`
    * `Event.closes`
-/

namespace ExecTrace

------------------------------------------------------------
-- Numbers and frames
------------------------------------------------------------

/- The number of an event; the first event of a trace is 1. -/
structure EventId where
  number : UInt64
  deriving DecidableEq, Repr, Inhabited

namespace EventId

/- The number of the first event. -/
def first : EventId := ⟨1⟩

/- The written form `#n`. -/
def text (id : EventId) : String :=
  "#" ++ toString id.number

end EventId

/-
  The two kinds of frames: a call is the caller's side of a
  method call, an enter the callee's side.
-/
inductive FrameKind where
  | call
  | enter
  deriving DecidableEq, Repr, Inhabited

/- The written name of a frame. -/
def FrameKind.text : FrameKind → String
  | .call => "call"
  | .enter => "method enter"

/- Whether an event belongs to a statement of the source. -/
inductive Family where
  | statement
  | nonStatement
  deriving DecidableEq, Repr, Inhabited

------------------------------------------------------------
-- Properties of actions
------------------------------------------------------------

namespace Action

variable {κ α : Type}

/- The family of an action. -/
def family : Action κ α → Family
  | .statement _ => .statement
  | _ => .nonStatement

/- The frame that an action opens. -/
def opens : Action κ α → Option FrameKind
  | .call .. => some .call
  | .enter .. => some .enter
  | _ => none

/- The frame that an action closes. -/
def ends : Action κ α → Option FrameKind
  | .exit .. => some .enter
  | .resume .. => some .call
  | _ => none

/- How a closing action names its frame. -/
def closes : Action κ α → Option κ
  | .exit frame _ _ => some frame
  | .resume frame _ _ _ => some frame
  | _ => none

end Action

/- The name of the event for a statement. -/
def Statement.eventName {α : Type} : Statement α → String
  | .return .. => "return_stat"
  | .break .. => "break_stat"
  | .continue .. => "continue_stat"
  | .yield .. => "yield_stat"
  | .switch .. => "switch_stat"
  | .declare .. => "var_decl"
  | .throw .. => "throw_stat"
  | .caught .. => "caught"
  | .assertion .. => "assertion_stat"
  | .exec => "exec"
  | .ifCondition .. => "if_cond"
  | .loopCondition .. => "loop_cond"

/- The name of the event for an operation. -/
def Operation.eventName {α : Type} : Operation α → String
  | .switch .. => "switch_expr"
  | .loopEnter .. => "loop_enter"
  | .loopExit .. => "loop_exit"
  | .nextElement .. => "for_each_next_iter"
  | .ternaryCondition .. => "ternary_cond"
  | .assign .. => "assign"
  | .compoundAssign .. => "compound_assign"
  | .incDec .. => "inc_dec"
  | .read .. => "read"
  | .unary .. => "unary_op"

/- The name of the event for an action. -/
def Action.eventName {κ α : Type} : Action κ α → String
  | .statement s => s.eventName
  | .operation o => o.eventName
  | .castAttempt .. => "cast_attempt"
  | .binary .. => "binary_op"
  | .typeTest .. => "type_test"
  | .call _ none _ => "static_method_call"
  | .call _ (some _) _ => "instance_method_call"
  | .enter .. => "method_enter"
  | .exit _ _ (.explicit _) => "method_exit"
  | .exit _ _ .endOfBody => "implicit_return"
  | .exit _ _ (.exceptional _) => "exceptional_exit"
  | .resume _ _ _ (.returned _) => "method_return_value"
  | .resume _ _ _ .void => "method_return_void"
  | .resume _ _ _ (.aborted _) => "call_aborted"

------------------------------------------------------------
-- Events
------------------------------------------------------------

/- What an event reports. -/
inductive Occurrence where
  | initialization (time : Timestamp)
  | action (action : Action EventId Snapshot) (span : Span)
  deriving DecidableEq, Repr

/- An event of a trace. -/
structure Event where
  id : EventId
  parent : Option EventId
  what : Occurrence
  deriving DecidableEq, Repr

namespace Event

/- The action that an event reports, if it reports one. -/
def action? (e : Event) : Option (Action EventId Snapshot) :=
  match e.what with
  | .initialization _ => none
  | .action a _ => some a

/- The position of an event in the source. -/
def span? (e : Event) : Option Span :=
  match e.what with
  | .initialization _ => none
  | .action _ s => some s

/- Whether an event lies in no frame. -/
def isRoot (e : Event) : Bool :=
  e.parent.isNone

/- The name of the kind of an event. -/
def name (e : Event) : String :=
  match e.what with
  | .initialization _ => "initialization"
  | .action a _ => a.eventName

/- The family of an event. -/
def family (e : Event) : Family :=
  match e.what with
  | .initialization _ => .nonStatement
  | .action a _ => a.family

/- The frame that an event opens. -/
def opens (e : Event) : Option FrameKind :=
  e.action?.bind Action.opens

/- The frame that an event closes. -/
def ends (e : Event) : Option FrameKind :=
  e.action?.bind Action.ends

/- The event that opened the frame that an event closes. -/
def closes (e : Event) : Option EventId :=
  e.action?.bind Action.closes

end Event

end ExecTrace
