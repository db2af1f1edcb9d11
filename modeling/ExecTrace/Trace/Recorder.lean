import ExecTrace.Problem
import ExecTrace.Trace.Describe
import ExecTrace.Trace.Forest

/-
  This file defines the recorder: it numbers actions, nests
  them in the frames that are open, and appends them to a
  forest. While the values of an action are captured the
  recorder is suspended, and an action that arrives then is not
  recorded.

  Key definitions include:
    * `OpenFrame`
    * `Recorder`
    * `Recorder.create`
    * `Recorder.emit`
    * `Recorder.emit?`
    * `Misuse`
    * `Recorder.commit`
    * `Recorder.suspend?`
    * `Slot`
    * `record`
-/

namespace ExecTrace

------------------------------------------------------------
-- Recorders
------------------------------------------------------------

/- A frame that is not closed yet, and where its event stands. -/
structure OpenFrame where
  owner : EventId
  kind : FrameKind
  position : Nat
  deriving DecidableEq, Repr

/-
  A recorder. The innermost open frame comes first. With `echo`
  every event is also kept as a line of text.
-/
structure Recorder where
  nextId : EventId := .first
  forest : Forest := .empty
  frames : List OpenFrame := []
  suspended : Bool := false
  echo : Bool := false
  echoed : Array String := #[]
  deriving Repr

namespace Recorder

/- The number of open frames. -/
def depth (r : Recorder) : Nat :=
  r.frames.length

/- The number of events recorded so far. -/
def eventCount (r : Recorder) : Nat :=
  r.nextId.number.toNat - EventId.first.number.toNat

/- The echoed line of an event inside `depth` frames. -/
def echoLine
    (depth : Nat)
    (e : Event) : String :=
  let parent :=
    match e.parent with
    | some p => "Some(" ++ toString p.number ++ ")"
    | none => "None"
  String.ofList (List.replicate (2 * depth) ' ') ++ e.describe
    ++ " [id=" ++ toString e.id.number ++ " parent=" ++ parent
    ++ " depth=" ++ toString depth ++ "]"

/- The event that would be recorded next. -/
def nextEvent
    (r : Recorder)
    (what : Occurrence) : Event :=
  { id := r.nextId
    parent := r.frames.head?.map OpenFrame.owner
    what := what }

/- Append an event to the innermost open frame. -/
def emit
    (r : Recorder)
    (what : Occurrence) : Recorder :=
  let e := r.nextEvent what
  { r with
    nextId := ⟨r.nextId.number + 1⟩
    forest :=
      r.forest.push (r.frames.head?.map OpenFrame.position) e
    echoed :=
      if r.echo then r.echoed.push (echoLine r.depth e)
      else r.echoed }

/- A recorder whose first event tells when it was created. -/
def create
    (echo : Bool)
    (time : Timestamp) : Recorder :=
  emit { echo := echo } (.initialization time)

------------------------------------------------------------
-- Recording a captured action
------------------------------------------------------------

/-
  An action that closes a frame which is not the innermost, or
  one action more than there are numbers.
-/
inductive Misuse where
  | wrongFrame (expected : FrameKind) (innermost : OpenFrame)
  | noFrame (expected : FrameKind)
  | exhausted
  deriving DecidableEq, Repr

/- What is wrong with an action. -/
def Misuse.text : Misuse → String
  | .wrongFrame expected innermost =>
    "cannot close a " ++ expected.text
      ++ " frame: innermost open frame is the "
      ++ innermost.kind.text ++ " frame of "
      ++ innermost.owner.text
  | .noFrame expected =>
    "frame stack underflow: no open " ++ expected.text
      ++ " frame to close"
  | .exhausted => "event id space exhausted"

/- Name the frame that a closing action closes. -/
def nameFrame
    {α : Type}
    (owner : EventId) : Action Unit α → Action EventId α
  | .statement s => .statement s
  | .operation o => .operation o
  | .castAttempt value type succeeds =>
    .castAttempt value type succeeds
  | .binary operator lhs rhs result =>
    .binary operator lhs rhs result
  | .typeTest tested type result => .typeTest tested type result
  | .call callee receiver args => .call callee receiver args
  | .enter method enclosing => .enter method enclosing
  | .exit _ method how => .exit owner method how
  | .resume _ cls method how => .resume owner cls method how

/- The frame that an action of a kind may close. -/
def closable
    (r : Recorder)
    (expected : FrameKind) : Except Misuse OpenFrame :=
  match r.frames with
  | [] => .error (.noFrame expected)
  | frame :: _ =>
    if frame.kind = expected then .ok frame
    else .error (.wrongFrame expected frame)

/- Append an event, if there is a number for the next one. -/
def emit?
    (r : Recorder)
    (what : Occurrence) : Except Misuse Recorder :=
  if r.nextId.number = 0xFFFFFFFFFFFFFFFF then .error .exhausted
  else .ok (r.emit what)

/-
  Record an action whose values are captured. An opening action
  opens its frame after its event, a closing action closes the
  innermost frame after its event.
-/
def commit
    (r : Recorder)
    (a : Action Unit Snapshot)
    (span : Span) : Except Misuse Recorder :=
  match a.ends with
  | some expected =>
    match r.closable expected with
    | .error m => .error m
    | .ok frame =>
      match r.emit? (.action (nameFrame frame.owner a) span) with
      | .error m => .error m
      | .ok r => .ok { r with frames := r.frames.tail }
  | none =>
    let position := r.forest.size
    let owner := r.nextId
    match r.emit? (.action (nameFrame owner a) span) with
    | .error m => .error m
    | .ok r =>
      match a.opens with
      | some kind =>
        .ok
          { r with
            frames := ⟨owner, kind, position⟩ :: r.frames }
      | none => .ok r

------------------------------------------------------------
-- Suspension
------------------------------------------------------------

/- Suspend a recorder, unless it is suspended already. -/
def suspend? (r : Recorder) : Option Recorder :=
  if r.suspended then none else some { r with suspended := true }

/- End a suspension. -/
def release (r : Recorder) : Recorder :=
  { r with suspended := false }

/- The warning about a forest with open frames. -/
def flushWarning? (r : Recorder) : Option String :=
  if r.depth = 0 then none
  else
    some ("flushing trace with unterminated frames [open="
      ++ toString r.depth ++ "]")

end Recorder

------------------------------------------------------------
-- Recording a live action
------------------------------------------------------------

/- A part of a state where a recorder may be attached. -/
structure Slot (σ : Type) where
  get : σ → Option Recorder
  set : Recorder → σ → σ

section Record

variable {σ ε α : Type}

/- Change the attached recorder, if there is one. -/
def Slot.update
    (slot : Slot σ)
    (f : Recorder → Recorder)
    (s : σ) : σ :=
  match slot.get s with
  | some r => slot.set (f r) s
  | none => s

/-
  Record an action: suspend the recorder, capture the values in
  order, append the event, and release the recorder whatever
  happened. Without a recorder, or while it is suspended,
  nothing is captured. The result is the number of the event.
-/
def record
    (slot : Slot σ)
    (misuse : Recorder.Misuse → ε)
    (capture : α → ExceptT ε (StateM σ) Snapshot)
    (a : Action Unit α)
    (span : Span) : ExceptT ε (StateM σ) (Option EventId) :=
  fun s =>
    match (slot.get s).bind Recorder.suspend? with
    | none => (.ok none, s)
    | some suspended =>
      match (a.mapM capture).run (slot.set suspended s) with
      | (.error e, s) => (.error e, slot.update .release s)
      | (.ok a, s) =>
        match slot.get s with
        | none => (.ok none, s)
        | some r =>
          match r.commit a span with
          | .error m =>
            (.error (misuse m), slot.update .release s)
          | .ok r' =>
            (.ok (some r.nextId), slot.set r'.release s)

end Record

end ExecTrace
