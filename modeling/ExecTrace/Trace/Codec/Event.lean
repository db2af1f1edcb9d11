import ExecTrace.Trace.Codec.Snapshot
import ExecTrace.Trace.Event

/-
  This file defines the JSON form of events: one object with
  the number, the parent, the type and the fields of the type.
  Members that belong to none of these are skipped on reading.

  Key definitions include:
    * `Event.toJson`
    * `Event.ofMembers?`
    * `Event.ofJson?`
-/

namespace ExecTrace

open Json

------------------------------------------------------------
-- Writing
------------------------------------------------------------

/- The JSON form of an event number. -/
def EventId.toJson (id : EventId) : Json :=
  .ofNat id.number.toNat

/- The fields of a statement. -/
def Statement.members : Statement Snapshot → Members
  | .return method => [("method", .str method)]
  | .break target => [("target", target.toJson)]
  | .continue target => [("target", target.toJson)]
  | .yield value target =>
    [("value", value.toJson), ("target", target.toJson)]
  | .switch selector => [("selector", selector.toJson)]
  | .declare name type =>
    [("name", .str name), ("type_descr", .str type)]
  | .throw exception => [("exception", exception.toJson)]
  | .caught exception => [("exception", exception.toJson)]
  | .assertion outcome text =>
    [("asserted", outcome.toJson), ("assertion", .str text)]
  | .exec => []
  | .ifCondition outcome => [("outcome", outcome.toJson)]
  | .loopCondition outcome loop =>
    [("outcome", outcome.toJson), ("loop_kind", loop.toJson)]

/- The fields of an operation. -/
def Operation.members : Operation Snapshot → Members
  | .switch selector => [("selector", selector.toJson)]
  | .loopEnter loop => [("loop_kind", loop.toJson)]
  | .loopExit loop => [("loop_kind", loop.toJson)]
  | .nextElement element => [("element", element.toJson)]
  | .ternaryCondition outcome => [("outcome", outcome.toJson)]
  | .assign place value =>
    [("target", place.toJson Snapshot.toJson),
      ("value", value.toJson)]
  | .compoundAssign place operator old rhs new =>
    [("target", place.toJson Snapshot.toJson),
      ("operator", .str operator), ("old_value", old.toJson),
      ("rhs", rhs.toJson), ("new_value", new.toJson)]
  | .incDec place operator old new result =>
    [("target", place.toJson Snapshot.toJson),
      ("operator", .str operator), ("old_value", old.toJson),
      ("new_value", new.toJson), ("result", result.toJson)]
  | .read place value =>
    [("target", place.toJson Snapshot.toJson),
      ("value", value.toJson)]
  | .unary operator operand result =>
    [("operator", .str operator), ("operand", operand.toJson),
      ("result", result.toJson)]

/- The fields that name a method. -/
def Callee.members (c : Callee) : Members :=
  [("class", .str c.cls), ("method", .str c.method),
    ("signature", .str c.signature)]

/- The fields of the end of an activation. -/
def Exit.members : Exit Snapshot → Members
  | .explicit returned =>
    [("returned", .ofOption Snapshot.toJson returned)]
  | .endOfBody => []
  | .exceptional exception => [("exception", exception.toJson)]

/- The fields of the end of a call. -/
def Resumption.members : Resumption Snapshot → Members
  | .returned value => [("value", value.toJson)]
  | .void => []
  | .aborted exception => [("exception", exception.toJson)]

/- The fields of an action. -/
def Action.members : Action EventId Snapshot → Members
  | .statement s => s.members
  | .operation o => o.members
  | .castAttempt value type succeeds =>
    [("value", value.toJson), ("target_type", .str type),
      ("will_succeed", .bool succeeds)]
  | .binary operator lhs rhs result =>
    [("operator", .str operator), ("lhs", lhs.toJson),
      ("rhs", .ofOption Snapshot.toJson rhs),
      ("result", result.toJson)]
  | .typeTest tested type result =>
    [("tested", tested.toJson), ("target_type", .str type),
      ("result", .bool result)]
  | .call callee none args =>
    callee.members
      ++ [("args", .arr (args.map Snapshot.toJson))]
  | .call callee (some receiver) args =>
    callee.members
      ++ [("receiver", receiver.toJson),
        ("args", .arr (args.map Snapshot.toJson))]
  | .enter method enclosing =>
    method.members
      ++ [("enclosing", .arr (enclosing.map OuterFrame.toJson))]
  | .exit frame method how =>
    [("enter_id", frame.toJson), ("method", .str method)]
      ++ how.members
  | .resume frame cls method how =>
    [("call_id", frame.toJson), ("class", .str cls),
      ("method", .str method)]
      ++ how.members

/- The fields of what an event reports. -/
def Occurrence.members : Occurrence → Members
  | .initialization time => [("timestamp", .str time.text)]
  | .action a span => a.members ++ [("span", span.toJson)]

namespace Event

/- The members of an event. -/
def members (e : Event) : Members :=
  [("id", e.id.toJson),
    ("parent_id", .ofOption EventId.toJson e.parent),
    ("type", .str e.name)] ++ e.what.members

/- The JSON form of an event. -/
def toJson (e : Event) : Json :=
  .obj e.members

end Event

------------------------------------------------------------
-- Shapes
------------------------------------------------------------

/- The types of events, each with its fields in order. -/
def Occurrence.shapes : List (String × List String) :=
  [("return_stat", ["method", "span"]),
    ("break_stat", ["target", "span"]),
    ("continue_stat", ["target", "span"]),
    ("yield_stat", ["value", "target", "span"]),
    ("switch_stat", ["selector", "span"]),
    ("var_decl", ["name", "type_descr", "span"]),
    ("throw_stat", ["exception", "span"]),
    ("caught", ["exception", "span"]),
    ("assertion_stat", ["asserted", "assertion", "span"]),
    ("exec", ["span"]),
    ("if_cond", ["outcome", "span"]),
    ("loop_cond", ["outcome", "loop_kind", "span"]),
    ("initialization", ["timestamp"]),
    ("static_method_call",
      ["class", "method", "signature", "args", "span"]),
    ("instance_method_call",
      ["class", "method", "signature", "receiver", "args",
        "span"]),
    ("method_enter",
      ["class", "method", "signature", "enclosing", "span"]),
    ("method_exit", ["enter_id", "method", "returned", "span"]),
    ("implicit_return", ["enter_id", "method", "span"]),
    ("exceptional_exit",
      ["enter_id", "method", "exception", "span"]),
    ("method_return_value",
      ["call_id", "class", "method", "value", "span"]),
    ("method_return_void",
      ["call_id", "class", "method", "span"]),
    ("call_aborted",
      ["call_id", "class", "method", "exception", "span"]),
    ("switch_expr", ["selector", "span"]),
    ("loop_enter", ["loop_kind", "span"]),
    ("loop_exit", ["loop_kind", "span"]),
    ("for_each_next_iter", ["element", "span"]),
    ("ternary_cond", ["outcome", "span"]),
    ("assign", ["target", "value", "span"]),
    ("compound_assign",
      ["target", "operator", "old_value", "rhs", "new_value",
        "span"]),
    ("inc_dec",
      ["target", "operator", "old_value", "new_value", "result",
        "span"]),
    ("read", ["target", "value", "span"]),
    ("cast_attempt",
      ["value", "target_type", "will_succeed", "span"]),
    ("unary_op", ["operator", "operand", "result", "span"]),
    ("binary_op", ["operator", "lhs", "rhs", "result", "span"]),
    ("type_test", ["tested", "target_type", "result", "span"])]

------------------------------------------------------------
-- Reading
------------------------------------------------------------

/- Read an event number. -/
def EventId.ofJson? (j : Json) : Option EventId :=
  (asUInt64? j).map EventId.mk

section Fields

variable (m : Members)

/- A field that holds a snapshot. -/
def snapshotField? (name : String) : Option Snapshot :=
  field? m name (Snapshot.ofJson? .deferred)

/- A field that may hold a snapshot. -/
def optionalSnapshotField?
    (name : String) : Option (Option Snapshot) :=
  optionalField? m name (Snapshot.ofJson? .deferred)

/- A field that holds a list of snapshots. -/
def snapshotsField?
    (name : String) : Option (List Snapshot) :=
  field? m name (asList? (Snapshot.ofJson? .deferred))

/- A field that holds a text. -/
def textField? (name : String) : Option String :=
  field? m name asString?

/- The place that an event is about. -/
def placeField? : Option (Place Snapshot) :=
  field? m "target" (Place.ofJson? (Snapshot.ofJson? .deferred))

/- The construct that a jump lands on. -/
def jumpField? : Option JumpTarget :=
  field? m "target" JumpTarget.ofJson?

/- The loop that an event is about. -/
def loopField? : Option LoopKind :=
  field? m "loop_kind" (LoopKind.ofJson? .deferred)

/- Read the fields that name a method. -/
def Callee.ofMembers? : Option Callee := do
  let cls ← textField? m "class"
  let method ← textField? m "method"
  let signature ← textField? m "signature"
  some ⟨cls, method, signature⟩

/- Read the statement of a type. -/
def Statement.ofMembers?
    (type : String) : Option (Statement Snapshot) :=
  match type with
  | "return_stat" => do
    let method ← textField? m "method"
    some (.return method)
  | "break_stat" => do
    let target ← jumpField? m
    some (.break target)
  | "continue_stat" => do
    let target ← jumpField? m
    some (.continue target)
  | "yield_stat" => do
    let value ← snapshotField? m "value"
    let target ← jumpField? m
    some (.yield value target)
  | "switch_stat" => do
    let selector ← snapshotField? m "selector"
    some (.switch selector)
  | "var_decl" => do
    let name ← textField? m "name"
    let type ← textField? m "type_descr"
    some (.declare name type)
  | "throw_stat" => do
    let exception ← snapshotField? m "exception"
    some (.throw exception)
  | "caught" => do
    let exception ← snapshotField? m "exception"
    some (.caught exception)
  | "assertion_stat" => do
    let outcome ← snapshotField? m "asserted"
    let text ← textField? m "assertion"
    some (.assertion outcome text)
  | "exec" => some .exec
  | "if_cond" => do
    let outcome ← snapshotField? m "outcome"
    some (.ifCondition outcome)
  | "loop_cond" => do
    let outcome ← snapshotField? m "outcome"
    let loop ← loopField? m
    some (.loopCondition outcome loop)
  | _ => none

/- Read the operation of a type. -/
def Operation.ofMembers?
    (type : String) : Option (Operation Snapshot) :=
  match type with
  | "switch_expr" => do
    let selector ← snapshotField? m "selector"
    some (.switch selector)
  | "loop_enter" => do
    let loop ← loopField? m
    some (.loopEnter loop)
  | "loop_exit" => do
    let loop ← loopField? m
    some (.loopExit loop)
  | "for_each_next_iter" => do
    let element ← snapshotField? m "element"
    some (.nextElement element)
  | "ternary_cond" => do
    let outcome ← snapshotField? m "outcome"
    some (.ternaryCondition outcome)
  | "assign" => do
    let place ← placeField? m
    let value ← snapshotField? m "value"
    some (.assign place value)
  | "compound_assign" => do
    let place ← placeField? m
    let operator ← textField? m "operator"
    let old ← snapshotField? m "old_value"
    let rhs ← snapshotField? m "rhs"
    let new ← snapshotField? m "new_value"
    some (.compoundAssign place operator old rhs new)
  | "inc_dec" => do
    let place ← placeField? m
    let operator ← textField? m "operator"
    let old ← snapshotField? m "old_value"
    let new ← snapshotField? m "new_value"
    let result ← snapshotField? m "result"
    some (.incDec place operator old new result)
  | "read" => do
    let place ← placeField? m
    let value ← snapshotField? m "value"
    some (.read place value)
  | "unary_op" => do
    let operator ← textField? m "operator"
    let operand ← snapshotField? m "operand"
    let result ← snapshotField? m "result"
    some (.unary operator operand result)
  | _ => none

/- Read the end of an activation of a type. -/
def Exit.ofMembers?
    (type : String) : Option (Exit Snapshot) :=
  match type with
  | "method_exit" => do
    let returned ← optionalSnapshotField? m "returned"
    some (.explicit returned)
  | "implicit_return" => some .endOfBody
  | "exceptional_exit" => do
    let exception ← snapshotField? m "exception"
    some (.exceptional exception)
  | _ => none

/- Read the end of a call of a type. -/
def Resumption.ofMembers?
    (type : String) : Option (Resumption Snapshot) :=
  match type with
  | "method_return_value" => do
    let value ← snapshotField? m "value"
    some (.returned value)
  | "method_return_void" => some .void
  | "call_aborted" => do
    let exception ← snapshotField? m "exception"
    some (.aborted exception)
  | _ => none

/- Read any other action of a type. -/
def Action.otherOfMembers?
    (type : String) : Option (Action EventId Snapshot) :=
  match type with
  | "cast_attempt" => do
    let value ← snapshotField? m "value"
    let target ← textField? m "target_type"
    let succeeds ← field? m "will_succeed" asBool?
    some (.castAttempt value target succeeds)
  | "binary_op" => do
    let operator ← textField? m "operator"
    let lhs ← snapshotField? m "lhs"
    let rhs ← optionalSnapshotField? m "rhs"
    let result ← snapshotField? m "result"
    some (.binary operator lhs rhs result)
  | "type_test" => do
    let tested ← snapshotField? m "tested"
    let target ← textField? m "target_type"
    let result ← field? m "result" asBool?
    some (.typeTest tested target result)
  | "static_method_call" => do
    let callee ← Callee.ofMembers? m
    let args ← snapshotsField? m "args"
    some (.call callee none args)
  | "instance_method_call" => do
    let callee ← Callee.ofMembers? m
    let receiver ← snapshotField? m "receiver"
    let args ← snapshotsField? m "args"
    some (.call callee (some receiver) args)
  | "method_enter" => do
    let method ← Callee.ofMembers? m
    let enclosing ←
      field? m "enclosing" (asList? OuterFrame.ofJson?)
    some (.enter method enclosing)
  | _ => none

/- Read the action of a type. -/
def Action.ofMembers?
    (type : String) : Option (Action EventId Snapshot) :=
  match Statement.ofMembers? m type with
  | some s => some (.statement s)
  | none =>
  match Operation.ofMembers? m type with
  | some o => some (.operation o)
  | none =>
  match Exit.ofMembers? m type with
  | some how => do
    let frame ← field? m "enter_id" EventId.ofJson?
    let method ← textField? m "method"
    some (.exit frame method how)
  | none =>
  match Resumption.ofMembers? m type with
  | some how => do
    let frame ← field? m "call_id" EventId.ofJson?
    let cls ← textField? m "class"
    let method ← textField? m "method"
    some (.resume frame cls method how)
  | none => Action.otherOfMembers? m type

/- Read what an event of a type reports. -/
def Occurrence.ofMembers?
    (type : String) : Option Occurrence :=
  if type == "initialization" then do
    let text ← textField? m "timestamp"
    let time ← Timestamp.ofText? text
    some (.initialization time)
  else do
    let action ← Action.ofMembers? m type
    let span ← field? m "span" Span.ofJson?
    some (.action action span)

end Fields

namespace Event

/- Read an event from the members of an object. -/
def ofMembers? (m : Members) : Option Event := do
  guard (["id", "parent_id", "type"].all (occursOnce m))
  let id ← field? m "id" EventId.ofJson?
  let parent ← optionalField? m "parent_id" EventId.ofJson?
  let type ←
    field? m "type"
      (variant? .deferred (Occurrence.shapes.map Prod.fst))
  let fields ← Occurrence.shapes.lookup type
  guard (fields.all (occursOnce m))
  let what ← Occurrence.ofMembers? m type
  some ⟨id, parent, what⟩

/- Read an event; it has to be an object. -/
def ofJson? : Json → Option Event
  | .obj m => ofMembers? m
  | _ => none

end Event

end ExecTrace
