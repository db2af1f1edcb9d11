import ExecTrace.Instrument.Pass

/-
  This file splices probes around the parts of an expression.
  The operands of an action are bound to fresh variables first,
  in the order in which they are evaluated, so that a probe
  reads finished values only. What is spliced has the type of
  the expression that it stands for.

  Key definitions include:
    * `Instrument.recordCondition`
    * `Instrument.recordRead`
    * `Instrument.recordUnary`
    * `Instrument.recordBinary`
    * `Instrument.recordCast`
    * `Instrument.recordTypeTest`
    * `Instrument.CallSite`
    * `Instrument.valueCall`
    * `Instrument.voidCall`
    * `Instrument.recordAssign`
    * `Instrument.recordCompound`
    * `Instrument.recordStep`
-/

namespace ExecTrace.Instrument

------------------------------------------------------------
-- Conditions and reads
------------------------------------------------------------

/- Report the outcome of a condition at its position. -/
def recordCondition
    (span : Span)
    (cond : Expr)
    (report : Operand → Probe Operand) : Pass Expr := do
  let outcome ← bind "cond" cond
  let o ← operand outcome.read
  pure
    (Expr.letIn [outcome.decl, probeAt (report o) span]
      outcome.read)

/-
  Report the value that is read from a place. The operands of
  the place are those of `place`, found after the reading.
-/
def recordRead
    (span : Span)
    (before : List Stmt)
    (read : Expr)
    (place : Pass (Place Operand)) : Pass Expr := do
  let value ← bind "read" read
  let p ← place
  let o ← operand value.read
  pure
    (Expr.letIn
      (before
        ++ [value.decl, operationAt (.read p o) span])
      value.read)

/- Read a field of an object. -/
def recordFieldRead
    (e object : Expr)
    (cls field : String) : Pass Expr := do
  let obj ← bind "obj" object
  recordRead e.span [obj.decl]
    (rebuilt e (.instanceField obj.read cls field))
    (do
      let o ← operand obj.read
      pure (.instanceField cls o field))

/- Read an element of an array. -/
def recordElementRead
    (e array index : Expr) : Pass Expr := do
  let arr ← bind "arr" array
  let idx ← bind "idx" index
  recordRead e.span [arr.decl, idx.decl]
    (rebuilt e (.index arr.read idx.read))
    (do
      let a ← operand arr.read
      let i ← operand idx.read
      pure (.element a i))

------------------------------------------------------------
-- Operators
------------------------------------------------------------

/- Report an operator, its operand and its result. -/
def recordUnary
    (e : Expr)
    (op : UnaryOp)
    (arg : Expr) : Pass Expr := do
  let arg ← bind "operand" arg
  let result ← bind "unary" (rebuilt e (.unary op arg.read))
  let a ← operand arg.read
  let r ← operand result.read
  pure
    (Expr.letIn
      [arg.decl, result.decl,
        operationAt (.unary op.symbol a r) e.span]
      result.read)

/-
  Whether a short-circuit operator leaves out its right operand,
  as an expression over the value of the left one.
-/
def skips
    (op : BinaryOp)
    (lhs : Expr) : Expr :=
  match op with
  | .and => rebuilt lhs (.unary .not lhs)
  | _ => lhs

/-
  Report a short-circuit operator. Its right operand stays where
  it is, since it must only be evaluated when it is needed; when
  it is, its value is the result.
-/
def recordShortCircuit
    (e : Expr)
    (op : BinaryOp)
    (lhs rhs : Expr) : Pass Expr := do
  let left ← bind "lhs" lhs
  let result ← bind "logic"
    (rebuilt e (.binary op left.read rhs))
  let l ← operand left.read
  let r ← operand result.read
  let skipped ← operand (skips op left.read)
  pure
    (Expr.letIn
      [left.decl, result.decl,
        probeAt (.binary op.symbol l r r (some skipped)) e.span]
      result.read)

/- Report an operator, both operands and its result. -/
def recordStrict
    (e : Expr)
    (op : BinaryOp)
    (lhs rhs : Expr) : Pass Expr := do
  let left ← bind "lhs" lhs
  let right ← bind "rhs" rhs
  let result ← bind "binary"
    (rebuilt e (.binary op left.read right.read))
  let l ← operand left.read
  let r ← operand right.read
  let v ← operand result.read
  pure
    (Expr.letIn
      [left.decl, right.decl, result.decl,
        probeAt (.binary op.symbol l r v none) e.span]
      result.read)

/- Report an operator with two operands. -/
def recordBinary
    (e : Expr)
    (op : BinaryOp)
    (lhs rhs : Expr) : Pass Expr :=
  if op.isShortCircuit then recordShortCircuit e op lhs rhs
  else recordStrict e op lhs rhs

------------------------------------------------------------
-- Types
------------------------------------------------------------

/- Whether a value can be cast: it is null or an instance. -/
def castable
    (span : Span)
    (value : Expr)
    (target : Ty) : Expr :=
  let null : Expr := ⟨.literal .null, .null, span⟩
  ⟨.binary .or
      ⟨.binary .eq value null, .bool, span⟩
      ⟨.typeTest value target, .bool, span⟩,
    .bool, span⟩

/- Report a cast between references before it is made. -/
def recordCast
    (e : Expr)
    (target : Ty)
    (value : Expr) : Pass Expr := do
  let v ← bind "casted" value
  let succeeds ← bind "castable" (castable e.span v.read target)
  let o ← operand v.read
  let s ← operand succeeds.read
  pure
    (Expr.letIn
      [v.decl, succeeds.decl,
        probeAt (.castAttempt o target.text s) e.span]
      (rebuilt e (.cast target v.read)))

/- Report a test for a type. -/
def recordTypeTest
    (e value : Expr)
    (target : Ty) : Pass Expr := do
  let tested ← bind "tested" value
  let result ← bind "is"
    (rebuilt e (.typeTest tested.read target))
  let o ← operand tested.read
  let r ← operand result.read
  pure
    (Expr.letIn
      [tested.decl, result.decl,
        probeAt (.typeTest o target.text r) e.span]
      result.read)

/- Report the selector of a switch expression. -/
def recordSelector
    (e selector : Expr)
    (arms : Pass (List Arm)) : Pass Expr := do
  let sel ← bind "sel" selector
  let o ← operand sel.read
  let arms ← arms
  pure
    (Expr.letIn [sel.decl, operationAt (.switch o) e.span]
      (rebuilt e (.switch sel.read arms)))

------------------------------------------------------------
-- Calls
------------------------------------------------------------

/-
  A call in the caller: what has to be done before it, the call
  itself, and the method that it names.
-/
structure CallSite where
  before : List Stmt
  call : Expr
  cls : String
  method : String

/- A call with its receiver and arguments bound. -/
def callSite
    (e : Expr)
    (callee : Callee)
    (receiver : Option Bound)
    (args : List Bound) : Pass CallSite := do
  let r ← operand? (receiver.map Bound.read)
  let as ← operands (args.map Bound.read)
  pure
    { before :=
        receiver.toList.map Bound.decl ++ args.map Bound.decl
          ++ [probeAt (.call callee r as) e.span]
      call :=
        rebuilt e
          (.call callee (receiver.map Bound.read)
            (args.map Bound.read))
      cls := callee.cls
      method := callee.method }

/- A new object, as a call of a constructor. -/
def constructorSite
    (e : Expr)
    (cls signature : String)
    (args : List Bound) : Pass CallSite := do
  let as ← operands (args.map Bound.read)
  let callee : Callee := ⟨cls, constructorName, signature⟩
  pure
    { before :=
        args.map Bound.decl
          ++ [probeAt (.call callee none as) e.span]
      call := rebuilt e (.new cls signature (args.map Bound.read))
      cls := cls
      method := constructorName }

/- A call under a handler that reports that it was aborted. -/
def CallSite.guarded
    (c : CallSite)
    (body : Stmt)
    (span : Span) : Pass Stmt :=
  Instrument.guarded [body]
    (fun exception => .resume c.cls c.method (.aborted exception))
    span

/-
  A call for its value. The value is stored in a variable, which
  is read once the return has been reported.
-/
def valueCall
    (e : Expr)
    (c : CallSite) : Pass Expr := do
  let name ← freshName "result"
  let result : Expr := ⟨.localVar name, e.ty, e.span⟩
  let call ← c.guarded (store result c.call e.span) e.span
  let o ← operand result
  pure
    (Expr.letIn
      (c.before
        ++ [⟨.declare name e.ty none, e.span⟩, call,
          probeAt (.resume c.cls c.method (.returned o)) e.span])
      result)

/- A call of a method without a result, as a block. -/
def voidCall
    (span : Span)
    (c : CallSite) : Pass Stmt := do
  let call ← c.guarded ⟨.expr c.call, span⟩ span
  let back := probeAt (.resume c.cls c.method .void) span
  pure ⟨.block (c.before ++ [call, back]), span⟩

------------------------------------------------------------
-- Assignments
------------------------------------------------------------

/-
  A place whose parts are bound: what has to be done before, the
  place over the bindings, and how a probe names it.
-/
structure BoundPlace where
  before : List Stmt
  target : Expr
  place : Place Operand

/- Report an assignment after it is made. -/
def recordAssign
    (e : Expr)
    (p : BoundPlace)
    (value : Expr) : Pass Expr := do
  let v ← bindAs "value" p.target.ty value
  let o ← operand v.read
  pure
    (Expr.letIn
      (p.before
        ++ [v.decl, store p.target v.read e.span,
          operationAt (.assign p.place o) e.span])
      v.read)

/- A combination of two values, cast to the type of a place. -/
def combined
    (span : Span)
    (op : BinaryOp)
    (ty : Ty)
    (old rhs : Expr) : Expr :=
  let result := op.resultTy old.ty rhs.ty
  let e : Expr := ⟨.binary op old rhs, result, span⟩
  if result = ty then e else ⟨.cast ty e, ty, span⟩

/-
  Report a compound assignment after it is made: the old value,
  the other operand and the new value. `value` is the other
  operand, found after the old value.
-/
def recordCompound
    (e : Expr)
    (op : BinaryOp)
    (p : BoundPlace)
    (value : Pass Expr) : Pass Expr := do
  let old ← bind "old" p.target
  let value ← value
  let rhs ← bind "rhs" value
  let new ← bind "new"
    (combined e.span op p.target.ty old.read rhs.read)
  let a ← operand old.read
  let b ← operand rhs.read
  let c ← operand new.read
  let what : Operation Operand :=
    .compoundAssign p.place (op.symbol ++ "=") a b c
  pure
    (Expr.letIn
      (p.before
        ++ [old.decl, rhs.decl, new.decl,
          store p.target new.read e.span,
          operationAt what e.span])
      new.read)

/- Report a step: the old value, the new value, the result. -/
def recordStep
    (e : Expr)
    (op : StepOp)
    (p : BoundPlace) : Pass Expr := do
  let old ← bind "old" p.target
  let result ← bind "res" (rebuilt e (.step op p.target))
  let new ← bind "new" p.target
  let a ← operand old.read
  let b ← operand new.read
  let r ← operand result.read
  let what : Operation Operand :=
    .incDec p.place op.describe a b r
  pure
    (Expr.letIn
      (p.before
        ++ [old.decl, result.decl, new.decl,
          operationAt what e.span])
      result.read)

end ExecTrace.Instrument
