import ExecTrace.Instrument.Options
import ExecTrace.Instrument.Scope
import ExecTrace.Syntax.Build
import ExecTrace.Syntax.Print

/-
  This file defines the computations that instrumentation is
  made of. They hand out fresh names and stop at the first
  thing that cannot be instrumented.

  Key definitions include:
    * `Instrument.Failure`
    * `Instrument.Pass`
    * `Instrument.operand`
    * `Instrument.Bound`
    * `Instrument.bind`
    * `Instrument.guarded`
-/

namespace ExecTrace.Instrument

------------------------------------------------------------
-- Failures
------------------------------------------------------------

/-
  Why a tree cannot be instrumented. The first three are faults
  of the tree; the last two cannot arise from well typed trees.
-/
inductive Failure where
  | voidCall (e : Expr)
  | noLanding (jump : Jump) (label : Option String)
  | notAPlace (e : Expr)
  | badOption (problem : Problem)
  | voidOperand (e : Expr)
  | typeChanged (e : Expr) (became : Ty)

namespace Failure

/- A label, as a failed jump tells it. -/
def labelText : Option String → String
  | some label => " labeled '" ++ label ++ "'"
  | none => ""

/- A piece of a program in a text. -/
def code (text : String) : String :=
  "\x60" ++ text ++ "\x60"

/- The problem of the user, unless it is a broken invariant. -/
def problem? : Failure → Option Problem
  | .voidCall e =>
    some (.instrumentation
      ("void call " ++ code e.text ++ " used as a value"))
  | .noLanding jump label =>
    some (.instrumentation
      (jump.text ++ " without an enclosing target"
        ++ labelText label))
  | .notAPlace e =>
    some (.instrumentation
      (code e.text ++ " is not an assignable place"))
  | .badOption p => some p
  | .voidOperand _ | .typeChanged _ _ => none

/- What is wrong, in words. -/
def text (f : Failure) : String :=
  match f with
  | .voidOperand e => brokenInvariant (Operand.voidText e)
  | .typeChanged e became =>
    brokenInvariant
      ("rewriting " ++ code e.text ++ " changed its type from "
        ++ e.ty.text ++ " to " ++ became.text)
  | f =>
    match f.problem? with
    | some p => p.text
    | none => ""

end Failure

------------------------------------------------------------
-- Passes
------------------------------------------------------------

/-
  A computation that may fail. Its state is the number of fresh
  names handed out so far.
-/
abbrev Pass := StateT Nat (Except Failure)

/- Give up. -/
def fail
    {α : Type}
    (f : Failure) : Pass α :=
  fun _ => .error f

/- A name that no program uses: a dollar, a hint, a number. -/
def freshName (hint : String) : Pass String := fun n =>
  .ok ("$" ++ hint ++ toString (n + 1), n + 1)

/- The operand that reports an expression. -/
def operand (e : Expr) : Pass Operand :=
  match Operand.of? e with
  | some o => pure o
  | none => fail (.voidOperand e)

/- The operands that report some expressions. -/
def operands : List Expr → Pass (List Operand)
  | [] => pure []
  | e :: rest => do
    let o ← operand e
    let os ← operands rest
    pure (o :: os)

/- The operand that reports an expression, if there is one. -/
def operand? : Option Expr → Pass (Option Operand)
  | none => pure none
  | some e => do
    let o ← operand e
    pure (some o)

/- The landing of a jump. -/
def landing
    (site : Site)
    (jump : Jump)
    (label : Option String) : Pass JumpTarget :=
  match resolve? site.around jump label with
  | some t => pure t
  | none => fail (.noLanding jump label)

------------------------------------------------------------
-- Building blocks
------------------------------------------------------------

/- A probe at a position. -/
def probeAt
    (p : Probe Operand)
    (span : Span) : Stmt :=
  ⟨.probe p, span⟩

/- A probe of an operation at a position. -/
def operationAt
    (o : Operation Operand)
    (span : Span) : Stmt :=
  probeAt (.operation o) span

/- A probe of a statement at a position. -/
def statementAt
    (s : Statement Operand)
    (span : Span) : Stmt :=
  probeAt (.statement s) span

/- An expression of the same type at the same position. -/
def rebuilt
    (e : Expr)
    (form : ExprForm) : Expr :=
  ⟨form, e.ty, e.span⟩

/-
  A fresh local variable that holds the value of an expression:
  its declaration, and the expression that reads it.
-/
structure Bound where
  decl : Stmt
  read : Expr

/- Bind the value of an expression to a variable of a type. -/
def bindAs
    (hint : String)
    (ty : Ty)
    (value : Expr) : Pass Bound := do
  let name ← freshName hint
  pure
    { decl := ⟨.declare name ty (some value), value.span⟩
      read := ⟨.localVar name, ty, value.span⟩ }

/- Bind the value of an expression to a variable of its type. -/
def bind
    (hint : String)
    (value : Expr) : Pass Bound :=
  bindAs hint value.ty value

/-
  Statements under a handler that reports what is thrown and
  throws it again.
-/
def guarded
    (body : List Stmt)
    (onAbort : Operand → Probe Operand)
    (span : Span) : Pass Stmt := do
  let name ← freshName "exc"
  let exception : Expr := ⟨.localVar name, Ty.throwable, span⟩
  let reported ← operand exception
  let handler : Catch :=
    ⟨name, Ty.throwable,
      [probeAt (onAbort reported) span,
        ⟨.throw exception, span⟩],
      span⟩
  pure ⟨.try body [handler], span⟩

/- A statement that stores a value in a place. -/
def store
    (place value : Expr)
    (span : Span) : Stmt :=
  ⟨.expr ⟨.assign place value, place.ty, span⟩, span⟩

/- Statements as one statement. -/
def asOne
    (span : Span) : List Stmt → Stmt
  | [s] => s
  | ss => ⟨.block ss, span⟩

end ExecTrace.Instrument
