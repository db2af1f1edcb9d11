import ExecTrace.Syntax.Tree

/-
  This file builds trees the way a type checker would: every
  function computes the static type of what it builds and, for
  calls, the signature. What is built has no position until it
  is given one.

  Key definitions include:
    * `Expr.located`
    * `Expr.binary`
    * `Expr.conditional`
    * `Expr.callStatic`
    * `Expr.letIn`
    * `Stmt.declare`
    * `Stmt.labeled`
-/

namespace ExecTrace

------------------------------------------------------------
-- Expressions
------------------------------------------------------------

namespace Expr

/- An expression without a position. -/
def ofForm
    (form : ExprForm)
    (ty : Ty) : Expr :=
  ⟨form, ty, Span.unknown⟩

/- Give an expression a position. -/
def located
    (e : Expr)
    (span : Span) : Expr :=
  { e with span := span }

/- Give an expression another static type. -/
def withTy
    (e : Expr)
    (ty : Ty) : Expr :=
  { e with ty := ty }

/- A literal. -/
def literal (value : Literal) : Expr :=
  ofForm (.literal value) value.ty

/- An integer literal. -/
def int (value : Int32) : Expr :=
  literal (.int value)

/- A truth value. -/
def bool (value : Bool) : Expr :=
  literal (.bool value)

/- A local variable. -/
def localVar
    (name : String)
    (ty : Ty) : Expr :=
  ofForm (.localVar name) ty

/- The object that a method of a class was called on. -/
def self (cls : String) : Expr :=
  ofForm .self (.cls cls)

/- A field of a class. -/
def staticField
    (cls field : String)
    (ty : Ty) : Expr :=
  ofForm (.staticField cls field) ty

/- A field of an object, declared by a class. -/
def instanceField
    (object : Expr)
    (cls field : String)
    (ty : Ty) : Expr :=
  ofForm (.instanceField object cls field) ty

/- An element of an array. -/
def index (array i : Expr) : Expr :=
  ofForm (.index array i) (array.ty.element?.getD .null)

/- The number of elements of an array. -/
def length (array : Expr) : Expr :=
  ofForm (.length array) .int

/- An operator applied to one operand. -/
def unary
    (op : UnaryOp)
    (operand : Expr) : Expr :=
  ofForm (.unary op operand) (op.resultTy operand.ty)

/- An operator applied to two operands. -/
def binary
    (op : BinaryOp)
    (lhs rhs : Expr) : Expr :=
  ofForm (.binary op lhs rhs) (op.resultTy lhs.ty rhs.ty)

/-
  The type of a conditional: the one type of both branches, or
  else the promoted type of two numbers, or else the type of
  the first branch that is not null.
-/
def conditionalTy (onTrue onFalse : Ty) : Ty :=
  if onTrue = onFalse then onTrue
  else if onTrue.isNumeric && onFalse.isNumeric then
    Ty.promote onTrue onFalse
  else if onTrue = .null then onFalse
  else onTrue

/- One of two expressions. -/
def conditional (cond onTrue onFalse : Expr) : Expr :=
  ofForm (.conditional cond onTrue onFalse)
    (conditionalTy onTrue.ty onFalse.ty)

/- An assignment. -/
def assign (target value : Expr) : Expr :=
  ofForm (.assign target value) target.ty

/- An assignment combined with an operator. -/
def compoundAssign
    (op : BinaryOp)
    (target value : Expr) : Expr :=
  ofForm (.compoundAssign op target value) target.ty

/- A step up or down by one. -/
def step
    (op : StepOp)
    (target : Expr) : Expr :=
  ofForm (.step op target) target.ty

/- The signature that a call with some arguments asks for. -/
def callSignature
    (args : List Expr)
    (ret : Ty) : String :=
  signature (args.map Expr.ty) ret

/- A call of a static method. -/
def callStatic
    (cls method : String)
    (args : List Expr)
    (ret : Ty) : Expr :=
  ofForm (.call ⟨cls, method, callSignature args ret⟩ none args)
    ret

/- A call of a method that a class declares on an object. -/
def callMethod
    (receiver : Expr)
    (cls method : String)
    (args : List Expr)
    (ret : Ty) : Expr :=
  ofForm
    (.call ⟨cls, method, callSignature args ret⟩
      (some receiver) args)
    ret

/- A new object. -/
def new
    (cls : String)
    (args : List Expr) : Expr :=
  ofForm (.new cls (callSignature args .void) args) (.cls cls)

/- A new array of default values. -/
def newArray
    (element : Ty)
    (length : Expr) : Expr :=
  ofForm (.newArray element length) (.array element)

/- A new array of some values. -/
def arrayOf
    (element : Ty)
    (items : List Expr) : Expr :=
  ofForm (.arrayOf element items) (.array element)

/- A cast. -/
def cast
    (target : Ty)
    (operand : Expr) : Expr :=
  ofForm (.cast target operand) target

/- A test for a type. -/
def typeTest
    (operand : Expr)
    (target : Ty) : Expr :=
  ofForm (.typeTest operand target) .bool

/- A switch that yields a value. -/
def switch
    (selector : Expr)
    (arms : List Arm)
    (ty : Ty) : Expr :=
  ofForm (.switch selector arms) ty

/-
  Statements followed by an expression, which gives the whole
  its type and its position.
-/
def letIn
    (stmts : List Stmt)
    (body : Expr) : Expr :=
  ⟨.letIn stmts body, body.ty, body.span⟩

end Expr

------------------------------------------------------------
-- Statements
------------------------------------------------------------

namespace Stmt

/- A statement without a position. -/
def ofForm (form : StmtForm) : Stmt :=
  ⟨form, Span.unknown⟩

/- Give a statement a position. -/
def located
    (s : Stmt)
    (span : Span) : Stmt :=
  { s with span := span }

/- Give a loop a label; other statements do not change. -/
def labeled
    (s : Stmt)
    (name : String) : Stmt :=
  match s.form with
  | .while _ cond body =>
    { s with form := .while (some name) cond body }
  | .doWhile _ body cond =>
    { s with form := .doWhile (some name) body cond }
  | .for _ init cond update body =>
    { s with form := .for (some name) init cond update body }
  | .forEach _ var ty iterable body =>
    { s with form := .forEach (some name) var ty iterable body }
  | _ => s

/- A declaration of a local variable. -/
def declare
    (name : String)
    (ty : Ty)
    (init : Option Expr) : Stmt :=
  ofForm (.declare name ty init)

/- An expression statement, at the position of its expression. -/
def expr (e : Expr) : Stmt :=
  ⟨.expr e, e.span⟩

/- A block. -/
def block (stmts : List Stmt) : Stmt :=
  ofForm (.block stmts)

/- A super call. -/
def superCall (args : List Expr) : Stmt :=
  ofForm (.superCall (Expr.callSignature args .void) args)

/- A probe. -/
def probe (p : Probe Operand) : Stmt :=
  ofForm (.probe p)

end Stmt

------------------------------------------------------------
-- Handlers and constructors
------------------------------------------------------------

/- A constructor. -/
def MethodDef.ofConstructor
    (params : List Param)
    (body : Option (List Stmt)) : MethodDef :=
  { name := constructorName
    kind := .constructor
    params := params
    ret := .void
    body := body }

end ExecTrace
