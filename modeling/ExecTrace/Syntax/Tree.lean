import ExecTrace.Span
import ExecTrace.Syntax.Operator
import ExecTrace.Syntax.Probe

/-
  This file defines the typed trees of the language. Every
  expression knows its static type and its position. Two forms
  occur in instrumented trees only: `letIn` runs statements and
  then yields an expression, and `probe` reports an action.

  Key definitions include:
    * `Literal`
    * `Expr`
    * `ExprForm`
    * `Stmt`
    * `StmtForm`
    * `Operand`
    * `MethodDef`
    * `ClassDef`
    * `Program`
-/

namespace ExecTrace

------------------------------------------------------------
-- Literals
------------------------------------------------------------

/- A literal; floats are held as their bits. -/
inductive Literal where
  | bool (value : Bool)
  | int (value : Int32)
  | long (value : Int64)
  | float (bits : UInt32)
  | double (bits : UInt64)
  | char (value : Char)
  | str (value : String)
  | null
  deriving DecidableEq, Repr, Inhabited

/- The static type of a literal. -/
def Literal.ty : Literal → Ty
  | .bool _ => .bool
  | .int _ => .int
  | .long _ => .long
  | .float _ => .float
  | .double _ => .double
  | .char _ => .char
  | .str _ => .str
  | .null => .null

------------------------------------------------------------
-- Trees
------------------------------------------------------------

mutual

/- A typed expression. -/
structure Expr where
  form : ExprForm
  ty : Ty
  span : Span

/- The forms of expressions. A static call has no receiver. -/
inductive ExprForm where
  | literal (value : Literal)
  | localVar (name : String)
  | self
  | staticField (cls field : String)
  | instanceField (object : Expr) (cls field : String)
  | index (array index : Expr)
  | length (array : Expr)
  | unary (op : UnaryOp) (operand : Expr)
  | binary (op : BinaryOp) (lhs rhs : Expr)
  | conditional (cond onTrue onFalse : Expr)
  | assign (target value : Expr)
  | compoundAssign (op : BinaryOp) (target value : Expr)
  | step (op : StepOp) (target : Expr)
  | call
      (callee : Callee) (receiver : Option Expr)
      (args : List Expr)
  | new (cls signature : String) (args : List Expr)
  | newArray (element : Ty) (length : Expr)
  | arrayOf (element : Ty) (items : List Expr)
  | cast (target : Ty) (operand : Expr)
  | typeTest (operand : Expr) (target : Ty)
  | switch (selector : Expr) (arms : List Arm)
  | letIn (stmts : List Stmt) (body : Expr)

/- An arm of a switch; without labels it is the default. -/
structure Arm where
  labels : List Literal
  body : List Stmt

/- A statement. -/
structure Stmt where
  form : StmtForm
  span : Span

/-
  The forms of statements. A super call may only be the first
  statement of a constructor.
-/
inductive StmtForm where
  | declare (name : String) (ty : Ty) (init : Option Expr)
  | expr (e : Expr)
  | block (stmts : List Stmt)
  | cond
      (cond : Expr) (onTrue : Stmt) (onFalse : Option Stmt)
  | while (label : Option String) (cond : Expr) (body : Stmt)
  | doWhile (label : Option String) (body : Stmt) (cond : Expr)
  | for
      (label : Option String) (init : List Stmt)
      (cond : Option Expr) (update : List Expr) (body : Stmt)
  | forEach
      (label : Option String) (var : String) (ty : Ty)
      (iterable : Expr) (body : Stmt)
  | switch (selector : Expr) (arms : List Arm)
  | return (value : Option Expr)
  | break (label : Option String)
  | continue (label : Option String)
  | yield (value : Expr)
  | throw (exception : Expr)
  | try (body : List Stmt) (catches : List Catch)
  | assert (cond : Expr) (message : Option Expr)
  | superCall (signature : String) (args : List Expr)
  | probe (probe : Probe Operand)

/- A handler for the exceptions of a type. -/
structure Catch where
  param : String
  ty : Ty
  body : List Stmt
  span : Span

/-
  An expression whose value a probe reports, as a snapshot of
  the given kind.
-/
structure Operand where
  expr : Expr
  kind : Kind

end

/- Whether an arm is the default. -/
def Arm.isDefault (a : Arm) : Bool :=
  a.labels.isEmpty

/-
  The operand that reports an expression; an expression of type
  `void` has no value to report.
-/
def Operand.of? (e : Expr) : Option Operand :=
  e.ty.kind?.map fun kind => ⟨e, kind⟩

------------------------------------------------------------
-- Declarations
------------------------------------------------------------

/- A parameter of a method. -/
structure Param where
  name : String
  ty : Ty
  deriving DecidableEq, Repr

/- What a method is called on. -/
inductive MethodKind where
  | static
  | virtual
  | constructor
  deriving DecidableEq, Repr, Inhabited

/- The name of every constructor. -/
def constructorName : String := "<init>"

/- A method; an abstract one has no body. -/
structure MethodDef where
  name : String
  kind : MethodKind
  params : List Param := []
  ret : Ty
  body : Option (List Stmt) := none
  span : Span := Span.unknown

namespace MethodDef

/- Whether a method is called on a class. -/
def isStatic (m : MethodDef) : Bool :=
  m.kind == .static

/- Whether a method sets up new objects. -/
def isConstructor (m : MethodDef) : Bool :=
  m.kind == .constructor

/- The number of parameters. -/
def arity (m : MethodDef) : Nat :=
  m.params.length

/- The signature of a method. -/
def signature (m : MethodDef) : String :=
  ExecTrace.signature (m.params.map Param.ty) m.ret

end MethodDef

/- A field of a class or of its objects. -/
structure FieldDef where
  name : String
  ty : Ty
  isStatic : Bool := false
  deriving DecidableEq, Repr

/- A class. -/
structure ClassDef where
  name : String
  superclass : Option String := none
  fields : List FieldDef := []
  methods : List MethodDef := []
  span : Span := Span.unknown

namespace ClassDef

/- The first method of a class with a name and an arity. -/
def method?
    (c : ClassDef)
    (name : String)
    (arity : Nat) : Option MethodDef :=
  c.methods.find? fun m => m.name == name && m.arity == arity

/- The first field of a class with a name. -/
def field?
    (c : ClassDef)
    (name : String) : Option FieldDef :=
  c.fields.find? fun f => f.name == name

end ClassDef

/- The classes that belong together. -/
structure Program where
  classes : List ClassDef

/- The first class of a program with a name. -/
def Program.class?
    (p : Program)
    (name : String) : Option ClassDef :=
  p.classes.find? fun c => c.name == name

end ExecTrace
