import ExecTrace.Problem
import ExecTrace.Syntax.Build
import ExecTrace.Syntax.Print
import ExecTrace.Text.Json

/-
  This file reads trees from their JSON notation. A node is an
  array that starts with the name of its form. Only what a
  programmer would write occurs in it: the static types and the
  signatures that follow from the rest are computed.

  Key definitions include:
    * `Unread`
    * `Span.ofNotation?`
    * `Literal.ofNotation?`
    * `Expr.ofNotation`
    * `Stmt.ofNotation`
-/

namespace ExecTrace

------------------------------------------------------------
-- Failures
------------------------------------------------------------

/-
  Why a notation cannot be read: some part of it has no
  meaning, or a probe reports an expression without a value.
-/
inductive Unread where
  | malformed (part : Json)
  | voidOperand (e : Expr)

/- What is wrong with a notation. -/
def Unread.text : Unread → String
  | .malformed part => "not a tree: " ++ part.compact
  | .voidOperand e => brokenInvariant (Operand.voidText e)

/- A tree, or why there is none. -/
abbrev Read (α : Type) : Type :=
  Except Unread α

/- A node without meaning. -/
def Unread.node
    {α : Type}
    (tag : String)
    (parts : List Json) : Read α :=
  .error (.malformed (.arr (.str tag :: parts)))

/- A part that has to be there. -/
def Read.ofOption
    {α : Type}
    (part : Json) : Option α → Read α
  | some a => .ok a
  | none => .error (.malformed part)

------------------------------------------------------------
-- Leaves
------------------------------------------------------------

/- A span: the file and four numbers. -/
def Span.ofNotation? : Json → Option Span
  | .arr [.str file, .int line, .int col, .int endLine,
      .int endCol] =>
    some
      ⟨file, UInt32.ofInt line, UInt32.ofInt col,
        UInt32.ofInt endLine, UInt32.ofInt endCol⟩
  | _ => none

/- A span that may be missing. -/
def Span.ofNotation (j : Json) : Span :=
  (Span.ofNotation? j).getD Span.unknown

/- A literal. -/
def Literal.ofNotation? : Json → Option Literal
  | .arr [.str "bool", .bool b] => some (.bool b)
  | .arr [.str "int", .int n] => some (.int (Int32.ofInt n))
  | .arr [.str "long", .int n] => some (.long (Int64.ofInt n))
  | .arr [.str "float", .int n] =>
    some (.float (UInt32.ofInt n))
  | .arr [.str "double", .int n] =>
    some (.double (UInt64.ofInt n))
  | .arr [.str "char", .str s] => s.toList.head?.map .char
  | .arr [.str "str", .str s] => some (.str s)
  | .arr [.str "null"] => some .null
  | _ => none

/- A step operator, with its place shown by an operand. -/
def StepOp.ofNotation? : String → Option StepOp
  | "++x" => some .preInc
  | "--x" => some .preDec
  | "x++" => some .postInc
  | "x--" => some .postDec
  | _ => none

/- A label that may be missing or null. -/
def labelOfNotation : List Json → Option String
  | .str label :: _ => some label
  | _ => none

/- The literals of an arm. -/
def labelsOfNotation (j : Json) : Read (List Literal) :=
  match j with
  | .arr js => Read.ofOption j (js.mapM Literal.ofNotation?)
  | _ => .error (.malformed j)

/- The operand that reports an expression. -/
def operandOfNotation (e : Expr) : Read Operand :=
  match Operand.of? e with
  | some o => .ok o
  | none => .error (.voidOperand e)

/- A probe without operands. -/
def plainProbeOfNotation? :
    String → List Json → Option (Probe Operand)
  | "exec", [] => some (.statement .exec)
  | "enter_method", [.str cls, .str method, .str sig] =>
    some (.enter ⟨cls, method, sig⟩)
  | "exit_method", [.str method] =>
    some (.exit method (.explicit none))
  | "implicit_return", [.str method] =>
    some (.exit method .endOfBody)
  | "static_method_call", [.str cls, .str method, .str sig] =>
    some (.call ⟨cls, method, sig⟩ none [])
  | "return_void", [.str cls, .str method] =>
    some (.resume cls method .void)
  | _, _ => none

------------------------------------------------------------
-- Trees
------------------------------------------------------------

mutual

/- An expression. -/
def Expr.ofNotation : Json → Read Expr
  | .arr (.str tag :: parts) => Expr.ofParts tag parts
  | j => .error (.malformed j)

/- An expression of a form with some parts. -/
def Expr.ofParts
    (tag : String)
    (parts : List Json) : Read Expr :=
  match tag with
  | "local" =>
    match parts with
    | [.str name, .str ty] =>
      .ok (Expr.localVar name (Ty.ofText ty))
    | _ => Unread.node tag parts
  | "this" =>
    match parts with
    | [.str cls] => .ok (Expr.self cls)
    | _ => Unread.node tag parts
  | "sfield" =>
    match parts with
    | [.str cls, .str field, .str ty] =>
      .ok (Expr.staticField cls field (Ty.ofText ty))
    | _ => Unread.node tag parts
  | "field" =>
    match parts with
    | [object, .str cls, .str field, .str ty] => do
      let object ← Expr.ofNotation object
      pure (Expr.instanceField object cls field (Ty.ofText ty))
    | _ => Unread.node tag parts
  | "index" =>
    match parts with
    | [array, index] => do
      let array ← Expr.ofNotation array
      let index ← Expr.ofNotation index
      pure (Expr.index array index)
    | _ => Unread.node tag parts
  | "length" =>
    match parts with
    | [array] => do
      let array ← Expr.ofNotation array
      pure (Expr.length array)
    | _ => Unread.node tag parts
  | "un" =>
    match parts with
    | [.str op, operand] => do
      let op ← Read.ofOption (.str op) (UnaryOp.ofSymbol? op)
      let operand ← Expr.ofNotation operand
      pure (Expr.unary op operand)
    | _ => Unread.node tag parts
  | "bin" =>
    match parts with
    | [.str op, lhs, rhs] => do
      let op ← Read.ofOption (.str op) (BinaryOp.ofSymbol? op)
      let lhs ← Expr.ofNotation lhs
      let rhs ← Expr.ofNotation rhs
      pure (Expr.binary op lhs rhs)
    | _ => Unread.node tag parts
  | "cond" =>
    match parts with
    | [cond, onTrue, onFalse] => do
      let cond ← Expr.ofNotation cond
      let onTrue ← Expr.ofNotation onTrue
      let onFalse ← Expr.ofNotation onFalse
      pure (Expr.conditional cond onTrue onFalse)
    | _ => Unread.node tag parts
  | "assign" =>
    match parts with
    | [target, value] => do
      let target ← Expr.ofNotation target
      let value ← Expr.ofNotation value
      pure (Expr.assign target value)
    | _ => Unread.node tag parts
  | "compound" =>
    match parts with
    | [.str op, target, value] => do
      let op ← Read.ofOption (.str op) (BinaryOp.ofSymbol? op)
      let target ← Expr.ofNotation target
      let value ← Expr.ofNotation value
      pure (Expr.compoundAssign op target value)
    | _ => Unread.node tag parts
  | "incdec" =>
    match parts with
    | [.str op, target] => do
      let op ← Read.ofOption (.str op) (StepOp.ofNotation? op)
      let target ← Expr.ofNotation target
      pure (Expr.step op target)
    | _ => Unread.node tag parts
  | "scall" =>
    match parts with
    | [.str cls, .str method, .arr args, .str ret] => do
      let args ← Expr.listOfNotation args
      pure (Expr.callStatic cls method args (Ty.ofText ret))
    | _ => Unread.node tag parts
  | "call" =>
    match parts with
    | [receiver, .str cls, .str method, .arr args, .str ret] => do
      let receiver ← Expr.ofNotation receiver
      let args ← Expr.listOfNotation args
      pure
        (Expr.callMethod receiver cls method args
          (Ty.ofText ret))
    | _ => Unread.node tag parts
  | "new" =>
    match parts with
    | [.str cls, .arr args] => do
      let args ← Expr.listOfNotation args
      pure (Expr.new cls args)
    | _ => Unread.node tag parts
  | "newarr" =>
    match parts with
    | [.str element, length] => do
      let length ← Expr.ofNotation length
      pure (Expr.newArray (Ty.ofText element) length)
    | _ => Unread.node tag parts
  | "arr" =>
    match parts with
    | [.str element, .arr items] => do
      let items ← Expr.listOfNotation items
      pure (Expr.arrayOf (Ty.ofText element) items)
    | _ => Unread.node tag parts
  | "cast" =>
    match parts with
    | [.str target, operand] => do
      let operand ← Expr.ofNotation operand
      pure (Expr.cast (Ty.ofText target) operand)
    | _ => Unread.node tag parts
  | "is" =>
    match parts with
    | [operand, .str target] => do
      let operand ← Expr.ofNotation operand
      pure (Expr.typeTest operand (Ty.ofText target))
    | _ => Unread.node tag parts
  | "switch" =>
    match parts with
    | [selector, .arr arms, .str ty] => do
      let selector ← Expr.ofNotation selector
      let arms ← Arm.listOfNotation arms
      pure (Expr.switch selector arms (Ty.ofText ty))
    | _ => Unread.node tag parts
  | "let" =>
    match parts with
    | [.arr stmts, body] => do
      let stmts ← Stmt.listOfNotation stmts
      let body ← Expr.ofNotation body
      pure (Expr.letIn stmts body)
    | _ => Unread.node tag parts
  | "at" =>
    match parts with
    | [span, e] => do
      let e ← Expr.ofNotation e
      pure (e.located (Span.ofNotation span))
    | _ => Unread.node tag parts
  | "as" =>
    match parts with
    | [.str ty, e] => do
      let e ← Expr.ofNotation e
      pure (e.withTy (Ty.ofText ty))
    | _ => Unread.node tag parts
  | _ =>
    match Literal.ofNotation? (.arr (.str tag :: parts)) with
    | some value => .ok (Expr.literal value)
    | none => Unread.node tag parts

/- Some expressions. -/
def Expr.listOfNotation : List Json → Read (List Expr)
  | [] => .ok []
  | j :: rest => do
    let e ← Expr.ofNotation j
    let es ← Expr.listOfNotation rest
    pure (e :: es)

/- An expression, if there are parts left. -/
def Expr.optionalOfNotation : List Json → Read (Option Expr)
  | [] => .ok none
  | .null :: _ => .ok none
  | j :: _ => do
    let e ← Expr.ofNotation j
    pure (some e)

/- Some arms. -/
def Arm.listOfNotation : List Json → Read (List Arm)
  | [] => .ok []
  | .arr [labels, .arr body] :: rest => do
    let labels ← labelsOfNotation labels
    let body ← Stmt.listOfNotation body
    let arms ← Arm.listOfNotation rest
    pure (⟨labels, body⟩ :: arms)
  | j :: _ => .error (.malformed j)

/- A statement. -/
def Stmt.ofNotation : Json → Read Stmt
  | .arr (.str tag :: parts) => Stmt.ofParts tag parts
  | j => .error (.malformed j)

/- A statement of a form with some parts. -/
def Stmt.ofParts
    (tag : String)
    (parts : List Json) : Read Stmt :=
  match tag with
  | "decl" =>
    match parts with
    | .str name :: .str ty :: init => do
      let init ← Expr.optionalOfNotation init
      pure (Stmt.declare name (Ty.ofText ty) init)
    | _ => Unread.node tag parts
  | "expr" =>
    match parts with
    | [e] => do
      let e ← Expr.ofNotation e
      pure (Stmt.expr e)
    | _ => Unread.node tag parts
  | "block" =>
    match parts with
    | [.arr stmts] => do
      let stmts ← Stmt.listOfNotation stmts
      pure (Stmt.block stmts)
    | _ => Unread.node tag parts
  | "if" =>
    match parts with
    | cond :: onTrue :: onFalse => do
      let cond ← Expr.ofNotation cond
      let onTrue ← Stmt.ofNotation onTrue
      let onFalse ← Stmt.optionalOfNotation onFalse
      pure (Stmt.ofForm (.cond cond onTrue onFalse))
    | _ => Unread.node tag parts
  | "while" =>
    match parts with
    | cond :: body :: label => do
      let cond ← Expr.ofNotation cond
      let body ← Stmt.ofNotation body
      pure
        (Stmt.ofForm (.while (labelOfNotation label) cond body))
    | _ => Unread.node tag parts
  | "do" =>
    match parts with
    | body :: cond :: label => do
      let body ← Stmt.ofNotation body
      let cond ← Expr.ofNotation cond
      pure
        (Stmt.ofForm
          (.doWhile (labelOfNotation label) body cond))
    | _ => Unread.node tag parts
  | "for" =>
    match parts with
    | .arr init :: .null :: .arr update :: body :: label => do
      let init ← Stmt.listOfNotation init
      let update ← Expr.listOfNotation update
      let body ← Stmt.ofNotation body
      pure
        (Stmt.ofForm
          (.for (labelOfNotation label) init none update body))
    | .arr init :: cond :: .arr update :: body :: label => do
      let init ← Stmt.listOfNotation init
      let cond ← Expr.ofNotation cond
      let update ← Expr.listOfNotation update
      let body ← Stmt.ofNotation body
      pure
        (Stmt.ofForm
          (.for (labelOfNotation label) init (some cond) update
            body))
    | _ => Unread.node tag parts
  | "foreach" =>
    match parts with
    | .str var :: .str ty :: iterable :: body :: label => do
      let iterable ← Expr.ofNotation iterable
      let body ← Stmt.ofNotation body
      pure
        (Stmt.ofForm
          (.forEach (labelOfNotation label) var (Ty.ofText ty)
            iterable body))
    | _ => Unread.node tag parts
  | "switch" =>
    match parts with
    | [selector, .arr arms] => do
      let selector ← Expr.ofNotation selector
      let arms ← Arm.listOfNotation arms
      pure (Stmt.ofForm (.switch selector arms))
    | _ => Unread.node tag parts
  | "return" =>
    match parts with
    | [] => .ok (Stmt.ofForm (.return none))
    | .null :: _ => .ok (Stmt.ofForm (.return none))
    | value :: _ => do
      let value ← Expr.ofNotation value
      pure (Stmt.ofForm (.return (some value)))
  | "break" =>
    .ok (Stmt.ofForm (.break (labelOfNotation parts)))
  | "continue" =>
    .ok (Stmt.ofForm (.continue (labelOfNotation parts)))
  | "yield" =>
    match parts with
    | [value] => do
      let value ← Expr.ofNotation value
      pure (Stmt.ofForm (.yield value))
    | _ => Unread.node tag parts
  | "throw" =>
    match parts with
    | [exception] => do
      let exception ← Expr.ofNotation exception
      pure (Stmt.ofForm (.throw exception))
    | _ => Unread.node tag parts
  | "try" =>
    match parts with
    | [.arr body, .arr catches] => do
      let body ← Stmt.listOfNotation body
      let catches ← Catch.listOfNotation catches
      pure (Stmt.ofForm (.try body catches))
    | _ => Unread.node tag parts
  | "assert" =>
    match parts with
    | cond :: message => do
      let cond ← Expr.ofNotation cond
      let message ← Expr.optionalOfNotation message
      pure (Stmt.ofForm (.assert cond message))
    | _ => Unread.node tag parts
  | "super" =>
    match parts with
    | [.arr args] => do
      let args ← Expr.listOfNotation args
      pure (Stmt.superCall args)
    | _ => Unread.node tag parts
  | "at" =>
    match parts with
    | [span, s] => do
      let s ← Stmt.ofNotation s
      pure (s.located (Span.ofNotation span))
    | _ => Unread.node tag parts
  | "label" =>
    match parts with
    | [.str name, s] => do
      let s ← Stmt.ofNotation s
      pure (s.labeled name)
    | _ => Unread.node tag parts
  | "trace" =>
    match parts with
    | [.str "if_cond", e] => do
      let e ← Expr.ofNotation e
      let outcome ← operandOfNotation e
      pure (Stmt.probe (.statement (.ifCondition outcome)))
    | .str name :: rest =>
      Read.ofOption (.arr parts)
        ((plainProbeOfNotation? name rest).map Stmt.probe)
    | _ => Unread.node tag parts
  | _ => Unread.node tag parts

/- Some statements. -/
def Stmt.listOfNotation : List Json → Read (List Stmt)
  | [] => .ok []
  | j :: rest => do
    let s ← Stmt.ofNotation j
    let ss ← Stmt.listOfNotation rest
    pure (s :: ss)

/- A statement, if there are parts left. -/
def Stmt.optionalOfNotation : List Json → Read (Option Stmt)
  | [] => .ok none
  | .null :: _ => .ok none
  | j :: _ => do
    let s ← Stmt.ofNotation j
    pure (some s)

/- Some handlers. -/
def Catch.listOfNotation : List Json → Read (List Catch)
  | [] => .ok []
  | .arr (.str param :: .str ty :: .arr body :: span) ::
      rest => do
    let body ← Stmt.listOfNotation body
    let catches ← Catch.listOfNotation rest
    let span := (span.head?.map Span.ofNotation).getD
      Span.unknown
    pure (⟨param, Ty.ofText ty, body, span⟩ :: catches)
  | j :: _ => .error (.malformed j)

end

end ExecTrace
