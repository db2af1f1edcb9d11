import ExecTrace.Syntax.Tree
import ExecTrace.Text.Decimal
import ExecTrace.Text.Quoted

/-
  This file prints trees. An expression takes one line, and an
  expression that contains statements only tells how many. A
  statement takes lines of its own, four blanks deeper than the
  statement around it.

  Key definitions include:
    * `Literal.text`
    * `Expr.text`
    * `Probe.text`
    * `Stmt.lines`
    * `Stmt.text`
    * `MethodDef.text`
    * `ClassDef.text`
    * `Program.text`
-/

namespace ExecTrace

------------------------------------------------------------
-- Expressions
------------------------------------------------------------

/- The written form of a literal. -/
def Literal.text : Literal → String
  | .bool b => if b then "true" else "false"
  | .int v => toString v.toInt
  | .long v => toString v.toInt ++ "L"
  | .float bits =>
    Decimal.literalText .single bits.toNat ++ "f"
  | .double bits => Decimal.literalText .double bits.toNat
  | .char c => Quoted.char c
  | .str s => Quoted.string s
  | .null => "null"

/- Texts separated by commas. -/
def commaSeparated (texts : List String) : String :=
  String.intercalate ", " texts

/- A number of things in braces. -/
def countInBraces
    (n : Nat)
    (what : String) : String :=
  "\x7b " ++ toString n ++ " " ++ what ++ " \x7d"

mutual

/- The written form of an expression, on one line. -/
def Expr.text : Expr → String
  | ⟨form, _, _⟩ => form.text

/- The written form of the form of an expression. -/
def ExprForm.text : ExprForm → String
  | .literal value => value.text
  | .localVar name => name
  | .self => "this"
  | .staticField cls field => cls ++ "." ++ field
  | .instanceField object _ field => object.text ++ "." ++ field
  | .index array index => array.text ++ "[" ++ index.text ++ "]"
  | .length array => array.text ++ ".length"
  | .unary op operand => op.symbol ++ operand.text
  | .binary op lhs rhs =>
    "(" ++ lhs.text ++ " " ++ op.symbol ++ " " ++ rhs.text ++ ")"
  | .conditional cond onTrue onFalse =>
    "(" ++ cond.text ++ " ? " ++ onTrue.text ++ " : "
      ++ onFalse.text ++ ")"
  | .assign target value => target.text ++ " = " ++ value.text
  | .compoundAssign op target value =>
    target.text ++ " " ++ op.symbol ++ "= " ++ value.text
  | .step op target =>
    if op.isPrefix then op.symbol ++ target.text
    else target.text ++ op.symbol
  | .call callee none args =>
    callee.cls ++ "." ++ callee.method ++ "("
      ++ commaSeparated (Expr.texts args) ++ ")"
  | .call callee (some receiver) args =>
    receiver.text ++ "." ++ callee.method ++ "("
      ++ commaSeparated (Expr.texts args) ++ ")"
  | .new cls _ args =>
    "new " ++ cls ++ "(" ++ commaSeparated (Expr.texts args)
      ++ ")"
  | .newArray element length =>
    "new " ++ element.text ++ "[" ++ length.text ++ "]"
  | .arrayOf element items =>
    "new " ++ element.text ++ "[] \x7b"
      ++ commaSeparated (Expr.texts items) ++ "\x7d"
  | .cast target operand =>
    "((" ++ target.text ++ ") " ++ operand.text ++ ")"
  | .typeTest operand target =>
    "(" ++ operand.text ++ " instanceof " ++ target.text ++ ")"
  | .switch selector arms =>
    "switch (" ++ selector.text ++ ") "
      ++ countInBraces arms.length "arms"
  | .letIn stmts body =>
    "let " ++ countInBraces stmts.length "statements" ++ " in "
      ++ body.text

/- The written forms of some expressions. -/
def Expr.texts : List Expr → List String
  | [] => []
  | e :: rest => e.text :: Expr.texts rest

end

/- What is wrong with an operand of type `void`. -/
def Operand.voidText (e : Expr) : String :=
  "void expression used as recorder operand: " ++ e.text

/- The written form of a probe. -/
def Probe.text (p : Probe Operand) : String :=
  "@trace " ++ p.name ++ "("
    ++ commaSeparated (p.operands.map fun o => o.expr.text)
    ++ ")"

------------------------------------------------------------
-- Statements
------------------------------------------------------------

/- A line with four blanks for each level. -/
def lineAt
    (level : Nat)
    (text : String) : String :=
  String.ofList (List.replicate (4 * level) ' ') ++ text

/- A label in front of a loop. -/
def labelText : Option String → String
  | some label => label ++ ": "
  | none => ""

/- A keyword, a label or value behind it, and a semicolon. -/
def clause
    (keyword : String) : Option String → String
  | some text => keyword ++ " " ++ text ++ ";"
  | none => keyword ++ ";"

/- The line in front of the statements of an arm. -/
def Arm.head (labels : List Literal) : String :=
  if labels.isEmpty then "default:"
  else "case " ++ commaSeparated (labels.map Literal.text) ++ ":"

mutual

/- The lines of a statement. -/
def Stmt.lines (level : Nat) : Stmt → List String
  | ⟨form, _⟩ => form.lines level

/- The lines of the form of a statement. -/
def StmtForm.lines (level : Nat) : StmtForm → List String
  | .declare name ty (some init) =>
    [lineAt level
      (ty.text ++ " " ++ name ++ " = " ++ init.text ++ ";")]
  | .declare name ty none =>
    [lineAt level (ty.text ++ " " ++ name ++ ";")]
  | .expr ⟨.letIn stmts body, _, _⟩ =>
    [lineAt level "let \x7b"] ++ Stmt.linesAll (level + 1) stmts
      ++ [lineAt level ("\x7d in " ++ body.text ++ ";")]
  | .expr e => [lineAt level (e.text ++ ";")]
  | .block stmts =>
    [lineAt level "\x7b"] ++ Stmt.linesAll (level + 1) stmts
      ++ [lineAt level "\x7d"]
  | .cond cond onTrue none =>
    [lineAt level ("if (" ++ cond.text ++ ")")]
      ++ onTrue.lines (level + 1)
  | .cond cond onTrue (some onFalse) =>
    [lineAt level ("if (" ++ cond.text ++ ")")]
      ++ onTrue.lines (level + 1) ++ [lineAt level "else"]
      ++ onFalse.lines (level + 1)
  | .while label cond body =>
    [lineAt level
      (labelText label ++ "while (" ++ cond.text ++ ")")]
      ++ body.lines (level + 1)
  | .doWhile label body cond =>
    [lineAt level (labelText label ++ "do")]
      ++ body.lines (level + 1)
      ++ [lineAt level ("while (" ++ cond.text ++ ");")]
  | .for label init cond update body =>
    let condText :=
      match cond with
      | some e => e.text
      | none => ""
    [lineAt level
      (labelText label ++ "for (" ++ toString init.length
        ++ " init; " ++ condText ++ "; "
        ++ commaSeparated (update.map Expr.text) ++ ")")]
      ++ Stmt.linesAll (level + 1) init
      ++ body.lines (level + 1)
  | .forEach label var ty iterable body =>
    [lineAt level
      (labelText label ++ "for (" ++ ty.text ++ " " ++ var
        ++ " : " ++ iterable.text ++ ")")]
      ++ body.lines (level + 1)
  | .switch selector arms =>
    [lineAt level ("switch (" ++ selector.text ++ ") \x7b")]
      ++ Arm.linesAll (level + 1) arms ++ [lineAt level "\x7d"]
  | .return value =>
    [lineAt level (clause "return" (value.map Expr.text))]
  | .break label => [lineAt level (clause "break" label)]
  | .continue label => [lineAt level (clause "continue" label)]
  | .yield value =>
    [lineAt level (clause "yield" (some value.text))]
  | .throw exception =>
    [lineAt level (clause "throw" (some exception.text))]
  | .try body catches =>
    [lineAt level "try \x7b"] ++ Stmt.linesAll (level + 1) body
      ++ Catch.linesAll level catches ++ [lineAt level "\x7d"]
  | .assert cond none =>
    [lineAt level (clause "assert" (some cond.text))]
  | .assert cond (some message) =>
    [lineAt level
      (clause "assert"
        (some (cond.text ++ " : " ++ message.text)))]
  | .superCall _ args =>
    [lineAt level
      ("super(" ++ commaSeparated (args.map Expr.text) ++ ");")]
  | .probe p => [lineAt level p.text]

/- The lines of some statements. -/
def Stmt.linesAll (level : Nat) : List Stmt → List String
  | [] => []
  | s :: rest => s.lines level ++ Stmt.linesAll level rest

/- The lines of some arms. -/
def Arm.linesAll (level : Nat) : List Arm → List String
  | [] => []
  | ⟨labels, body⟩ :: rest =>
    [lineAt level (Arm.head labels)]
      ++ Stmt.linesAll (level + 1) body
      ++ Arm.linesAll level rest

/- The lines of some handlers. -/
def Catch.linesAll (level : Nat) : List Catch → List String
  | [] => []
  | ⟨param, ty, body, _⟩ :: rest =>
    [lineAt level
      ("\x7d catch (" ++ ty.text ++ " " ++ param ++ ") \x7b")]
      ++ Stmt.linesAll (level + 1) body
      ++ Catch.linesAll level rest

end

/- Lines as a text; every line ends with a line break. -/
def textOfLines (lines : List String) : String :=
  String.join (lines.map fun s => s ++ "\n")

/- The text of a statement. -/
def Stmt.text (s : Stmt) : String :=
  textOfLines (s.lines 0)

------------------------------------------------------------
-- Declarations
------------------------------------------------------------

/- The lines of a method. -/
def MethodDef.lines
    (level : Nat)
    (m : MethodDef) : List String :=
  let params := m.params.map fun p => p.ty.text ++ " " ++ p.name
  let head :=
    (if m.isStatic then "static " else "") ++ m.ret.text ++ " "
      ++ m.name ++ "(" ++ commaSeparated params ++ ")"
  match m.body with
  | some body =>
    [lineAt level (head ++ " \x7b")]
      ++ Stmt.linesAll (level + 1) body ++ [lineAt level "\x7d"]
  | none => [lineAt level ("abstract " ++ head ++ ";")]

/- The text of a method. -/
def MethodDef.text (m : MethodDef) : String :=
  textOfLines (m.lines 0)

/- The line of a field. -/
def FieldDef.line
    (level : Nat)
    (f : FieldDef) : String :=
  lineAt level
    ((if f.isStatic then "static " else "") ++ f.ty.text ++ " "
      ++ f.name ++ ";")

/- The lines of a class. -/
def ClassDef.lines
    (level : Nat)
    (c : ClassDef) : List String :=
  let extending :=
    match c.superclass with
    | some name => " extends " ++ name
    | none => ""
  [lineAt level ("class " ++ c.name ++ extending ++ " \x7b")]
    ++ c.fields.map (FieldDef.line (level + 1))
    ++ c.methods.flatMap (MethodDef.lines (level + 1))
    ++ [lineAt level "\x7d"]

/- The text of a program. -/
def Program.text (p : Program) : String :=
  textOfLines (p.classes.flatMap (ClassDef.lines 0))

end ExecTrace
