import ExecTrace.Syntax.Print
import ExecTrace.Text.Json.Record
import ExecTrace.Trace.Describe

/-
  This file writes trees as JSON in full: every node shows the
  name of its form, its static type and its position, so that
  two trees with the same dump differ in nothing but the bits
  of floats that are not numbers.

  Key definitions include:
    * `Literal.dump`
    * `Probe.extra`
    * `Expr.dump`
    * `Stmt.dump`
    * `Program.dump`
-/

namespace ExecTrace

------------------------------------------------------------
-- Leaves
------------------------------------------------------------

/- The text of a type. -/
def Ty.dump (t : Ty) : Json :=
  .str t.text

/- The text of a position, empty when it is unknown. -/
def Span.dump (s : Span) : Json :=
  .str (if s = Span.unknown then "" else s.text)

/- A text that may be missing. -/
def dumpLabel : Option String → Json :=
  Json.ofOption .str

/- A literal; all floats that are no numbers look the same. -/
def Literal.dump : Literal → Json
  | .bool b => .arr [.str "bool", .bool b]
  | .int v => .arr [.str "int", .int v.toInt]
  | .long v => .arr [.str "long", .int v.toInt]
  | .float bits =>
    .arr [.str "float", .ofNat (Scalar.canonicalFloat bits).toNat]
  | .double bits =>
    .arr [.str "double", .ofNat (Scalar.canonicalDouble bits).toNat]
  | .char c => .arr [.str "char", .str (String.ofList [c])]
  | .str s => .arr [.str "str", .str s]
  | .null => .arr [.str "null"]

------------------------------------------------------------
-- Probes
------------------------------------------------------------

/- A place without its operands. -/
def Place.dump : Place Operand → Json
  | .localVar name => .arr [.str "local", .str name]
  | .staticField cls field =>
    .arr [.str "static", .str cls, .str field]
  | .instanceField cls _ field =>
    .arr [.str "instance", .str cls, .str field]
  | .element _ _ => .arr [.str "element"]

/- What a statement names besides its operands. -/
def Statement.extra : Statement Operand → List Json
  | .return method => [.str method]
  | .break target => [.str target.text]
  | .continue target => [.str target.text]
  | .yield _ target => [.str target.text]
  | .declare name type => [.str name, .str type]
  | .assertion _ text => [.str text]
  | .loopCondition _ loop => [.str loop.text]
  | _ => []

/- What an operation names besides its operands. -/
def Operation.extra : Operation Operand → List Json
  | .loopEnter loop => [.str loop.text]
  | .loopExit loop => [.str loop.text]
  | .assign place _ => [place.dump]
  | .read place _ => [place.dump]
  | .compoundAssign place operator _ _ _ =>
    [place.dump, .str operator]
  | .incDec place operator _ _ _ => [place.dump, .str operator]
  | .unary operator _ _ => [.str operator]
  | _ => []

/- The names of a method. -/
def Callee.dump (c : Callee) : List Json :=
  [.str c.cls, .str c.method, .str c.signature]

/- What a probe names besides its operands. -/
def Probe.extra : Probe Operand → List Json
  | .statement s => s.extra
  | .operation o => o.extra
  | .castAttempt _ type _ => [.str type]
  | .typeTest _ type _ => [.str type]
  | .binary operator _ _ _ skipped =>
    [.str operator, .bool skipped.isSome]
  | .call callee _ _ => callee.dump
  | .enter method => method.dump
  | .exit method _ => [.str method]
  | .resume cls method _ => [.str cls, .str method]

/- What a probe reports is smaller than the probe. -/
theorem Probe.sizeOf_expr
    {p : Probe Operand}
    {o : Operand}
    (h : o ∈ p.operands) : sizeOf o.expr < sizeOf p := by
  have hp := Probe.sizeOf_operand h
  cases o
  simp at hp ⊢
  omega

------------------------------------------------------------
-- Trees
------------------------------------------------------------

/- A node: its form, its type and position, and its parts. -/
def Expr.node
    (e : Expr)
    (tag : String)
    (parts : List Json) : Json :=
  .arr ([.str tag, e.ty.dump, e.span.dump] ++ parts)

/- A node: its form, its position, and its parts. -/
def Stmt.node
    (s : Stmt)
    (tag : String)
    (parts : List Json) : Json :=
  .arr ([.str tag, s.span.dump] ++ parts)

mutual

/- An expression in full. -/
def Expr.dump (e : Expr) : Json :=
  match e with
  | ⟨form, _, _⟩ =>
    match form with
    | .literal value => e.node "literal" [value.dump]
    | .localVar name => e.node "local" [.str name]
    | .self => e.node "this" []
    | .staticField cls field =>
      e.node "sfield" [.str cls, .str field]
    | .instanceField object cls field =>
      e.node "field" [object.dump, .str cls, .str field]
    | .index array index => e.node "index" [array.dump, index.dump]
    | .length array => e.node "length" [array.dump]
    | .unary op operand =>
      e.node "un" [.str op.symbol, operand.dump]
    | .binary op lhs rhs =>
      e.node "bin" [.str op.symbol, lhs.dump, rhs.dump]
    | .conditional cond onTrue onFalse =>
      e.node "cond" [cond.dump, onTrue.dump, onFalse.dump]
    | .assign target value =>
      e.node "assign" [target.dump, value.dump]
    | .compoundAssign op target value =>
      e.node "compound" [.str op.symbol, target.dump, value.dump]
    | .step op target =>
      e.node "incdec" [.str op.describe, target.dump]
    | .call callee none args =>
      e.node "call"
        (callee.dump ++ [.null, .arr (Expr.dumpAll args)])
    | .call callee (some receiver) args =>
      e.node "call"
        (callee.dump
          ++ [receiver.dump, .arr (Expr.dumpAll args)])
    | .new cls signature args =>
      e.node "new"
        [.str cls, .str signature, .arr (Expr.dumpAll args)]
    | .newArray element length =>
      e.node "newarr" [element.dump, length.dump]
    | .arrayOf element items =>
      e.node "arr" [element.dump, .arr (Expr.dumpAll items)]
    | .cast target operand =>
      e.node "cast" [target.dump, operand.dump]
    | .typeTest operand target =>
      e.node "is" [operand.dump, target.dump]
    | .switch selector arms =>
      e.node "switch" [selector.dump, .arr (Arm.dumpAll arms)]
    | .letIn stmts body =>
      e.node "let" [.arr (Stmt.dumpAll stmts), body.dump]
termination_by sizeOf e

/- Some expressions in full. -/
def Expr.dumpAll : List Expr → List Json
  | [] => []
  | e :: rest => e.dump :: Expr.dumpAll rest
termination_by es => sizeOf es

/- An expression in full, or null. -/
def Expr.dumpOption : Option Expr → Json
  | none => .null
  | some e => e.dump
termination_by e => sizeOf e

/- Some arms in full. -/
def Arm.dumpAll : List Arm → List Json
  | [] => []
  | ⟨labels, body⟩ :: rest =>
    .arr [.arr (labels.map Literal.dump), .arr (Stmt.dumpAll body)]
      :: Arm.dumpAll rest
termination_by arms => sizeOf arms

/- A statement in full. -/
def Stmt.dump (s : Stmt) : Json :=
  match s with
  | ⟨form, _⟩ =>
    match form with
    | .declare name ty init =>
      s.node "decl" [.str name, ty.dump, Expr.dumpOption init]
    | .expr e => s.node "expr" [e.dump]
    | .block stmts => s.node "block" [.arr (Stmt.dumpAll stmts)]
    | .cond cond onTrue onFalse =>
      s.node "if"
        [cond.dump, onTrue.dump, Stmt.dumpOption onFalse]
    | .while label cond body =>
      s.node "while" [dumpLabel label, cond.dump, body.dump]
    | .doWhile label body cond =>
      s.node "do" [dumpLabel label, body.dump, cond.dump]
    | .for label init cond update body =>
      s.node "for"
        [dumpLabel label, .arr (Stmt.dumpAll init),
          Expr.dumpOption cond, .arr (Expr.dumpAll update),
          body.dump]
    | .forEach label var ty iterable body =>
      s.node "foreach"
        [dumpLabel label, .str var, ty.dump, iterable.dump,
          body.dump]
    | .switch selector arms =>
      s.node "switch" [selector.dump, .arr (Arm.dumpAll arms)]
    | .return value => s.node "return" [Expr.dumpOption value]
    | .break label => s.node "break" [dumpLabel label]
    | .continue label => s.node "continue" [dumpLabel label]
    | .yield value => s.node "yield" [value.dump]
    | .throw exception => s.node "throw" [exception.dump]
    | .try body catches =>
      s.node "try"
        [.arr (Stmt.dumpAll body), .arr (Catch.dumpAll catches)]
    | .assert cond message =>
      s.node "assert" [cond.dump, Expr.dumpOption message]
    | .superCall signature args =>
      s.node "super" [.str signature, .arr (Expr.dumpAll args)]
    | .probe p =>
      s.node "trace"
        [.arr
          [.str p.name, .arr p.extra,
            .arr (p.operands.attach.map fun ⟨o, _⟩ =>
              .arr [.str o.kind.text, o.expr.dump])]]
termination_by sizeOf s
decreasing_by
  all_goals simp_wf
  all_goals grind [→ Probe.sizeOf_expr]

/- Some statements in full. -/
def Stmt.dumpAll : List Stmt → List Json
  | [] => []
  | s :: rest => s.dump :: Stmt.dumpAll rest
termination_by ss => sizeOf ss

/- A statement in full, or null. -/
def Stmt.dumpOption : Option Stmt → Json
  | none => .null
  | some s => s.dump
termination_by s => sizeOf s

/- Some handlers in full. -/
def Catch.dumpAll : List Catch → List Json
  | [] => []
  | ⟨param, ty, body, span⟩ :: rest =>
    .arr
      [.str param, ty.dump, .arr (Stmt.dumpAll body), span.dump]
      :: Catch.dumpAll rest
termination_by catches => sizeOf catches

end

------------------------------------------------------------
-- Declarations
------------------------------------------------------------

/- A method with its statements in full. -/
def MethodDef.dump (m : MethodDef) : Json :=
  .obj
    [("name", .str m.name), ("signature", .str m.signature),
      ("body",
        Json.ofOption (fun ss => .arr (Stmt.dumpAll ss)) m.body)]

/- A class with its methods in full. -/
def ClassDef.dump (c : ClassDef) : Json :=
  .obj
    [("name", .str c.name),
      ("methods", .arr (c.methods.map MethodDef.dump))]

/- A program in full. -/
def Program.dump (p : Program) : Json :=
  .arr (p.classes.map ClassDef.dump)

end ExecTrace
