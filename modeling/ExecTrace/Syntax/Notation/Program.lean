import ExecTrace.Syntax.Notation
import ExecTrace.Text.Json.Record

/-
  This file reads classes and programs from their JSON
  notation. A method without a body is abstract, and the name
  and the result type of a constructor are fixed.

  Key definitions include:
    * `Param.ofNotation`
    * `MethodDef.ofNotation`
    * `FieldDef.ofNotation`
    * `ClassDef.ofNotation`
    * `Program.ofNotation`
-/

namespace ExecTrace

open Json

/- A parameter: its name and its type. -/
def Param.ofNotation : Json → Read Param
  | .arr [.str name, .str ty] => .ok ⟨name, Ty.ofText ty⟩
  | j => .error (.malformed j)

/- A field: its name, its type and, if static, a mark. -/
def FieldDef.ofNotation : Json → Read FieldDef
  | .arr (.str name :: .str ty :: mark) =>
    .ok ⟨name, Ty.ofText ty, !mark.isEmpty⟩
  | j => .error (.malformed j)

/- The body of a method, if it has one. -/
def MethodDef.bodyOfNotation :
    Json → Read (Option (List Stmt))
  | .null => .ok none
  | .arr stmts => (Stmt.listOfNotation stmts).map some
  | j => .error (.malformed j)

/- A method. -/
def MethodDef.ofNotation (j : Json) : Read MethodDef := do
  let params ← (j.member "params").items.mapM Param.ofNotation
  let body ← MethodDef.bodyOfNotation (j.member "body")
  let span := Span.ofNotation (j.member "at")
  match j.member "kind", j.member "name", j.member "ret" with
  | .str "constructor", _, _ =>
    pure { MethodDef.ofConstructor params body with span := span }
  | .str kind, .str name, .str ret =>
    let kind : MethodKind :=
      if kind = "static" then .static else .virtual
    pure ⟨name, kind, params, Ty.ofText ret, body, span⟩
  | _, _, _ => .error (.malformed j)

/- A class. -/
def ClassDef.ofNotation (j : Json) : Read ClassDef := do
  let fields ← (j.member "fields").items.mapM
    FieldDef.ofNotation
  let methods ← (j.member "methods").items.mapM
    MethodDef.ofNotation
  let span := Span.ofNotation (j.member "at")
  match asString? (j.member "name") with
  | some name =>
    pure
      ⟨name, asString? (j.member "extends"), fields, methods,
        span⟩
  | none => .error (.malformed j)

/- A program: an array of classes. -/
def Program.ofNotation (j : Json) : Read Program := do
  let classes ← j.items.mapM ClassDef.ofNotation
  pure ⟨classes⟩

end ExecTrace
