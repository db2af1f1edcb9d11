import ExecTrace.Machine.Val
import ExecTrace.Syntax.Notation
import ExecTrace.Trace.Codec.Snapshot

/-
  This file defines the JSON notation of running values: how a
  host writes the arguments of a call, and how values are shown
  to it together with what they refer to.

  Key definitions include:
    * `Val.ofNotation`
    * `Heap.display`
-/

namespace ExecTrace

open Json

------------------------------------------------------------
-- Reading
------------------------------------------------------------

/- A host that puts objects and arrays on the heap. -/
abbrev Placing := StateM Heap

/- Put an array on the heap. -/
def Placing.array (c : ArrayCell) : Placing Val :=
  modifyGet fun h => ((h.addArray c).2, (h.addArray c).1)

/- Put an object on the heap. -/
def Placing.object (o : Object) : Placing Val :=
  modifyGet fun h => ((h.addObject o).2, (h.addObject o).1)

/- The scalar of a type that a document spells. -/
def Scalar.ofNotation? : String → Json → Option Scalar
  | "bool", .bool b => some (.bool b)
  | "byte", .int n => some (.byte (Int8.ofInt n))
  | "short", .int n => some (.short (Int16.ofInt n))
  | "int", .int n => some (.int (Int32.ofInt n))
  | "long", .int n => some (.long (Int64.ofInt n))
  | "float", .int n => some (.float (UInt32.ofInt n))
  | "double", .int n => some (.double (UInt64.ofInt n))
  | "char", .str s => s.toList.head?.map .char
  | _, _ => none

/-
  A value that refers to nothing new. `earlier` holds the
  results of the calls so far, which can be named by position.
-/
def Val.plainOfNotation
    (earlier : List Val)
    (tag : String)
    (j : Json) : Val :=
  match tag, j with
  | "null", _ => .null
  | "str", .str s => .str s
  | "default", .str ty => Val.defaultOf (Ty.ofText ty)
  | "result", .int i => earlier.getD i.toNat .void
  | "literal", j =>
    match Literal.ofNotation? j with
    | some l => Val.ofLiteral l
    | none => .void
  | tag, j =>
    match Scalar.ofNotation? tag j with
    | some s => .scalar s
    | none => .void

mutual

/-
  A value; what has no meaning is read as `void`. Items and
  fields are placed before what holds them.
-/
def Val.ofNotation (earlier : List Val) : Json → Placing Val
  | .obj members => do
    let whole := Json.obj members
    let id := UInt64.ofNat
      (((asUInt64? (whole.member "id")).map (·.toNat)).getD 0)
    match whole.member "t" with
    | .str "array" => do
      let items ← Val.itemsOfNotation earlier members
      let element :=
        Ty.ofText ((asString? (whole.member "element")).getD "")
      Placing.array ⟨id, element, items.toArray⟩
    | .str "object" => do
      let fields ← Val.fieldsOfNotation earlier members
      let cls := (asString? (whole.member "class")).getD ""
      Placing.object ⟨id, cls, fields⟩
    | .str tag =>
      pure (Val.plainOfNotation earlier tag (whole.member "v"))
    | _ => pure .void
  | _ => pure .void

/- The items among the members of an array. -/
def Val.itemsOfNotation
    (earlier : List Val) :
    List (String × Json) → Placing (List Val)
  | [] => pure []
  | ("items", .arr js) :: _ => Val.listOfNotation earlier js
  | _ :: rest => Val.itemsOfNotation earlier rest

/- Some values. -/
def Val.listOfNotation
    (earlier : List Val) : List Json → Placing (List Val)
  | [] => pure []
  | j :: rest => do
    let v ← Val.ofNotation earlier j
    let vs ← Val.listOfNotation earlier rest
    pure (v :: vs)

/- The fields among the members of an object. -/
def Val.fieldsOfNotation
    (earlier : List Val) :
    List (String × Json) → Placing (Bindings String)
  | [] => pure []
  | ("fields", .obj fields) :: _ =>
    Val.bindingsOfNotation earlier fields
  | _ :: rest => Val.fieldsOfNotation earlier rest

/- Some values under names. -/
def Val.bindingsOfNotation
    (earlier : List Val) :
    List (String × Json) → Placing (Bindings String)
  | [] => pure []
  | (name, j) :: rest => do
    let v ← Val.ofNotation earlier j
    let vs ← Val.bindingsOfNotation earlier rest
    pure ((name, v) :: vs)

end

------------------------------------------------------------
-- Showing
------------------------------------------------------------

/- The name of the type of a scalar in the notation. -/
def Scalar.notationTag : Scalar → String
  | .bool _ => "bool"
  | .byte _ => "byte"
  | .short _ => "short"
  | .int _ => "int"
  | .long _ => "long"
  | .float _ => "float"
  | .double _ => "double"
  | .char _ => "char"

/-
  A value with what it refers to, down to a number of levels;
  at the bottom the contents of objects and arrays are left out.
-/
def Heap.display
    (h : Heap)
    (levels : Nat)
    (v : Val) : Json :=
  match v with
  | .void => .obj [("t", .str "void")]
  | .null => .obj [("t", .str "null")]
  | .str s => .obj [("t", .str "str"), ("v", .str s)]
  | .scalar s =>
    .obj
      [("t", .str s.notationTag), ("v", s.canonical.toJson)]
  | .obj a =>
    let head :=
      [("t", Json.str "object"), ("class", .str (h.classOf a)),
        ("id", .ofNat (h.identity v).toNat)]
    match levels with
    | 0 => .obj head
    | levels + 1 =>
      let fields := (h.fieldsOf a).map fun (name, w) =>
        (name, h.display levels w)
      .obj (head ++ [("fields", .obj fields)])
  | .arr a =>
    let head :=
      [("t", Json.str "array"),
        ("element", .str (h.elementOf a).text),
        ("id", .ofNat (h.identity v).toNat)]
    match levels with
    | 0 => .obj head
    | levels + 1 =>
      let items := (h.itemsOf a).toList.map (h.display levels)
      .obj (head ++ [("items", .arr items)])

/- A number with its kind. -/
def Number.display : Number → Json
  | .int v => .arr [.str "int", .int v.toInt]
  | .long v => .arr [.str "long", .int v.toInt]
  | .float bits =>
    .arr
      [.str "float",
        .ofNat (Scalar.canonicalFloat bits).toNat]
  | .double bits =>
    .arr
      [.str "double",
        .ofNat (Scalar.canonicalDouble bits).toNat]

end ExecTrace
