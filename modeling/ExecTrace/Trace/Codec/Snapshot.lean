import ExecTrace.Span
import ExecTrace.Text.Json.Record
import ExecTrace.Trace.Action

/-
  This file defines the JSON form of snapshots, positions and
  storage locations. A snapshot is written as its kind and its
  value, and a float as the number that its bits spell.

  Key definitions include:
    * `Span.toJson`
    * `Span.ofJson?`
    * `Snapshot.toJson`
    * `Snapshot.ofJson?`
    * `JumpTarget.toJson`
    * `JumpTarget.ofJson?`
    * `Place.toJson`
    * `Place.ofJson?`
-/

namespace ExecTrace

open Json

------------------------------------------------------------
-- Spans
------------------------------------------------------------

namespace Span

/- The fields of a span, in order. -/
def fields : List String :=
  ["file", "start_line", "start_col", "end_line", "end_col"]

/- The JSON form of a span. -/
def toJson (s : Span) : Json :=
  .obj
    [("file", .str s.file),
      ("start_line", .ofNat s.startLine.toNat),
      ("start_col", .ofNat s.startCol.toNat),
      ("end_line", .ofNat s.endLine.toNat),
      ("end_col", .ofNat s.endCol.toNat)]

/- Read a span. -/
def ofJson? (j : Json) : Option Span := do
  let m ← j.record? fields
  let file ← field? m "file" asString?
  let startLine ← field? m "start_line" asUInt32?
  let startCol ← field? m "start_col" asUInt32?
  let endLine ← field? m "end_line" asUInt32?
  let endCol ← field? m "end_col" asUInt32?
  some ⟨file, startLine, startCol, endLine, endCol⟩

end Span

------------------------------------------------------------
-- Snapshots
------------------------------------------------------------

/- The JSON form of a scalar, without its kind. -/
def Scalar.toJson : Scalar → Json
  | .bool b => .bool b
  | .byte v => .int v.toInt
  | .short v => .int v.toInt
  | .int v => .int v.toInt
  | .long v => .int v.toInt
  | .float bits => .ofNat bits.toNat
  | .double bits => .ofNat bits.toNat
  | .char c => .str (String.ofList [c])

/- Read a scalar of a kind. -/
def Scalar.ofJson?
    (kind : Kind)
    (j : Json) : Option Scalar :=
  match kind with
  | .bool => (asBool? j).map .bool
  | .byte => (signed? 8 j).map fun n => .byte (Int8.ofInt n)
  | .short => (signed? 16 j).map fun n => .short (Int16.ofInt n)
  | .int => (signed? 32 j).map fun n => .int (Int32.ofInt n)
  | .long => (signed? 64 j).map fun n => .long (Int64.ofInt n)
  | .float => (asUInt32? j).map .float
  | .double => (asUInt64? j).map .double
  | .char => (asChar? j).map .char
  | .reference => none
  | .array => none

namespace Snapshot

/- A value under its kind. -/
def tagged
    (kind : Kind)
    (value : Json) : Json :=
  .obj [("kind", .str kind.text), ("value", value)]

mutual

/- The JSON form of a snapshot. -/
def toJson : Snapshot → Json
  | .scalar v => tagged v.kind v.toJson
  | .ref identity type display =>
    tagged .reference <| .obj
      [("identity", .ofNat identity.toNat),
        ("type_name", .str type), ("display", .str display)]
  | .arr elements display =>
    tagged .array <| .obj
      [("elements", .arr (toJsonList elements)),
        ("display", .str display)]

/- The JSON forms of some snapshots. -/
def toJsonList : List Snapshot → List Json
  | [] => []
  | s :: rest => s.toJson :: toJsonList rest

end

/- The fields of a reference, in order. -/
def referenceFields : List String :=
  ["identity", "type_name", "display"]

/- Read a reference, without its kind. -/
def referenceOfJson? (j : Json) : Option Snapshot := do
  let m ← j.object? referenceFields
  let identity ← field? m "identity" asUInt64?
  let type ← field? m "type_name" asString?
  let display ← field? m "display" asString?
  some (.ref identity type display)

/- The kind that a document names. -/
def kindOfJson?
    (stage : Stage)
    (j : Json) : Option Kind :=
  (j.unitVariant? stage).bind Kind.ofText?

/- The names of the kinds, in order. -/
def kindNames : List String :=
  ["bool", "byte", "short", "int", "long", "float", "double",
    "char", "reference", "array"]

/- The kind that the first item of a pair names. -/
def kindOfItem?
    (stage : Stage)
    (j : Json) : Option Kind :=
  (j.variant? stage kindNames).bind Kind.ofText?

section Reading

variable (stage : Stage)

mutual

/- Read a snapshot: an object, or a pair of kind and value. -/
def ofJson? : Json → Option Snapshot
  | .obj members =>
    if occursOnce members "kind" && occursOnce members "value"
    then
      match field? members "kind" (kindOfJson? stage) with
      | some kind => valueMember? kind members
      | none => none
    else none
  | .arr [tag, value] =>
    match kindOfItem? stage tag with
    | some kind => ofValue? kind value
    | none => none
  | _ => none

/- Read the value member of a snapshot of a kind. -/
def valueMember?
    (kind : Kind) : List (String × Json) → Option Snapshot
  | [] => none
  | (name, j) :: rest =>
    if name == "value" then ofValue? kind j
    else valueMember? kind rest

/-
  Read the value of a snapshot of a kind. References and arrays
  have an object with their parts.
-/
def ofValue?
    (kind : Kind) : Json → Option Snapshot
  | .obj members =>
    if kind = .array then
      if occursOnce members "elements"
          && occursOnce members "display" then
        match elementsMember? members,
            field? members "display" asString? with
        | some elements, some display =>
          some (.arr elements display)
        | _, _ => none
      else none
    else if kind = .reference then
      referenceOfJson? (.obj members)
    else none
  | j => (Scalar.ofJson? kind j).map .scalar

/- Read the elements member of an array. -/
def elementsMember? :
    List (String × Json) → Option (List Snapshot)
  | [] => none
  | (name, j) :: rest =>
    if name == "elements" then ofItems? j
    else elementsMember? rest

/- Read the elements of an array. -/
def ofItems? : Json → Option (List Snapshot)
  | .arr items => ofJsonList? items
  | _ => none

/- Read some snapshots. -/
def ofJsonList? : List Json → Option (List Snapshot)
  | [] => some []
  | j :: rest =>
    match ofJson? j, ofJsonList? rest with
    | some s, some ss => some (s :: ss)
    | _, _ => none

end

end Reading

end Snapshot

------------------------------------------------------------
-- Targets of jumps
------------------------------------------------------------

namespace JumpTarget

/- The fields of a jump target, in order. -/
def fields : List String :=
  ["construct", "label", "line", "col"]

/- The JSON form of a jump target. -/
def toJson (t : JumpTarget) : Json :=
  .obj
    [("construct", .str t.construct),
      ("label", .ofOption .str t.label),
      ("line", .ofNat t.line.toNat),
      ("col", .ofNat t.col.toNat)]

/- Read a jump target. -/
def ofJson? (j : Json) : Option JumpTarget := do
  let m ← j.record? fields
  let construct ← field? m "construct" asString?
  let label ← optionalField? m "label" asString?
  let line ← field? m "line" asUInt32?
  let col ← field? m "col" asUInt32?
  some ⟨construct, label, line, col⟩

end JumpTarget

------------------------------------------------------------
-- Enclosing frames
------------------------------------------------------------

namespace OuterFrame

/- The fields of a frame, in order. -/
def fields : List String :=
  ["class", "method", "file", "line"]

/- The JSON form of a frame. -/
def toJson (f : OuterFrame) : Json :=
  .obj
    [("class", .str f.cls), ("method", .str f.method),
      ("file", .ofOption .str f.file),
      ("line", .ofOption (fun n => .ofNat n.toNat) f.line)]

/- Read a frame. -/
def ofJson? (j : Json) : Option OuterFrame := do
  let m ← j.record? fields
  let cls ← field? m "class" asString?
  let method ← field? m "method" asString?
  let file ← optionalField? m "file" asString?
  let line ← optionalField? m "line" asUInt32?
  some ⟨cls, method, file, line⟩

end OuterFrame

------------------------------------------------------------
-- Loops and places
------------------------------------------------------------

namespace LoopKind

/- The name of a loop in JSON. -/
def tag : LoopKind → String
  | .while => "while"
  | .doWhile => "do_while"
  | .for => "for"
  | .forEach => "for_each"

/- The JSON form of a loop. -/
def toJson (k : LoopKind) : Json :=
  .str k.tag

/- Read a loop. -/
def ofJson?
    (stage : Stage)
    (j : Json) : Option LoopKind :=
  (j.unitVariant? stage).bind fun s =>
    [LoopKind.while, .doWhile, .for, .forEach].find?
      fun k => k.tag == s

end LoopKind

namespace Place

variable {α : Type}

/- The JSON form of a place whose values have one. -/
def toJson
    (value : α → Json) : Place α → Json
  | .localVar name =>
    .obj [("place", .str "local"), ("name", .str name)]
  | .staticField cls field =>
    .obj
      [("place", .str "static_field"), ("class", .str cls),
        ("field", .str field)]
  | .instanceField cls object field =>
    .obj
      [("place", .str "instance_field"), ("class", .str cls),
        ("instance", value object), ("field", .str field)]
  | .element array index =>
    .obj
      [("place", .str "array_element"), ("array", value array),
        ("index", value index)]

/- The names of the places, in order. -/
def names : List String :=
  ["local", "static_field", "instance_field", "array_element"]

/- Read a place, which is always part of some event. -/
def ofJson?
    (value? : Json → Option α)
    (j : Json) : Option (Place α) := do
  let (tag, rest) ← j.tagged? "place"
  let name ← tag.variant? .deferred names
  match name with
  | "local" =>
    let m ← rest.record? ["name"]
    let name ← field? m "name" asString?
    some (.localVar name)
  | "static_field" =>
    let m ← rest.record? ["class", "field"]
    let cls ← field? m "class" asString?
    let field ← field? m "field" asString?
    some (.staticField cls field)
  | "instance_field" =>
    let m ← rest.record? ["class", "instance", "field"]
    let cls ← field? m "class" asString?
    let object ← field? m "instance" value?
    let field ← field? m "field" asString?
    some (.instanceField cls object field)
  | "array_element" =>
    let m ← rest.record? ["array", "index"]
    let array ← field? m "array" value?
    let index ← field? m "index" value?
    some (.element array index)
  | _ => none

end Place

end ExecTrace
