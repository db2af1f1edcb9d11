import ExecTrace.Scalar
import ExecTrace.Text.Quoted

/-
  This file defines snapshots: detached copies of the values of
  a running program. Scalars keep their exact bits. A reference
  keeps an identity, the name of its type and a text. An array
  is copied item by item and keeps a text of its own.

  Key definitions include:
    * `Kind`
    * `Snapshot`
    * `Snapshot.null`
    * `Snapshot.reference`
    * `Snapshot.array`
    * `Snapshot.text`
    * `Snapshot.detailed`
-/

namespace ExecTrace

------------------------------------------------------------
-- Kinds
------------------------------------------------------------

/- The variants of a snapshot. -/
inductive Kind where
  | bool
  | byte
  | short
  | int
  | long
  | float
  | double
  | char
  | reference
  | array
  deriving DecidableEq, Repr, Inhabited

namespace Kind

/- Every kind, in order. -/
def all : List Kind :=
  [.bool, .byte, .short, .int, .long, .float, .double, .char,
    .reference, .array]

/- The name of a kind. -/
def text : Kind → String
  | .bool => "bool"
  | .byte => "byte"
  | .short => "short"
  | .int => "int"
  | .long => "long"
  | .float => "float"
  | .double => "double"
  | .char => "char"
  | .reference => "reference"
  | .array => "array"

/- The kind with a name. -/
def ofText? (s : String) : Option Kind :=
  all.find? fun k => k.text == s

/- Whether values of a kind stand for themselves. -/
def isScalar : Kind → Bool
  | .reference => false
  | .array => false
  | _ => true

end Kind

/- The kind of a scalar. -/
def Scalar.kind : Scalar → Kind
  | .bool _ => .bool
  | .byte _ => .byte
  | .short _ => .short
  | .int _ => .int
  | .long _ => .long
  | .float _ => .float
  | .double _ => .double
  | .char _ => .char

------------------------------------------------------------
-- Snapshots
------------------------------------------------------------

/- A detached copy of a value. -/
inductive Snapshot where
  | scalar (value : Scalar)
  | ref (identity : UInt64) (type display : String)
  | arr (elements : List Snapshot) (display : String)
  deriving Repr, Inhabited

namespace Snapshot

/- The text of a value whose own text could not be computed. -/
def placeholder : String := "<??>"

/- The type name of the null snapshot. -/
def nullType : String := "Null"

/- The null snapshot: identity zero and a type of its own. -/
def null : Snapshot :=
  .ref 0 nullType "null"

/- Whether a snapshot is null; its text does not matter. -/
def isNull : Snapshot → Bool
  | .ref identity type _ => identity == 0 && type == nullType
  | _ => false

/- The kind of a snapshot. -/
def kind : Snapshot → Kind
  | .scalar v => v.kind
  | .ref .. => .reference
  | .arr .. => .array

/- The text of a snapshot. -/
def text : Snapshot → String
  | .scalar v => v.plainText
  | .ref _ _ display => display
  | .arr _ display => display

/- The text of a snapshot, a reference with type and identity. -/
def detailed (s : Snapshot) : String :=
  match s with
  | .ref identity type display =>
    if s.isNull then display
    else
      type ++ "@" ++ Quoted.hexDigits identity.toNat ++ ": "
        ++ display
  | s => s.text

/-
  A reference whose text comes from foreign code: when there is
  no text, the placeholder stands in.
-/
def reference
    (identity : UInt64)
    (type : String)
    (display : Option String) : Snapshot :=
  .ref identity type (display.getD placeholder)

/- The texts of some snapshots, separated by commas. -/
def texts (ss : List Snapshot) : String :=
  String.intercalate ", " (ss.map text)

/- An array with the text of its elements in brackets. -/
def array (elements : List Snapshot) : Snapshot :=
  .arr elements ("[" ++ texts elements ++ "]")

/- The truth value of a snapshot. -/
def asBool : Snapshot → Option Bool
  | .scalar (.bool b) => some b
  | _ => none

/- The integer that a snapshot holds, characters included. -/
def asInt : Snapshot → Option Int
  | .scalar (.byte v) => some v.toInt
  | .scalar (.short v) => some v.toInt
  | .scalar (.int v) => some v.toInt
  | .scalar (.long v) => some v.toInt
  | .scalar (.char c) => some c.toNat
  | _ => none

------------------------------------------------------------
-- Equality
------------------------------------------------------------

mutual

/- Equality of snapshots is decidable; floats compare by bits. -/
def decideEq : (a b : Snapshot) → Decidable (a = b)
  | .scalar v, .scalar w => decidable_of_iff (v = w) (by simp)
  | .ref i t d, .ref i' t' d' =>
    decidable_of_iff (i = i' ∧ t = t' ∧ d = d') (by simp)
  | .arr es d, .arr es' d' =>
    match decideEqList es es' with
    | .isTrue hList =>
      decidable_of_iff (d = d') (by simp [hList])
    | .isFalse hList => .isFalse (by simp [hList])
  | .scalar _, .ref .. => .isFalse nofun
  | .scalar _, .arr .. => .isFalse nofun
  | .ref .., .scalar _ => .isFalse nofun
  | .ref .., .arr .. => .isFalse nofun
  | .arr .., .scalar _ => .isFalse nofun
  | .arr .., .ref .. => .isFalse nofun

/- Equality of lists of snapshots is decidable. -/
def decideEqList : (a b : List Snapshot) → Decidable (a = b)
  | [], [] => .isTrue rfl
  | [], _ :: _ => .isFalse nofun
  | _ :: _, [] => .isFalse nofun
  | a :: as, b :: bs =>
    match decideEq a b, decideEqList as bs with
    | .isTrue hHead, .isTrue hTail =>
      .isTrue (by rw [hHead, hTail])
    | .isFalse hHead, _ => .isFalse (by simp [hHead])
    | _, .isFalse hTail => .isFalse (by simp [hTail])

end

instance : DecidableEq Snapshot := decideEq

end Snapshot

end ExecTrace
