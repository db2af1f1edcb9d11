import ExecTrace.Trace.Snapshot

/-
  This file defines the static types of the language, their
  texts, and the promotion of numeric types.

  Key definitions include:
    * `Ty`
    * `Ty.kind?`
    * `Ty.promote`
    * `Ty.promoteUnary`
    * `Ty.text`
    * `Ty.ofText`
    * `signature`
-/

namespace ExecTrace

------------------------------------------------------------
-- Types
------------------------------------------------------------

/- A static type; `null` is the type of the null literal. -/
inductive Ty where
  | void
  | bool
  | byte
  | short
  | int
  | long
  | float
  | double
  | char
  | str
  | null
  | cls (name : String)
  | array (element : Ty)
  deriving DecidableEq, Repr, Inhabited

namespace Ty

/- The type of everything that can be thrown. -/
def throwable : Ty :=
  .cls "Throwable"

/- Whether values of a type are integers or characters. -/
def isIntegral : Ty → Bool
  | .byte | .short | .int | .long | .char => true
  | _ => false

/- Whether values of a type are numbers or characters. -/
def isNumeric : Ty → Bool
  | .float | .double => true
  | t => t.isIntegral

/- Whether values of a type are scalars. -/
def isPrimitive (t : Ty) : Bool :=
  t.isNumeric || t == .bool

/- Whether values of a type are references. -/
def isReference : Ty → Bool
  | .str | .null | .cls _ | .array _ => true
  | _ => false

/- The type of the elements of an array type. -/
def element? : Ty → Option Ty
  | .array element => some element
  | _ => none

/-
  The kind of snapshot that is taken of values of a type; there
  are no values of type `void`.
-/
def kind? : Ty → Option Kind
  | .void => none
  | .bool => some .bool
  | .byte => some .byte
  | .short => some .short
  | .int => some .int
  | .long => some .long
  | .float => some .float
  | .double => some .double
  | .char => some .char
  | .str | .null | .cls _ => some .reference
  | .array _ => some .array

------------------------------------------------------------
-- Promotion
------------------------------------------------------------

/- The type in which two numbers are combined. -/
def promote (a b : Ty) : Ty :=
  if a = .double ∨ b = .double then .double
  else if a = .float ∨ b = .float then .float
  else if a = .long ∨ b = .long then .long
  else .int

/- The type in which an operator with one operand works. -/
def promoteUnary : Ty → Ty
  | .byte | .short | .char => .int
  | t => t

------------------------------------------------------------
-- Texts
------------------------------------------------------------

/- The written form of a type. -/
def text : Ty → String
  | .void => "void"
  | .bool => "boolean"
  | .byte => "byte"
  | .short => "short"
  | .int => "int"
  | .long => "long"
  | .float => "float"
  | .double => "double"
  | .char => "char"
  | .str => "String"
  | .null => "null"
  | .cls name => name
  | .array element => element.text ++ "[]"

/- The type with a name; most names are those of classes. -/
def ofName : String → Ty
  | "void" => .void
  | "boolean" => .bool
  | "byte" => .byte
  | "short" => .short
  | "int" => .int
  | "long" => .long
  | "float" => .float
  | "double" => .double
  | "char" => .char
  | "String" => .str
  | "null" => .null
  | name => .cls name

/- The type whose written form is given back to front. -/
def ofReversed : List Char → Ty
  | ']' :: '[' :: rest => .array (ofReversed rest)
  | cs => ofName (String.ofList cs.reverse)

/- The type with a written form. -/
def ofText (s : String) : Ty :=
  ofReversed s.toList.reverse

end Ty

/- The written form of parameter types and a result type. -/
def signature
    (params : List Ty)
    (result : Ty) : String :=
  "(" ++ String.intercalate "," (params.map Ty.text) ++ ")"
    ++ result.text

end ExecTrace
