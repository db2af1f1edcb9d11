import ExecTrace.Text.Decimal

/-
  This file defines the scalar values of the language and their
  texts. Floating point values are held as their bits, so equal
  scalars have equal bits.

  Key definitions include:
    * `Scalar`
    * `Scalar.plainText`
    * `Scalar.canonical`
    * `Scalar.programText`
-/

namespace ExecTrace

/- A value that is not a reference. -/
inductive Scalar where
  | bool (value : Bool)
  | byte (value : Int8)
  | short (value : Int16)
  | int (value : Int32)
  | long (value : Int64)
  | float (bits : UInt32)
  | double (bits : UInt64)
  | char (value : Char)
  deriving DecidableEq, Repr, Inhabited

namespace Scalar

/- The text of a truth value. -/
def boolText (b : Bool) : String :=
  if b then "true" else "false"

/-
  The text in a trace: a float has the shortest digits of its
  own width and no point when it is integral.
-/
def plainText : Scalar → String
  | .bool b => boolText b
  | .byte v => toString v.toInt
  | .short v => toString v.toInt
  | .int v => toString v.toInt
  | .long v => toString v.toInt
  | .float bits => Decimal.plainText .single bits.toNat
  | .double bits => Decimal.plainText .double bits.toNat
  | .char c => String.ofList [c]

/-
  The bits of a 32-bit float, or of one fixed value if it is
  not a number.
-/
def canonicalFloat (bits : UInt32) : UInt32 :=
  if bits &&& 0x7fffffff > 0x7f800000 then 0x7fc00000 else bits

/-
  The bits of a 64-bit float, or of one fixed value if it is
  not a number.
-/
def canonicalDouble (bits : UInt64) : UInt64 :=
  if bits &&& 0x7fffffffffffffff > 0x7ff0000000000000 then
    0x7ff8000000000000
  else bits

/- A scalar with one value for all that is not a number. -/
def canonical : Scalar → Scalar
  | .float bits => .float (canonicalFloat bits)
  | .double bits => .double (canonicalDouble bits)
  | s => s

/- The bits of a 32-bit float, widened to 64 bits. -/
def widenFloat (bits : UInt32) : UInt64 :=
  (Float32.ofBits bits).toFloat.toBits

/-
  The text that a program gets when it converts a value to a
  string: floats are widened to 64 bits, and integral ones below
  `10 ^ 7` keep one zero after the point.
-/
def programText : Scalar → String
  | .float bits =>
    Decimal.pointedText .double (widenFloat bits).toNat
  | .double bits => Decimal.pointedText .double bits.toNat
  | s => s.plainText

end Scalar

end ExecTrace
