import ExecTrace.Scalar
import ExecTrace.Syntax.Ty

/-
  This file defines promoted numbers and the conversions
  between the numeric types. Narrowing an integer keeps its low
  bits; a float becomes the nearest integer towards zero that
  the type can hold, and zero if it is no number.

  Key definitions include:
    * `Number`
    * `Scalar.number?`
    * `Number.toInt32`
    * `Number.toInt64`
    * `Number.toDouble`
    * `Number.toSingle`
    * `charOfUnit`
    * `Scalar.convert`
-/

namespace ExecTrace

------------------------------------------------------------
-- Numbers
------------------------------------------------------------

/- A number after promotion; floats are held as their bits. -/
inductive Number where
  | int (value : Int32)
  | long (value : Int64)
  | float (bits : UInt32)
  | double (bits : UInt64)
  deriving DecidableEq, Repr, Inhabited

/- The promoted number that a scalar holds. -/
def Scalar.number? : Scalar → Option Number
  | .bool _ => none
  | .byte v => some (.int v.toInt32)
  | .short v => some (.int v.toInt32)
  | .int v => some (.int v)
  | .long v => some (.long v)
  | .float bits => some (.float bits)
  | .double bits => some (.double bits)
  | .char c => some (.int (Int32.ofNat c.toNat))

namespace Number

/- The scalar that holds a number. -/
def scalar : Number → Scalar
  | .int v => .int v
  | .long v => .long v
  | .float bits => .float bits
  | .double bits => .double bits

------------------------------------------------------------
-- Conversions
------------------------------------------------------------

/- The bits of a number as a 64-bit float. -/
def toDouble : Number → UInt64
  | .int v => v.toInt64.toFloat.toBits
  | .long v => v.toFloat.toBits
  | .float bits => Scalar.widenFloat bits
  | .double bits => bits

/- The bits of a number as a 32-bit float, through 64 bits. -/
def toSingle : Number → UInt32
  | .float bits => bits
  | n => (Float.ofBits n.toDouble).toFloat32.toBits

/- A number as an integer of 32 bits. -/
def toInt32 : Number → Int32
  | .int v => v
  | .long v => v.toInt32
  | n => (Float.ofBits n.toDouble).toInt32

/- A number as an integer of 64 bits. -/
def toInt64 : Number → Int64
  | .int v => v.toInt64
  | .long v => v
  | n => (Float.ofBits n.toDouble).toInt64

end Number

/-
  The character of a code unit of 16 bits. Half of a surrogate
  pair is no character and is replaced.
-/
def charOfUnit (unit : UInt16) : Char :=
  if 0xD800 ≤ unit.toNat ∧ unit.toNat ≤ 0xDFFF then '\uFFFD'
  else Char.ofNat unit.toNat

/- The numeric scalar of a type; other types hold it as it is. -/
def Number.convert
    (n : Number)
    (ty : Ty)
    (s : Scalar) : Scalar :=
  match ty with
  | .byte => .byte n.toInt64.toInt8
  | .short => .short n.toInt64.toInt16
  | .int => .int n.toInt32
  | .long => .long n.toInt64
  | .float => .float n.toSingle
  | .double => .double n.toDouble
  | .char => .char (charOfUnit n.toInt64.toInt16.toUInt16)
  | _ => s

/-
  A scalar as it is stored in a place of a type: numbers are
  widened or narrowed, all else stays.
-/
def Scalar.convert
    (s : Scalar)
    (ty : Ty) : Scalar :=
  match s.number? with
  | some n => n.convert ty s
  | none => s

end ExecTrace
