import ExecTrace.Number
import ExecTrace.Number.Remainder
import ExecTrace.Syntax.Operator

/-
  This file defines the operators on numbers and truth values.
  Integers wrap around, division goes towards zero, and a shift
  uses the low bits of its count. A 32-bit float is computed
  with 64 bits and rounded once more.

  Key definitions include:
    * `Number.negate`
    * `Number.complement`
    * `Number.shift`
    * `Number.order`
    * `Number.combine`
    * `boolBinary`
-/

namespace ExecTrace

/- Why an operator has no result. -/
inductive NumberError where
  | divideByZero
  | unsupported (what : String)
  deriving DecidableEq, Repr

namespace Number

------------------------------------------------------------
-- One operand
------------------------------------------------------------

/- Flip the sign bit of a word of 64 bits. -/
def flipSign64 (bits : UInt64) : UInt64 :=
  bits ^^^ 0x8000000000000000

/- Flip the sign bit of a word of 32 bits. -/
def flipSign32 (bits : UInt32) : UInt32 :=
  bits ^^^ 0x80000000

/- The number with the opposite sign. -/
def negate : Number → Number
  | .int v => .int (-v)
  | .long v => .long (-v)
  | .float bits => .float (flipSign32 bits)
  | .double bits => .double (flipSign64 bits)

/- The integer with all bits flipped; floats have none. -/
def complement : Number → Option Number
  | .int v => some (.int (~~~v))
  | .long v => some (.long (~~~v))
  | _ => none

/- The number without its sign; the least integer keeps it. -/
def magnitude : Number → Number
  | .int v => .int (if v < 0 then -v else v)
  | .long v => .long (if v < 0 then -v else v)
  | .float bits => .float (bits &&& 0x7fffffff)
  | .double bits => .double (bits &&& 0x7fffffffffffffff)

------------------------------------------------------------
-- Shifts
------------------------------------------------------------

/- Shift an integer of 32 bits. -/
def shift32
    (op : BinaryOp)
    (v : Int32)
    (count : Int64) : Int32 :=
  let n := (count &&& 31).toInt32
  match op with
  | .shl => v <<< n
  | .shr => v >>> n
  | _ => (v.toUInt32 >>> n.toUInt32).toInt32

/- Shift an integer of 64 bits. -/
def shift64
    (op : BinaryOp)
    (v : Int64)
    (count : Int64) : Int64 :=
  let n := count &&& 63
  match op with
  | .shl => v <<< n
  | .shr => v >>> n
  | _ => (v.toUInt64 >>> n.toUInt64).toInt64

/- The written form of a float that cannot be shifted. -/
def shiftText : Number → String
  | .int v => "Int(" ++ toString v.toInt ++ ")"
  | .long v => "Long(" ++ toString v.toInt ++ ")"
  | .float bits =>
    "Float(" ++ Decimal.literalText .single bits.toNat ++ ")"
  | .double bits =>
    "Double(" ++ Decimal.literalText .double bits.toNat ++ ")"

/- Shift an integer, in its own width. -/
def shift
    (op : BinaryOp)
    (a b : Number) : Except NumberError Number :=
  match a with
  | .int v => .ok (.int (shift32 op v b.toInt64))
  | .long v => .ok (.long (shift64 op v b.toInt64))
  | a => .error (.unsupported ("shift of " ++ a.shiftText))

------------------------------------------------------------
-- Comparison
------------------------------------------------------------

/- The wider of two numeric types, as a position. -/
def rank : Number → Nat
  | .int _ => 0
  | .long _ => 1
  | .float _ => 2
  | .double _ => 3

/- The order of two words; a word that is no number has none. -/
def compareWords (x y : UInt64) : Option Ordering :=
  let a := Float.ofBits x
  let b := Float.ofBits y
  if a < b then some .lt
  else if b < a then some .gt
  else if a == b then some .eq
  else none

/- The order of two numbers in the wider of their types. -/
def order (a b : Number) : Option Ordering :=
  match max a.rank b.rank with
  | 0 => some (compare a.toInt32 b.toInt32)
  | 1 => some (compare a.toInt64 b.toInt64)
  | 2 =>
    compareWords (Scalar.widenFloat a.toSingle)
      (Scalar.widenFloat b.toSingle)
  | _ => compareWords a.toDouble b.toDouble

/- Whether an order is one that a comparison asks for. -/
def holds
    (op : BinaryOp)
    (o : Option Ordering) : Bool :=
  match op with
  | .eq => o == some .eq
  | .ne => o != some .eq
  | .lt => o == some .lt
  | .le => o == some .lt || o == some .eq
  | .gt => o == some .gt
  | _ => o == some .gt || o == some .eq

------------------------------------------------------------
-- Combination
------------------------------------------------------------

/- Combine integers of 32 bits. -/
def combine32
    (op : BinaryOp)
    (x y : Int32) : Except NumberError Int32 :=
  match op with
  | .add => .ok (x + y)
  | .sub => .ok (x - y)
  | .mul => .ok (x * y)
  | .div => if y = 0 then .error .divideByZero else .ok (x / y)
  | .rem => if y = 0 then .error .divideByZero else .ok (x % y)
  | .bitAnd => .ok (x &&& y)
  | .bitOr => .ok (x ||| y)
  | .bitXor => .ok (x ^^^ y)
  | op => .error (.unsupported op.symbol)

/- Combine integers of 64 bits. -/
def combine64
    (op : BinaryOp)
    (x y : Int64) : Except NumberError Int64 :=
  match op with
  | .add => .ok (x + y)
  | .sub => .ok (x - y)
  | .mul => .ok (x * y)
  | .div => if y = 0 then .error .divideByZero else .ok (x / y)
  | .rem => if y = 0 then .error .divideByZero else .ok (x % y)
  | .bitAnd => .ok (x &&& y)
  | .bitOr => .ok (x ||| y)
  | .bitXor => .ok (x ^^^ y)
  | op => .error (.unsupported op.symbol)

/- Combine floats of 64 bits. -/
def combineWords
    (op : BinaryOp)
    (x y : UInt64) : Except NumberError UInt64 :=
  match op with
  | .add => .ok (Float.ofBits x + Float.ofBits y).toBits
  | .sub => .ok (Float.ofBits x - Float.ofBits y).toBits
  | .mul => .ok (Float.ofBits x * Float.ofBits y).toBits
  | .div => .ok (Float.ofBits x / Float.ofBits y).toBits
  | .rem =>
    .ok (UInt64.ofNat (Remainder.ofWords x.toNat y.toNat))
  | op => .error (.unsupported ("floating " ++ op.symbol))

/- Combine two numbers in the wider of their types. -/
def combine
    (op : BinaryOp)
    (a b : Number) : Except NumberError Number :=
  match max a.rank b.rank with
  | 0 => (combine32 op a.toInt32 b.toInt32).map .int
  | 1 => (combine64 op a.toInt64 b.toInt64).map .long
  | 2 =>
    (combineWords op (Scalar.widenFloat a.toSingle)
      (Scalar.widenFloat b.toSingle)).map
      fun bits => .float (Number.double bits).toSingle
  | _ => (combineWords op a.toDouble b.toDouble).map .double

/- Apply an operator to two numbers. -/
def binary
    (op : BinaryOp)
    (a b : Number) : Except NumberError Scalar :=
  if op.isShift then (shift op a b).map scalar
  else if op.isComparison then
    .ok (.bool (holds op (order a b)))
  else (combine op a b).map scalar

end Number

------------------------------------------------------------
-- Truth values
------------------------------------------------------------

/- Apply an operator to two truth values. -/
def boolBinary
    (op : BinaryOp)
    (a b : Bool) : Except NumberError Bool :=
  match op with
  | .bitAnd | .and => .ok (a && b)
  | .bitOr | .or => .ok (a || b)
  | .bitXor | .ne => .ok (a != b)
  | .eq => .ok (a == b)
  | op => .error (.unsupported ("boolean " ++ op.symbol))

end ExecTrace
