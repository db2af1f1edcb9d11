import ExecTrace.Text.Decimal

/-
  This file computes the remainder of two floating point words.
  The remainder of the exact division is always a floating
  point number itself, so nothing is rounded. It takes the sign
  of the dividend.

  Key definitions include:
    * `Remainder.magnitude`
    * `Remainder.ofWords`
-/

namespace ExecTrace.Remainder

open Decimal

/- The bits of the number that is no number. -/
def nanBits : Nat := 0x7ff8000000000000

/- The sign bit of a word. -/
def signBit (negative : Bool) : Nat :=
  if negative then Nat.pow 2 63 else 0

/-
  The bits of `m * 2 ^ q`, without a sign, where `m` has at
  most 53 bits and `q` is at least `-1074`.
-/
def encode
    (m : Nat)
    (q : Int) : Nat :=
  if m = 0 then 0
  else
    let room := min (52 - m.log2) (q + 1074).toNat
    let full := m * Nat.pow 2 room
    let exponent := q - room
    if full < Nat.pow 2 52 then full
    else
      (exponent + 1075).toNat * Nat.pow 2 52
        + (full - Nat.pow 2 52)

/-
  What remains of `x` after `y` is taken away from it as often
  as possible, as a multiple of the finer of the two units.
-/
def magnitude (x y : Binary) : Nat × Int :=
  let q := min x.q y.q
  let a := x.m * Nat.pow 2 (x.q - q).toNat
  let b := y.m * Nat.pow 2 (y.q - q).toNat
  (a % b, q)

/- The remainder of two words of 64 bits. -/
def ofWords (x y : Nat) : Nat :=
  match FloatLayout.double.decode x,
      FloatLayout.double.decode y with
  | (_, .nan), _ => nanBits
  | _, (_, .nan) => nanBits
  | (_, .infinite), _ => nanBits
  | (_, .finite _), (_, .infinite) => x
  | (negative, .finite a), (_, .finite b) =>
    if b.m = 0 then nanBits
    else
      let (m, q) := magnitude a b
      signBit negative + encode m q

end ExecTrace.Remainder
