/-
  This file reads hexadecimal digits of either case.

  Key definitions include:
    * `Hexadecimal.value?`
    * `Hexadecimal.number?`
    * `Hexadecimal.char?`
-/

namespace ExecTrace.Hexadecimal

/- The value of a digit. -/
def value? (c : Char) : Option Nat :=
  if '0' ≤ c ∧ c ≤ '9' then some (c.toNat - 48)
  else if 'a' ≤ c ∧ c ≤ 'f' then some (c.toNat - 87)
  else if 'A' ≤ c ∧ c ≤ 'F' then some (c.toNat - 55)
  else none

/- The number that some digits spell. -/
def number? (cs : List Char) : Option Nat := do
  let ds ← cs.mapM value?
  return ds.foldl (fun n d => 16 * n + d) 0

/- The character whose code some digits spell. -/
def char? (cs : List Char) : Option Char := do
  let n ← number? cs
  if n < 0xD800 ∨ (0xE000 ≤ n ∧ n < 0x110000) then
    some (Char.ofNat n)
  else
    none

end ExecTrace.Hexadecimal
