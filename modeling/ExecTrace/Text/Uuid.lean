import ExecTrace.Text.Hexadecimal
import ExecTrace.Text.Quoted

/-
  This file defines 128-bit identifiers and their text: five
  groups of hexadecimal digits in lower case. Upper case, a
  text without hyphens, one in braces and one behind `urn:uuid:`
  are read as well, where the scheme may be in either case.

  Key definitions include:
    * `Uuid`
    * `Uuid.text`
    * `Uuid.ofText?`
-/

namespace ExecTrace

/- A 128-bit identifier. -/
structure Uuid where
  value : BitVec 128
  deriving DecidableEq, Repr, Inhabited

namespace Uuid

/- The digits of an identifier, most significant first. -/
def digits (u : Uuid) : List Char :=
  (List.range 32).map fun i =>
    Quoted.hexDigit (u.value.toNat / Nat.pow 16 (31 - i) % 16)

/- Groups of eight, four, four, four and twelve digits. -/
def text (u : Uuid) : String :=
  let ds := u.digits
  let group := fun (start count : Nat) =>
    (ds.drop start).take count
  String.ofList
    (group 0 8 ++ ['-'] ++ group 8 4 ++ ['-'] ++ group 12 4
      ++ ['-'] ++ group 16 4 ++ ['-'] ++ group 20 12)

/- The identifier that 32 digits spell. -/
def ofDigits? (cs : List Char) : Option Uuid :=
  if cs.length = 32 then
    (Hexadecimal.number? cs).map fun n => ⟨BitVec.ofNat 128 n⟩
  else
    none

/- The digits of a text with hyphens after 8, 12, 16 and 20. -/
def ungrouped? (cs : List Char) : Option (List Char) :=
  let hyphens := [8, 13, 18, 23]
  if cs.length = 36 ∧ hyphens.all (fun i => cs[i]? == some '-') then
    some
      (cs.take 8 ++ (cs.drop 9).take 4 ++ (cs.drop 14).take 4
        ++ (cs.drop 19).take 4 ++ cs.drop 24)
  else
    none

/- Take the braces or the scheme off a text. -/
def unwrapped (cs : List Char) : List Char :=
  let scheme := "urn:uuid:".toList
  let start := (cs.take scheme.length).map Char.toLower
  if cs.length = 38 ∧ cs.head? = some '\x7b'
      ∧ cs.getLast? = some '\x7d' then
    cs.tail.dropLast
  else if start = scheme then
    cs.drop scheme.length
  else
    cs

/- The identifier that a text spells. -/
def ofText? (s : String) : Option Uuid :=
  let cs := s.toList
  match ofDigits? cs with
  | some u => some u
  | none => (ungrouped? (unwrapped cs)).bind ofDigits?

end Uuid

end ExecTrace
