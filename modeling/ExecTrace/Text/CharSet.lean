/-
  This file defines sets of characters, kept as ranges of code
  points in ascending order that do not touch each other.

  Key definitions include:
    * `CharSet`
    * `CharSet.holds`
    * `CharSet.ofRanges`
    * `CharSet.complement`
    * `CharSet.union`
    * `CharSet.inter`
    * `CharSet.without`
    * `CharSet.differing`
    * `CharSet.caseless`
-/

namespace ExecTrace

/- A set of characters: the first and last code of each range. -/
structure CharSet where
  ranges : List (Nat × Nat)
  deriving DecidableEq, Repr

namespace CharSet

------------------------------------------------------------
-- Membership
------------------------------------------------------------

/- Whether a set holds a code point. -/
def holdsCode
    (s : CharSet)
    (n : Nat) : Bool :=
  s.ranges.any fun (first, last) =>
    decide (first ≤ n) && decide (n ≤ last)

/- Whether a set holds a character. -/
def holds
    (s : CharSet)
    (c : Char) : Bool :=
  s.holdsCode c.toNat

/- The set without characters. -/
def empty : CharSet := ⟨[]⟩

/- Whether a set has no ranges. -/
def isEmpty (s : CharSet) : Bool :=
  s.ranges.isEmpty

------------------------------------------------------------
-- Building
------------------------------------------------------------

/-
  A range and the ranges after it, which start no earlier, where
  ranges that touch are joined.
-/
def joined
    (first last : Nat) : List (Nat × Nat) → List (Nat × Nat)
  | [] => [(first, last)]
  | (first', last') :: rest =>
    if first' ≤ last + 1 then
      joined first (max last last') rest
    else
      (first, last) :: joined first' last' rest

/- The characters in any of some ranges. -/
def ofRanges (ranges : List (Nat × Nat)) : CharSet :=
  let ordered := ranges.mergeSort fun a b => decide (a.1 ≤ b.1)
  match ordered with
  | [] => empty
  | (first, last) :: rest => ⟨joined first last rest⟩

/- The characters between two characters. -/
def range
    (first last : Char) : CharSet :=
  ⟨[(first.toNat, last.toNat)]⟩

/- The set of one character. -/
def single (c : Char) : CharSet :=
  range c c

/- The characters between some pairs of characters. -/
def ofPairs (pairs : List (Char × Char)) : CharSet :=
  ofRanges (pairs.map fun (a, b) => (a.toNat, b.toNat))

------------------------------------------------------------
-- Operations
------------------------------------------------------------

/- The largest code point. -/
def maxCode : Nat := 0x10FFFF

/- What some ranges leave out from a code point on. -/
def gaps
    (start : Nat) : List (Nat × Nat) → List (Nat × Nat)
  | [] => if start ≤ maxCode then [(start, maxCode)] else []
  | (first, last) :: rest =>
    if start < first then
      (start, first - 1) :: gaps (last + 1) rest
    else
      gaps (last + 1) rest

/- The characters outside a set. -/
def complement (s : CharSet) : CharSet :=
  ⟨gaps 0 s.ranges⟩

/- The characters in one set or the other. -/
def union (a b : CharSet) : CharSet :=
  ofRanges (a.ranges ++ b.ranges)

/- The characters in both sets. -/
def inter (a b : CharSet) : CharSet :=
  (a.complement.union b.complement).complement

/- The characters in the first set only. -/
def without (a b : CharSet) : CharSet :=
  a.inter b.complement

/- The characters in exactly one of two sets. -/
def differing (a b : CharSet) : CharSet :=
  (a.without b).union (b.without a)

------------------------------------------------------------
-- Upper and lower case
------------------------------------------------------------

/-
  The forms of each letter of the basic alphabet. The kelvin
  sign is a form of `k` and the long `s` is one of `s`.
-/
def letterForms : List (List Nat) :=
  (List.range 26).map fun i =>
    let forms := [65 + i, 97 + i]
    if i = 10 then forms ++ [0x212A]
    else if i = 18 then forms ++ [0x17F]
    else forms

/- A set with every form of the letters that it holds. -/
def caseless (s : CharSet) : CharSet :=
  let forms := letterForms.filter fun forms =>
    forms.any s.holdsCode
  forms.flatten.foldl (fun s n => s.union ⟨[(n, n)]⟩) s

end CharSet

end ExecTrace
