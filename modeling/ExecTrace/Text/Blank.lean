/-
  This file defines white space: the characters that leave a
  blank between words, in any script.

  Key definitions include:
    * `isSpace`
    * `dropSpaces`
    * `trimSpaces`
-/

namespace ExecTrace

/- Whether a character is white space. -/
def isSpace (c : Char) : Bool :=
  let n := c.toNat
  (decide (9 ≤ n) && decide (n ≤ 13)) || n == 0x20
    || n == 0x85 || n == 0xA0 || n == 0x1680
    || (decide (0x2000 ≤ n) && decide (n ≤ 0x200A))
    || n == 0x2028 || n == 0x2029 || n == 0x202F
    || n == 0x205F || n == 0x3000

/- Drop the white space at the front. -/
def dropSpaces (cs : List Char) : List Char :=
  cs.dropWhile isSpace

/- Drop the white space at both ends. -/
def trimSpaces (cs : List Char) : List Char :=
  (dropSpaces (dropSpaces cs).reverse).reverse

end ExecTrace
