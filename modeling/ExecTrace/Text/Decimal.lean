/-
  This file writes binary floating point words in decimal. The
  digits are the fewest that read back to the word, chosen by
  exact arithmetic on natural numbers: a word stands for the
  interval of reals that round to it, and the first decimal
  grid with a point in that interval supplies the digits.

  Key definitions include:
    * `FloatLayout`
    * `FloatLayout.decode`
    * `Binary.readsBack`
    * `Binary.shortest`
    * `plainText`
    * `pointedText`
    * `literalText`
-/

namespace ExecTrace.Decimal

------------------------------------------------------------
-- Words
------------------------------------------------------------

/- The widths of the fields of a floating point word. -/
structure FloatLayout where
  fractionBits : Nat
  exponentBits : Nat

namespace FloatLayout

/- The 32-bit layout. -/
def single : FloatLayout := ⟨23, 8⟩

/- The 64-bit layout. -/
def double : FloatLayout := ⟨52, 11⟩

end FloatLayout

/-
  A finite magnitude `m * 2 ^ q`. The flag says that the gap to
  the value below is half the gap to the value above.
-/
structure Binary where
  m : Nat
  q : Int
  narrowBelow : Bool
  deriving DecidableEq, Repr

/- What a word holds besides its sign. -/
inductive Magnitude where
  | nan
  | infinite
  | finite (value : Binary)
  deriving DecidableEq, Repr

/- The sign bit and the magnitude of a word. -/
def FloatLayout.decode
    (l : FloatLayout)
    (bits : Nat) : Bool × Magnitude :=
  let f := bits % Nat.pow 2 l.fractionBits
  let e :=
    bits / Nat.pow 2 l.fractionBits % Nat.pow 2 l.exponentBits
  let negative :=
    bits / Nat.pow 2 (l.fractionBits + l.exponentBits) % 2 == 1
  let bias : Int :=
    Nat.pow 2 (l.exponentBits - 1) - 1 + l.fractionBits
  if e = Nat.pow 2 l.exponentBits - 1 then
    (negative, if f = 0 then .infinite else .nan)
  else if e = 0 then
    (negative, .finite ⟨f, 1 - bias, false⟩)
  else
    (negative,
      .finite ⟨Nat.pow 2 l.fractionBits + f, e - bias,
        f == 0 && decide (1 < e)⟩)

------------------------------------------------------------
-- Shortest digits
------------------------------------------------------------

/- The decimal `digits * 10 ^ exponent`. -/
structure Digits where
  digits : Nat
  exponent : Int
  deriving DecidableEq, Repr

/- Compare `a * 10 ^ i` with `n * 2 ^ j`, exactly. -/
def compareScaled
    (a : Nat)
    (i : Int)
    (n : Nat)
    (j : Int) : Ordering :=
  compare
    (a * Nat.pow 10 i.toNat * Nat.pow 2 (-j).toNat)
    (n * Nat.pow 2 j.toNat * Nat.pow 10 (-i).toNat)

namespace Binary

/-
  Whether a decimal lies among the reals that round to a
  magnitude, to nearest with ties to even: the ends of the
  interval belong to it iff `m` is even.
-/
def readsBack
    (x : Binary)
    (d : Digits) : Bool :=
  let low := if x.narrowBelow then 4 * x.m - 1 else 4 * x.m - 2
  let high := 4 * x.m + 2
  let closed := x.m % 2 == 0
  let atLow :=
    compareScaled d.digits d.exponent low (x.q - 2)
  let atHigh :=
    compareScaled d.digits d.exponent high (x.q - 2)
  (atLow == .gt || (closed && atLow == .eq))
    && (atHigh == .lt || (closed && atHigh == .eq))

/- The largest `n` with `n * 10 ^ k` at most the magnitude. -/
def floorAt
    (x : Binary)
    (k : Int) : Nat :=
  (x.m * Nat.pow 2 x.q.toNat * Nat.pow 10 (-k).toNat)
    / (Nat.pow 2 (-x.q).toNat * Nat.pow 10 k.toNat)

/-
  The better point of the grid `10 ^ k` that reads back: of two
  the nearer one, and the upper one on a tie.
-/
def onGrid
    (x : Binary)
    (k : Int) : Option Digits :=
  let below : Digits := ⟨x.floorAt k, k⟩
  let above : Digits := ⟨x.floorAt k + 1, k⟩
  match x.readsBack below, x.readsBack above with
  | false, false => none
  | true, false => some below
  | false, true => some above
  | true, true =>
    if compareScaled (2 * below.digits + 1) k (2 * x.m) x.q
        == .gt then
      some below
    else
      some above

/-
  The least `k` with the magnitude below `10 ^ k`, searched
  upwards from a bound that the bit length gives.
-/
def scale (x : Binary) : Int :=
  let start : Int :=
    ((x.m.log2 : Int) + x.q) * 30103 / 100000 - 1
  let fits := fun (i : Nat) =>
    compareScaled 1 (start + i) x.m x.q == .gt
  match (List.range 6).find? fits with
  | some i => start + i
  | none => start + 6

/- Drop the trailing zeros of the digits. -/
def stripZeros : Nat → Digits → Digits
  | 0, d => d
  | fuel + 1, d =>
    if d.digits % 10 = 0 then
      stripZeros fuel ⟨d.digits / 10, d.exponent + 1⟩
    else
      d

/-
  The fewest digits that read back. Seventeen digits always
  suffice; the exact value is the answer should none be found.
-/
def shortest (x : Binary) : Digits :=
  if x.m = 0 then
    ⟨0, 0⟩
  else
    let k := x.scale
    let grids :=
      (List.range 17).map fun (i : Nat) => k - (i + 1 : Int)
    let found :=
      match grids.findSome? x.onGrid with
      | some d => d
      | none =>
        ⟨x.m * Nat.pow 2 x.q.toNat * Nat.pow 5 (-x.q).toNat,
          min x.q 0⟩
    stripZeros 400 found

end Binary

------------------------------------------------------------
-- Layout
------------------------------------------------------------

/- A text of `n` zeros. -/
def zeros (n : Nat) : String :=
  String.ofList (List.replicate n '0')

/-
  Positional text without an exponent. `tail` is what an
  integral value gets at its end.
-/
def positional
    (d : Digits)
    (tail : String) : String :=
  let digits := toString d.digits
  if 0 ≤ d.exponent then
    digits ++ zeros (if d.digits = 0 then 0 else d.exponent.toNat)
      ++ tail
  else
    let places := (-d.exponent).toNat
    let padded := zeros (places + 1 - digits.length) ++ digits
    let whole := padded.length - places
    String.ofList (padded.toList.take whole) ++ "."
      ++ String.ofList (padded.toList.drop whole)

/- Text with one digit before the point and an exponent. -/
def scientific (d : Digits) : String :=
  let digits := (toString d.digits).toList
  let e := d.exponent + digits.length - 1
  match digits with
  | [] => ""
  | [c] => String.ofList [c] ++ "e" ++ toString e
  | c :: rest =>
    String.ofList (c :: '.' :: rest) ++ "e" ++ toString e

/- Put the sign and the special values around a layout. -/
def signed
    (l : FloatLayout)
    (bits : Nat)
    (layout : Digits → String) : String :=
  match l.decode bits with
  | (_, .nan) => "NaN"
  | (negative, .infinite) => if negative then "-inf" else "inf"
  | (negative, .finite x) =>
    (if negative then "-" else "") ++ layout x.shortest

/- Shortest digits, never an exponent, no point when integral. -/
def plainText
    (l : FloatLayout)
    (bits : Nat) : String :=
  signed l bits fun d => positional d ""

/-
  Shortest digits, where an integral value below `10 ^ 7` keeps
  one zero after the point.
-/
def pointedText
    (l : FloatLayout)
    (bits : Nat) : String :=
  signed l bits fun d =>
    let short :=
      d.digits * Nat.pow 10 d.exponent.toNat < Nat.pow 10 7
    positional d (if short then ".0" else "")

/-
  Shortest digits, where an integral value always keeps one
  zero after the point, and an exponent is used from `10 ^ 16`
  on and below `10 ^ -4`.
-/
def literalText
    (l : FloatLayout)
    (bits : Nat) : String :=
  signed l bits fun d =>
    let lead := d.exponent + (toString d.digits).length - 1
    if d.digits = 0 then
      "0.0"
    else if lead < -4 ∨ 16 ≤ lead then
      scientific d
    else
      positional d ".0"

end ExecTrace.Decimal
