import ExecTrace.Text.Pattern

/-
  This file defines how much memory the automata of a pattern
  take: one reads a text forwards byte by byte, and keeps groups
  apart; the other reads it backwards. A pattern whose automata
  take too much is refused.

  Key definitions include:
    * `ByteRange`
    * `byteSequences`
    * `Pattern.Direction`
    * `Pattern.memory`
    * `Pattern.isTooLarge`
-/

namespace ExecTrace

------------------------------------------------------------
-- Characters as bytes
------------------------------------------------------------

/- The first and the last of some bytes. -/
abbrev ByteRange := Nat × Nat

/- The bytes that encode a code point. -/
def encodedBytes (n : Nat) : List Nat :=
  if n ≤ 0x7F then [n]
  else if n ≤ 0x7FF then [0xC0 + n / 64, 0x80 + n % 64]
  else if n ≤ 0xFFFF then
    [0xE0 + n / 4096, 0x80 + n / 64 % 64, 0x80 + n % 64]
  else
    [0xF0 + n / 262144, 0x80 + n / 4096 % 64,
      0x80 + n / 64 % 64, 0x80 + n % 64]

/-
  Where the first part of a range of code points ends, if the
  bytes of the range vary in a position while those behind it
  do not take all values.
-/
def cutInside?
    (first last : Nat) : Option Nat :=
  [64, 4096, 262144].findSome? fun block =>
    if first / block = last / block then none
    else if first % block ≠ 0 then
      some ((first / block + 1) * block - 1)
    else if last % block ≠ block - 1 then
      some (last / block * block - 1)
    else none

/-
  Where the first part of a range of code points ends, if not
  all of them are encoded alike.
-/
def cut? (first last : Nat) : Option Nat :=
  if first < 0xE000 ∧ 0xD7FF < last then some 0xD7FF
  else
    match [0x7F, 0x7FF, 0xFFFF].find? fun limit =>
        decide (first ≤ limit) && decide (limit < last) with
    | some limit => some limit
    | none => if last ≤ 0x7F then none else cutInside? first last

/- The code after a part, past those that encode nothing. -/
def afterCut (last : Nat) : Nat :=
  if last = 0xD7FF then 0xE000 else last + 1

/-
  The sequences of byte ranges that encode the characters of a
  range of code points. The first argument bounds the cuts.
-/
def rangeSequences :
    Nat → Nat → Nat → List (List ByteRange)
  | 0, _, _ => []
  | fuel + 1, first, last =>
    if last < first then []
    else
      match cut? first last with
      | some middle =>
        rangeSequences fuel first middle
          ++ rangeSequences fuel (afterCut middle) last
      | none => [(encodedBytes first).zip (encodedBytes last)]

/- The sequences of byte ranges for a set of characters. -/
def byteSequences (s : CharSet) : List (List ByteRange) :=
  s.ranges.flatMap fun (first, last) =>
    rangeSequences 64 first last

------------------------------------------------------------
-- States for a set
------------------------------------------------------------

/- The bytes that some sequences start with. -/
def firstBytes
    (sequences : List (List ByteRange)) : List ByteRange :=
  (sequences.filterMap List.head?).eraseDups

/- What follows a range of bytes in some sequences. -/
def behindByte
    (r : ByteRange)
    (sequences : List (List ByteRange)) :
    List (List ByteRange) :=
  sequences.filterMap fun s =>
    if s.head? = some r then some s.tail else none

/-
  The states of an automaton for some sequences: what is left of
  them after some bytes. The first argument bounds their length.
-/
def sequenceStates :
    Nat → List (List ByteRange) → List (List (List ByteRange))
  | 0, _ => []
  | length + 1, sequences =>
    sequences
      :: (firstBytes sequences).flatMap fun r =>
        sequenceStates length (behindByte r sequences)

/- The beginnings of a sequence that are not empty. -/
def beginnings : List ByteRange → List (List ByteRange)
  | [] => []
  | r :: rest => [r] :: (beginnings rest).map (r :: ·)

namespace Pattern

------------------------------------------------------------
-- Memory
------------------------------------------------------------

/- Which way an automaton reads. -/
inductive Direction where
  | forwards
  | backwards
  deriving DecidableEq, Repr

/- The bytes for a state. -/
def stateBytes : Nat := 32

/- The bytes for a range of bytes that leads on from a state. -/
def rangeBytes : Nat := 8

/- The bytes for an alternative of a state. -/
def branchBytes : Nat := 4

/- The bytes for a state with two alternatives. -/
def forkBytes : Nat := stateBytes + 2 * branchBytes

/- The largest number of bytes for an automaton. -/
def maxMemory : Nat := 10 * 1048576

/- The bytes for a set of characters, not all of them basic. -/
def wideSetMemory
    (s : CharSet) : Direction → Nat
  | .forwards =>
    let states :=
      ((sequenceStates 4 (byteSequences s)).eraseDups).filter
        fun rest => rest != [[]]
    states.foldl
      (fun n rest =>
        n + stateBytes + rangeBytes * (firstBytes rest).length)
      stateBytes
  | .backwards =>
    let sequences := byteSequences s
    let starts := (sequences.flatMap beginnings).eraseDups
    2 * stateBytes + branchBytes * sequences.length
      + stateBytes * starts.length

/- The bytes for a set of characters. -/
def setMemory
    (s : CharSet)
    (d : Direction) : Nat :=
  if s.isEmpty then stateBytes
  else if s.ranges.all fun r => decide (r.2 ≤ 0x7F) then
    2 * stateBytes + rangeBytes * s.ranges.length
  else wideSetMemory s d

/- The bytes for a repetition without an upper bound. -/
def unboundedMemory
    (body : Nat)
    (nullable : Bool) : Nat → Nat
  | 0 =>
    if nullable then body + 2 * forkBytes + stateBytes
    else body + forkBytes
  | n + 1 => (n + 1) * body + forkBytes

/- The bytes for a repetition. -/
def timesMemory
    (body : Nat)
    (nullable : Bool)
    (least : Nat) : Option Nat → Nat
  | none => unboundedMemory body nullable least
  | some most =>
    if least = 0 ∧ most = 1 then
      forkBytes + body + stateBytes
    else
      let required := if least = 0 then stateBytes else least * body
      if most ≤ least then required
      else
        required + stateBytes + (most - least) * (forkBytes + body)

/-
  The bytes for the states of a pattern. The empty pattern takes
  none inside a sequence, and alternatives share two states.
-/
def stateMemory
    (d : Direction) : Pattern → Nat
  | .empty => stateBytes
  | .char c => stateBytes * (encodedBytes c.toNat).length
  | .oneOf s => setMemory s d
  | .textStart | .textStop => stateBytes
  | .lineStart _ | .lineStop _ => stateBytes
  | .group p =>
    if d = .forwards then 2 * stateBytes + stateMemory d p
    else stateMemory d p
  | .seq .empty q => stateMemory d q
  | .seq p .empty => stateMemory d p
  | .seq p q => stateMemory d p + stateMemory d q
  | .either p (.either q r) =>
    branchBytes + stateMemory d p + stateMemory d (.either q r)
  | .either p q =>
    2 * stateBytes + 2 * branchBytes + stateMemory d p
      + stateMemory d q
  | .times p least most =>
    timesMemory (stateMemory d p) p.isNullable least most

/-
  The bytes for the automaton of a pattern: its states, those
  that let it start anywhere, one for a match and two for the
  whole match as a group.
-/
def memory
    (d : Direction)
    (p : Pattern) : Nat :=
  forkBytes + 2 * stateBytes + rangeBytes + stateBytes
    + stateMemory d (.group p)

/- Whether an automaton of a pattern takes too much memory. -/
def isTooLarge (p : Pattern) : Bool :=
  [Direction.forwards, .backwards].any fun d =>
    decide (maxMemory < p.memory d)

end Pattern

end ExecTrace
