import ExecTrace.Text.CharSet

/-
  This file defines text patterns: literal characters, sets of
  characters, anchors, groups, alternatives and repetition. A
  pattern matches a text when it matches some part of it.

  Key definitions include:
    * `Pattern`
    * `Pattern.repeated`
    * `Pattern.alternatives`
    * `Pattern.ends`
    * `Pattern.occursIn`
-/

namespace ExecTrace

------------------------------------------------------------
-- Patterns
------------------------------------------------------------

/-
  A text pattern. The anchors stand at the ends of the text or
  of a line; lines may also be told to end with a carriage
  return.
-/
inductive Pattern where
  | empty
  | char (c : Char)
  | oneOf (set : CharSet)
  | textStart
  | textStop
  | lineStart (returns : Bool)
  | lineStop (returns : Bool)
  | group (body : Pattern)
  | seq (first second : Pattern)
  | either (left right : Pattern)
  | times (body : Pattern) (least : Nat) (most : Option Nat)
  deriving DecidableEq, Repr

namespace Pattern

------------------------------------------------------------
-- Building
------------------------------------------------------------

/- Whether a pattern matches nothing but the empty text. -/
def isEmptyOnly : Pattern → Bool
  | .empty | .textStart | .textStop => true
  | .lineStart _ | .lineStop _ => true
  | .char _ | .oneOf _ => false
  | .group p => p.isEmptyOnly
  | .seq p q => p.isEmptyOnly && q.isEmptyOnly
  | .either p q => p.isEmptyOnly && q.isEmptyOnly
  | .times p _ most => p.isEmptyOnly || most == some 0

/- Whether a pattern may match the empty text. -/
def isNullable : Pattern → Bool
  | .empty | .textStart | .textStop => true
  | .lineStart _ | .lineStop _ => true
  | .char _ | .oneOf _ => false
  | .group p => p.isNullable
  | .seq p q => p.isNullable && q.isNullable
  | .either p q => p.isNullable || q.isNullable
  | .times p least _ => least == 0 || p.isNullable

/-
  A repetition. What matches only the empty text is repeated at
  most once, and a repetition that is none is left out.
-/
def repeated
    (p : Pattern)
    (least : Nat)
    (most : Option Nat) : Pattern :=
  let (least, most) :=
    if p.isEmptyOnly then
      (min least 1, some (min (most.getD 1) 1))
    else (least, most)
  if most = some 0 then .empty
  else if least = 1 ∧ most = some 1 then p
  else .times p least most

/- The set that a pattern for single characters stands for. -/
def set? : Pattern → Option CharSet
  | .char c => some (CharSet.single c)
  | .oneOf s => some s
  | _ => none

/- The pattern for the characters of a set. -/
def ofSet (s : CharSet) : Pattern :=
  match s.ranges with
  | [(first, last)] =>
    if first = last then .char (Char.ofNat first) else .oneOf s
  | _ => .oneOf s

/- One of some patterns, single characters being one set. -/
def alternatives (ps : List Pattern) : Pattern :=
  match ps.mapM set? with
  | some (s :: sets) => ofSet (sets.foldl CharSet.union s)
  | _ =>
    match ps.reverse with
    | [] => .oneOf CharSet.empty
    | p :: before => before.foldl (fun q p => .either p q) p

------------------------------------------------------------
-- Matching
------------------------------------------------------------

/-
  A position in a text: the character before it, and the
  characters that follow it.
-/
abbrev Position := Option Char × List Char

/- The position after one character that passes a test. -/
def advance
    (test : Char → Bool) : Position → List Position
  | (_, []) => []
  | (_, c :: rest) => if test c then [(some c, rest)] else []

/- A position, if it passes a test. -/
def check
    (test : Position → Bool)
    (p : Position) : List Position :=
  if test p then [p] else []

/- Whether a line starts at a position. -/
def startsLine
    (returns : Bool) : Position → Bool
  | (none, _) => true
  | (some c, rest) =>
    c == '\n' || returns && c == '\r' && rest.head? != some '\n'

/- Whether a line stops at a position. -/
def stopsLine
    (returns : Bool) : Position → Bool
  | (_, []) => true
  | (before, c :: _) =>
    c == '\n' && !(returns && before == some '\r')
      || returns && c == '\r'

/- One step from each of some positions, without repetitions. -/
def stepAll
    (step : Position → List Position)
    (places : List Position) : List Position :=
  (places.flatMap step).eraseDups

/- Exactly `n` steps, unless there is nowhere left to go. -/
def exactly
    (step : Position → List Position) :
    Nat → List Position → List Position
  | 0, places => places
  | n + 1, places =>
    if places.isEmpty then []
    else exactly step n (stepAll step places)

/- At most `n` steps, unless there is nowhere left to go. -/
def atMost
    (step : Position → List Position) :
    Nat → List Position → List Position
  | 0, places => places
  | n + 1, places =>
    if places.isEmpty then []
    else
      (places ++ atMost step n (stepAll step places)).eraseDups

/-
  Where matches of a pattern from a position end. Without an
  upper bound a repetition needs no more rounds than characters
  are left.
-/
def ends : Pattern → Position → List Position
  | .empty, p => [p]
  | .char c, p => advance (fun d => d == c) p
  | .oneOf set, p => advance set.holds p
  | .textStart, p => check (fun p => p.1.isNone) p
  | .textStop, p => check (fun p => p.2.isEmpty) p
  | .lineStart returns, p => check (startsLine returns) p
  | .lineStop returns, p => check (stopsLine returns) p
  | .group a, p => ends a p
  | .seq a b, p => stepAll (ends b) (ends a p)
  | .either a b, p => (ends a p ++ ends b p).eraseDups
  | .times body least most, p =>
    let more :=
      match most with
      | some m => m - least
      | none => p.2.length + 1
    atMost (ends body) (min more (p.2.length + 1))
      (exactly (ends body) least [p])

/- The positions of a text after its start. -/
def laterPositions : List Char → List Position
  | [] => []
  | c :: rest => (some c, rest) :: laterPositions rest

/- Whether a pattern matches some part of a text. -/
def occursIn
    (p : Pattern)
    (s : String) : Bool :=
  ((none, s.toList) :: laterPositions s.toList).any fun place =>
    !(p.ends place).isEmpty

end Pattern

end ExecTrace
