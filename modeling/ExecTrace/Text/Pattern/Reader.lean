import ExecTrace.Text.Pattern.Class
import ExecTrace.Text.Pattern.Size

/-
  This file reads patterns. A pattern may be nested only to a
  given depth, and a pattern whose automata take too much memory
  is none.

  Key definitions include:
    * `Pattern.Part`
    * `Pattern.Scope`
    * `Pattern.readBounds?`
    * `Pattern.readRepeated?`
    * `Pattern.readEither`
    * `Pattern.ofText?`
-/

namespace ExecTrace.Pattern

------------------------------------------------------------
-- Parts
------------------------------------------------------------

/- A pattern, and how deep its text is nested. -/
structure Part where
  pattern : Pattern
  depth : Nat
  deriving DecidableEq, Repr

/- A pattern that is no deeper than its text. -/
def Part.flat (p : Pattern) : Part :=
  ⟨p, 0⟩

/- What holds while a pattern is read: flags and known names. -/
structure Scope where
  flags : Flags := {}
  names : List String := []
  deriving DecidableEq, Repr

/- Parts that follow each other: together, number and depth. -/
structure Run where
  pattern : Pattern := .empty
  count : Nat := 0
  depth : Nat := 0
  deriving DecidableEq, Repr

/- Add a part to those before it. -/
def Run.add
    (r : Run)
    (p : Part) : Run :=
  let pattern :=
    if r.pattern = .empty then p.pattern
    else if p.pattern = .empty then r.pattern
    else .seq r.pattern p.pattern
  ⟨pattern, r.count + 1, max r.depth p.depth⟩

/- Parts as one part; two or more are a level. -/
def Run.part (r : Run) : Part :=
  ⟨r.pattern, if 2 ≤ r.count then r.depth + 1 else r.depth⟩

/- Alternatives as one part; two or more are a level. -/
def alternativesPart : List Part → Part
  | [p] => p
  | ps =>
    ⟨alternatives (ps.map Part.pattern),
      (ps.map Part.depth).foldl max 0 + 1⟩

------------------------------------------------------------
-- Single parts
------------------------------------------------------------

/- The pattern for a character. -/
def ofChar
    (f : Flags)
    (c : Char) : Pattern :=
  ofSet (underCase f (CharSet.single c))

/- The set for a point: all characters, or all but line breaks. -/
def pointSet (f : Flags) : CharSet :=
  if f.allChars then CharSet.empty.complement
  else if f.returns then
    (CharSet.ofPairs [('\n', '\n'), ('\r', '\r')]).complement
  else (CharSet.single '\n').complement

/- Whether a set may be used under some flags. -/
def isAllowed
    (f : Flags)
    (s : CharSet) : Bool :=
  f.wide || s.ranges.all fun r => decide (r.2 ≤ 0x7F)

/- A set as a part. -/
def setPart?
    (f : Flags)
    (p : SetPart) : Option Part :=
  if isAllowed f p.set then some ⟨ofSet p.set, p.depth⟩
  else none

/- The anchor at a start. -/
def startAnchor (f : Flags) : Pattern :=
  if f.byLine then .lineStart f.returns else .textStart

/- The anchor at an end. -/
def stopAnchor (f : Flags) : Pattern :=
  if f.byLine then .lineStop f.returns else .textStop

/- Read a part that is no group. -/
def readSingle?
    (f : Flags) : List Char → Option (Part × List Char)
  | [] => none
  | '.' :: rest =>
    (setPart? f ⟨pointSet f, 0⟩).map fun p => (p, rest)
  | '^' :: rest => some (.flat (startAnchor f), rest)
  | '$' :: rest => some (.flat (stopAnchor f), rest)
  | '[' :: rest => do
    let (p, rest) ← readSet? f (2 * rest.length + 2) rest
    let p ← setPart? f p
    some (p, rest)
  | '\\' :: rest =>
    (readEscape? rest).map fun
      | (.char c, rest) => (.flat (ofChar f c), rest)
      | (.anchor p, rest) => (.flat p, rest)
  | c :: rest =>
    if c = '*' ∨ c = '+' ∨ c = '?' ∨ c = '\x7b' then none
    else some (.flat (ofChar f c), rest)

------------------------------------------------------------
-- Repetition
------------------------------------------------------------

/- The largest bound of a repetition. -/
def maxBound : Nat := 4294967295

/- Read a bound, which may stand between white space. -/
def readBound?
    (cs : List Char) : Option (Nat × List Char) :=
  let cs := dropSpaces cs
  let ds := cs.takeWhile Char.isDigit
  let n := ds.foldl (fun n c => 10 * n + (c.toNat - 48)) 0
  if ds.isEmpty ∨ maxBound < n then none
  else some (n, dropSpaces (cs.dropWhile Char.isDigit))

/-
  Read the bounds of a repetition after the opening brace: one
  number, a number and a comma, or two numbers.
-/
def readBounds?
    (f : Flags)
    (cs : List Char) :
    Option (Nat × Option Nat × List Char) :=
  match readBound? (dropIgnored f cs) with
  | some (n, '\x7d' :: rest) => some (n, some n, rest)
  | some (n, ',' :: rest) =>
    match dropIgnored f rest with
    | '\x7d' :: rest => some (n, none, rest)
    | rest =>
      match readBound? rest with
      | some (m, '\x7d' :: rest) =>
        if n ≤ m then some (n, some m, rest) else none
      | _ => none
  | _ => none

/- A lazy repetition matches the same texts. -/
def dropLazy : List Char → List Char
  | '?' :: rest => rest
  | rest => rest

/- Repeat a part. -/
def Part.repeated
    (p : Part)
    (least : Nat)
    (most : Option Nat) : Part :=
  ⟨p.pattern.repeated least most, p.depth + 1⟩

/- Read the repetitions behind a part. -/
def readRepeated?
    (f : Flags) :
    Nat → Part → List Char → Option (Part × List Char)
  | 0, p, cs => some (p, cs)
  | fuel + 1, p, cs =>
    let next := fun (p : Part) (rest : List Char) =>
      readRepeated? f fuel p (dropLazy rest)
    match dropIgnored f cs with
    | '*' :: rest => next (p.repeated 0 none) rest
    | '+' :: rest => next (p.repeated 1 none) rest
    | '?' :: rest => next (p.repeated 0 (some 1)) rest
    | '\x7b' :: rest =>
      match readBounds? f rest with
      | none => none
      | some (least, most, rest) =>
        next (p.repeated least most) (dropIgnored f rest)
    | rest => some (p, rest)

------------------------------------------------------------
-- Groups
------------------------------------------------------------

/- Whether a character may occur in the name of a group. -/
def isGroupChar (c : Char) : Bool :=
  c.isAlphanum || c == '_' || c == '.' || c == '[' || c == ']'

/- Whether a text may be the name of a group. -/
def isGroupName : List Char → Bool
  | [] => false
  | c :: rest =>
    (c.isAlpha || c == '_') && rest.all isGroupChar

/- Read the name of a group and add it to those in the scope. -/
def readGroupName?
    (s : Scope)
    (cs : List Char) : Option (Scope × List Char) :=
  let name := cs.takeWhile (· != '>')
  let text := String.ofList name
  match cs.dropWhile (· != '>') with
  | '>' :: rest =>
    if isGroupName name && !s.names.contains text then
      some ({ s with names := text :: s.names }, rest)
    else none
  | _ => none

/-
  How a parenthesis goes on: with a group, which counts as one
  or not, or with flags for what follows.
-/
inductive Opening where
  | group (scope : Scope) (counts : Bool)
  | flags (scope : Scope)
  deriving DecidableEq, Repr

/- Read how a parenthesis goes on. -/
def readOpening?
    (s : Scope)
    (cs : List Char) : Option (Opening × List Char) :=
  match dropIgnored s.flags cs with
  | '?' :: 'P' :: '<' :: rest =>
    (readGroupName? s rest).map fun (s, rest) =>
      (.group s true, rest)
  | '?' :: '<' :: rest =>
    (readGroupName? s rest).map fun (s, rest) =>
      (.group s true, rest)
  | '?' :: rest =>
    match readFlags? s.flags rest with
    | some (f, _, ':' :: rest) =>
      some (.group { s with flags := f } false, rest)
    | some (f, true, ')' :: rest) =>
      some (.flags { s with flags := f }, rest)
    | _ => none
  | rest => some (.group s true, rest)

/- A group of a part. -/
def Part.grouped
    (p : Part)
    (counts : Bool) : Part :=
  ⟨if counts then .group p.pattern else p.pattern, p.depth + 1⟩

------------------------------------------------------------
-- Patterns
------------------------------------------------------------

mutual

/- Read alternatives, up to a closing parenthesis or the end. -/
def readEither :
    Nat → Scope → List Part → List Char →
      Option (Part × Scope × List Char)
  | 0, _, _, _ => none
  | fuel + 1, s, before, cs =>
    match readRun fuel s {} cs with
    | none => none
    | some (p, s, '|' :: rest) =>
      readEither fuel s (before ++ [p]) rest
    | some (p, s, rest) =>
      some (alternativesPart (before ++ [p]), s, rest)

/- Read parts that follow each other, after those before. -/
def readRun :
    Nat → Scope → Run → List Char →
      Option (Part × Scope × List Char)
  | 0, _, _, _ => none
  | fuel + 1, s, run, cs =>
    match dropIgnored s.flags cs with
    | [] => some (run.part, s, [])
    | '|' :: rest => some (run.part, s, '|' :: rest)
    | ')' :: rest => some (run.part, s, ')' :: rest)
    | '(' :: rest =>
      match readOpening? s rest with
      | none => none
      | some (.flags s, rest) =>
        readRun fuel s (run.add (.flat .empty)) rest
      | some (.group inner counts, rest) =>
        match readEither fuel inner [] rest with
        | some (p, inner, ')' :: rest) =>
          readBehind fuel { s with names := inner.names } run
            (p.grouped counts) rest
        | _ => none
    | rest =>
      match readSingle? s.flags rest with
      | some (p, rest) => readBehind fuel s run p rest
      | none => none

/- Read the repetitions behind a part, and what follows. -/
def readBehind :
    Nat → Scope → Run → Part → List Char →
      Option (Part × Scope × List Char)
  | 0, _, _, _, _ => none
  | fuel + 1, s, run, p, cs =>
    match readRepeated? s.flags cs.length p cs with
    | some (p, rest) => readRun fuel s (run.add p) rest
    | none => none

end

/- The deepest that a pattern may be nested. -/
def maxDepth : Nat := 250

/- The pattern that a text spells. -/
def ofText? (s : String) : Option Pattern :=
  let cs := s.toList
  match readEither (4 * cs.length + 4) {} [] cs with
  | some (p, _, []) =>
    if p.depth ≤ maxDepth ∧ ¬ p.pattern.isTooLarge then
      some p.pattern
    else none
  | _ => none

end ExecTrace.Pattern
