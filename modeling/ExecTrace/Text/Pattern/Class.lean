import ExecTrace.Text.Pattern.Flags

/-
  This file reads sets of characters in brackets: characters,
  ranges, named sets and sets inside sets. Sets side by side
  are put together, `&&` keeps what is on both sides, `--` takes
  the right side away, and `~~` keeps what is on one side only.

  Key definitions include:
    * `Pattern.namedSet?`
    * `Pattern.SetOperator`
    * `Pattern.SetPart`
    * `Pattern.readSet?`
-/

namespace ExecTrace.Pattern

------------------------------------------------------------
-- Named sets
------------------------------------------------------------

/- The set of basic characters with a name. -/
def namedSet? (name : String) : Option CharSet :=
  let digits := ('0', '9')
  let upper := ('A', 'Z')
  let lower := ('a', 'z')
  let pairs : Option (List (Char × Char)) :=
    match name with
    | "alnum" => some [digits, upper, lower]
    | "alpha" => some [upper, lower]
    | "ascii" => some [('\x00', '\x7f')]
    | "blank" => some [('\t', '\t'), (' ', ' ')]
    | "cntrl" => some [('\x00', '\x1f'), ('\x7f', '\x7f')]
    | "digit" => some [digits]
    | "graph" => some [('!', '~')]
    | "lower" => some [lower]
    | "print" => some [(' ', '~')]
    | "punct" =>
      some [('!', '/'), (':', '@'), ('[', '\x60'), ('\x7b', '~')]
    | "space" => some [('\t', '\r'), (' ', ' ')]
    | "upper" => some [upper]
    | "word" => some [digits, upper, lower, ('_', '_')]
    | "xdigit" => some [digits, ('A', 'F'), ('a', 'f')]
    | _ => none
  pairs.map CharSet.ofPairs

/- The set under some flags. -/
def underCase
    (f : Flags)
    (s : CharSet) : CharSet :=
  if f.caseless then s.caseless else s

/- The set, or what is outside of it, under some flags. -/
def finishedSet
    (f : Flags)
    (negated : Bool)
    (s : CharSet) : CharSet :=
  if negated then (underCase f s).complement else underCase f s

/-
  Read the rest of a named set after its bracket; without a
  known name between colons it is none.
-/
def readNamedSet?
    (f : Flags) : List Char → Option (CharSet × List Char)
  | ':' :: rest =>
    let negated := rest.head? == some '^'
    let rest := if negated then rest.tail else rest
    let name := String.ofList (rest.takeWhile (· != ':'))
    match rest.dropWhile (· != ':') with
    | ':' :: ']' :: rest =>
      (namedSet? name).map fun s => (finishedSet f negated s, rest)
    | _ => none
  | _ => none

------------------------------------------------------------
-- Parts
------------------------------------------------------------

/- How two sets are put together. -/
inductive SetOperator where
  | inter
  | without
  | differing
  deriving DecidableEq, Repr

/- The set that an operator makes of two. -/
def SetOperator.apply :
    SetOperator → CharSet → CharSet → CharSet
  | .inter => CharSet.inter
  | .without => CharSet.without
  | .differing => CharSet.differing

/- A set, and how deep its text is nested. -/
structure SetPart where
  set : CharSet
  depth : Nat
  deriving DecidableEq, Repr

/- Sets side by side: together, their number and their depth. -/
structure SetItems where
  set : CharSet := CharSet.empty
  count : Nat := 0
  depth : Nat := 0
  deriving DecidableEq, Repr

/- Add a set to those before it. -/
def SetItems.add
    (i : SetItems)
    (p : SetPart) : SetItems :=
  ⟨i.set.union p.set, i.count + 1, max i.depth p.depth⟩

/- Sets side by side as one part; two or more are a level. -/
def SetItems.part (i : SetItems) : SetPart :=
  ⟨i.set, if 2 ≤ i.count then i.depth + 1 else i.depth⟩

/- What is on the left of an operator, if there is one. -/
abbrev Pending := Option (SetOperator × SetPart)

/- Finish the right side of an operator. -/
def finishItems
    (f : Flags)
    (pending : Pending)
    (items : SetItems) : SetPart :=
  let right := items.part
  match pending with
  | none => right
  | some (op, left) =>
    ⟨op.apply (underCase f left.set) (underCase f right.set),
      max left.depth right.depth + 1⟩

/- Read one character of a set. -/
def readSetChar? : List Char → Option (Char × List Char)
  | [] => none
  | '\\' :: rest =>
    match readEscape? rest with
    | some (.char c, rest) => some (c, rest)
    | _ => none
  | c :: rest => some (c, rest)

/-
  Read a character or a range. A hyphen in front of a closing
  bracket or another hyphen makes no range.
-/
def readRange?
    (f : Flags)
    (cs : List Char) : Option (CharSet × List Char) := do
  let (first, rest) ← readSetChar? cs
  let single := (CharSet.single first, dropIgnored f rest)
  match dropIgnored f rest with
  | '-' :: after =>
    let after := dropIgnored f after
    if after.head? = some ']' ∨ after.head? = some '-' then
      some single
    else do
      let (last, rest) ← readSetChar? after
      if first ≤ last then
        some (CharSet.range first last, rest)
      else
        none
  | _ => some single

/- Read the hyphens at the front of a set. -/
def readHyphens
    (f : Flags)
    (items : SetItems) : List Char → SetItems × List Char
  | [] => (items, [])
  | c :: rest =>
    if c = '-' then
      readHyphens f (items.add ⟨CharSet.single '-', 0⟩) rest
    else if f.spaced && isSpace c then readHyphens f items rest
    else (items, c :: rest)

/-
  Read what may only stand at the front of a set: a mark that
  negates it, hyphens, or else a closing bracket.
-/
def readFront
    (f : Flags)
    (cs : List Char) : Bool × SetItems × List Char :=
  let cs := dropIgnored f cs
  let negated := cs.head? == some '^'
  let cs := if negated then dropIgnored f cs.tail else cs
  match readHyphens f {} cs with
  | (items, ']' :: rest) =>
    if items.count = 0 then
      (negated, items.add ⟨CharSet.single ']', 0⟩, rest)
    else (negated, items, ']' :: rest)
  | (items, rest) => (negated, items, rest)

------------------------------------------------------------
-- Sets
------------------------------------------------------------

mutual

/- Read a set after its opening bracket. -/
def readSet?
    (f : Flags) : Nat → List Char → Option (SetPart × List Char)
  | 0, _ => none
  | fuel + 1, cs =>
    let (negated, items, rest) := readFront f cs
    (readItems? f fuel none items rest).map fun (p, rest) =>
      (⟨finishedSet f negated p.set, p.depth + 1⟩, rest)

/- Read the parts of a set and its closing bracket. -/
def readItems?
    (f : Flags) :
    Nat → Pending → SetItems → List Char →
      Option (SetPart × List Char)
  | 0, _, _, _ => none
  | fuel + 1, pending, items, cs =>
    let operator := fun (op : SetOperator) (rest : List Char) =>
      readItems? f fuel
        (some (op, finishItems f pending items)) {} rest
    match dropIgnored f cs with
    | [] => none
    | ']' :: rest => some (finishItems f pending items, rest)
    | '[' :: rest =>
      match readNamedSet? f rest with
      | some (s, rest) =>
        readItems? f fuel pending (items.add ⟨s, 0⟩) rest
      | none =>
        match readSet? f fuel rest with
        | some (p, rest) =>
          readItems? f fuel pending (items.add p) rest
        | none => none
    | '&' :: '&' :: rest => operator .inter rest
    | '-' :: '-' :: rest => operator .without rest
    | '~' :: '~' :: rest => operator .differing rest
    | cs =>
      match readRange? f cs with
      | some (s, rest) =>
        readItems? f fuel pending (items.add ⟨s, 0⟩) rest
      | none => none

end

end ExecTrace.Pattern
