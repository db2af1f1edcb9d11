import ExecTrace.Text.Blank
import ExecTrace.Text.Hexadecimal
import ExecTrace.Text.Pattern

/-
  This file defines the flags that change how a pattern is
  read, and reads single characters under such flags: escapes,
  and the blanks and remarks that a flag makes meaningless.

  Key definitions include:
    * `Pattern.Flags`
    * `Pattern.readFlags?`
    * `Pattern.dropIgnored`
    * `Pattern.Escape`
    * `Pattern.readEscape?`
-/

namespace ExecTrace.Pattern

------------------------------------------------------------
-- Flags
------------------------------------------------------------

/-
  How a pattern is read: letters of either case are the same,
  anchors stand at lines, a point stands for line breaks too,
  lines end with carriage returns too, characters are more than
  bytes, and blanks are ignored.
-/
structure Flags where
  caseless : Bool := false
  byLine : Bool := false
  allChars : Bool := false
  returns : Bool := false
  wide : Bool := true
  spaced : Bool := false
  deriving DecidableEq, Repr

/-
  Set the flag of a letter. One of the letters is about which
  match is found, which does not matter here.
-/
def Flags.set?
    (f : Flags)
    (letter : Char)
    (value : Bool) : Option Flags :=
  if letter = 'i' then some { f with caseless := value }
  else if letter = 'm' then some { f with byLine := value }
  else if letter = 's' then some { f with allChars := value }
  else if letter = 'R' then some { f with returns := value }
  else if letter = 'u' then some { f with wide := value }
  else if letter = 'x' then some { f with spaced := value }
  else if letter = 'U' then some f
  else none

/-
  Read letters of flags up to a colon or parenthesis, which is
  not dropped. Letters behind a hyphen are switched off. No
  letter may occur twice, and none may miss behind the hyphen.
-/
def readLetters?
    (seen : List Char)
    (f : Flags) : List Char → Option (Flags × List Char)
  | [] => none
  | c :: rest =>
    if c = ':' ∨ c = ')' then
      if seen.head? = some '-' then none else some (f, c :: rest)
    else if seen.contains c then none
    else if c = '-' then readLetters? (c :: seen) f rest
    else
      match f.set? c (!seen.contains '-') with
      | some f => readLetters? (c :: seen) f rest
      | none => none

/-
  Read flags after their question mark: the flags, whether there
  was a letter, and the rest.
-/
def readFlags?
    (f : Flags)
    (cs : List Char) : Option (Flags × Bool × List Char) :=
  (readLetters? [] f cs).map fun (f, rest) =>
    (f, decide (rest.length < cs.length), rest)

------------------------------------------------------------
-- Blanks and remarks
------------------------------------------------------------

/-
  Drop blanks and remarks, which reach from a number sign to
  the end of the line.
-/
def dropRemarks
    (inRemark : Bool) : List Char → List Char
  | [] => []
  | c :: rest =>
    if inRemark then dropRemarks (c != '\n') rest
    else if c = '#' then dropRemarks true rest
    else if isSpace c then dropRemarks false rest
    else c :: rest

/- Drop what the flags make meaningless. -/
def dropIgnored
    (f : Flags)
    (cs : List Char) : List Char :=
  if f.spaced then dropRemarks false cs else cs

------------------------------------------------------------
-- Escapes
------------------------------------------------------------

/- What a backslash and the characters behind it stand for. -/
inductive Escape where
  | char (c : Char)
  | anchor (p : Pattern)
  deriving DecidableEq, Repr

/-
  What a backslash and one character stand for: a control
  character, an end of the text, or the character itself if it
  is neither a letter nor a digit.
-/
def simpleEscape? (c : Char) : Option Escape :=
  if c = 'n' then some (.char '\n')
  else if c = 't' then some (.char '\t')
  else if c = 'r' then some (.char '\r')
  else if c = 'f' then some (.char '\x0c')
  else if c = 'v' then some (.char '\x0b')
  else if c = 'a' then some (.char '\x07')
  else if c = 'A' then some (.anchor .textStart)
  else if c = 'z' then some (.anchor .textStop)
  else if c.isAlphanum ∨ 128 ≤ c.toNat ∨ c = '<' ∨ c = '>' then
    none
  else
    some (.char c)

/-
  Read a character by its code: some digits in braces, or as
  many digits as the letter of the escape asks for.
-/
def readCode?
    (count : Nat) : List Char → Option (Escape × List Char)
  | '\x7b' :: rest =>
    let digits := rest.takeWhile (· != '\x7d')
    match rest.dropWhile (· != '\x7d') with
    | _ :: after =>
      if digits.isEmpty then none
      else
        (Hexadecimal.char? digits).map fun c => (.char c, after)
    | [] => none
  | cs =>
    if cs.length < count then none
    else
      (Hexadecimal.char? (cs.take count)).map fun c =>
        (.char c, cs.drop count)

/- Read an escape after its backslash. -/
def readEscape? : List Char → Option (Escape × List Char)
  | [] => none
  | 'x' :: rest => readCode? 2 rest
  | 'u' :: rest => readCode? 4 rest
  | 'U' :: rest => readCode? 8 rest
  | c :: rest => (simpleEscape? c).map fun e => (e, rest)

end ExecTrace.Pattern
