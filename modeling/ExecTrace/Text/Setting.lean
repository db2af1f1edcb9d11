import ExecTrace.Text.Blank
import ExecTrace.Text.Json.Reader

/-
  This file reads the texts of settings that come without a
  file. A text is a truth value, a number, a quoted string, a
  character, a list in brackets or a group in braces; every
  other text stands for itself, so that most texts need no
  quotes.

  Key definitions include:
    * `Setting.plain`
    * `Setting.unescaped?`
    * `Setting.readValue`
    * `Setting.ofText`
-/

namespace ExecTrace.Setting

------------------------------------------------------------
-- Blanks
------------------------------------------------------------

/- The blanks around the parts of a setting. -/
def isBlank (c : Char) : Bool :=
  c == ' ' || c == '\t' || c == '\n' || c == '\r'
    || c == '\x0c'

/- Drop the blanks at the front. -/
def skipBlanks (cs : List Char) : List Char :=
  cs.dropWhile isBlank

------------------------------------------------------------
-- Plain texts
------------------------------------------------------------

/- Whether a character may occur in a text without quotes. -/
def isPlain (c : Char) : Bool :=
  !(c == ',' || c == '[' || c == ']' || c == '\x7b'
    || c == '\x7d')

/- Whether a text consists of digits. -/
def isDigits (cs : List Char) : Bool :=
  !cs.isEmpty && cs.all Char.isDigit

/- The integer that a text spells. -/
def integer? (cs : List Char) : Option Int :=
  let value : Option Int :=
    match cs with
    | '+' :: ds =>
      if isDigits ds then some (Json.digitsValue ds) else none
    | '-' :: ds =>
      if isDigits ds then some (-(Json.digitsValue ds)) else none
    | ds => if isDigits ds then some (Json.digitsValue ds) else none
  value.filter Json.isInteger

/- Whether a text is empty or the exponent of a number. -/
def isExponent : List Char → Bool
  | [] => true
  | mark :: cs =>
    (mark == 'e' || mark == 'E') && (Json.exponent? cs).isSome

/-
  Whether a text spells an unsigned number with a point, which
  has a digit on at least one side.
-/
def isDecimal (cs : List Char) : Bool :=
  let whole := cs.takeWhile Char.isDigit
  match cs.dropWhile Char.isDigit with
  | '.' :: rest =>
    let fraction := rest.takeWhile Char.isDigit
    !(whole ++ fraction).isEmpty
      && isExponent (rest.dropWhile Char.isDigit)
  | _ => false

/- Whether a text spells a number with a point. -/
def isFractional : List Char → Bool
  | '+' :: cs => isDecimal cs
  | '-' :: cs => isDecimal cs
  | cs => isDecimal cs

/- The value of a text without quotes. -/
def plain (cs : List Char) : Json :=
  let cs := trimSpaces cs
  if isFractional cs then .otherNumber (String.ofList cs)
  else
    match integer? cs with
    | some n => .int n
    | none => .str (String.ofList cs)

------------------------------------------------------------
-- Quoted texts
------------------------------------------------------------

/- The character that a backslash and a letter stand for. -/
def escaped? (c : Char) : Option Char :=
  if c = '/' then none else Json.simpleEscape? c

/- Put a character in front of a text. -/
def prepend
    (c : Option Char)
    (cs : Option (List Char)) : Option (List Char) := do
  return (← c) :: (← cs)

/-
  The text that a quoted text stands for. It may not hold
  control characters apart from the tab.
-/
def unescaped? : List Char → Option (List Char)
  | [] => some []
  | '\\' :: 'u' :: a :: b :: c :: d :: rest =>
    prepend (Hexadecimal.char? [a, b, c, d]) (unescaped? rest)
  | '\\' :: 'U' :: a :: b :: c :: d :: e :: f :: g :: h :: rest =>
    prepend (Hexadecimal.char? [a, b, c, d, e, f, g, h])
      (unescaped? rest)
  | '\\' :: c :: rest => prepend (escaped? c) (unescaped? rest)
  | c :: rest =>
    if c = '\\' ∨ c = '\x7f' ∨ (c.toNat < 32 ∧ c ≠ '\t') then none
    else prepend (some c) (unescaped? rest)

/-
  A text up to the quote that ends it, and the rest behind that
  quote. A quote behind a backslash does not end it.
-/
def untilQuote? : List Char → Option (List Char × List Char)
  | [] => none
  | '\\' :: c :: rest =>
    (untilQuote? rest).map fun (cs, rest) => ('\\' :: c :: cs, rest)
  | c :: rest =>
    if c = '\x22' then some ([], rest)
    else (untilQuote? rest).map fun (cs, rest) => (c :: cs, rest)

/- Read a quoted text after its opening quote. -/
def readQuoted (cs : List Char) : Option (String × List Char) := do
  let (inner, rest) ← untilQuote? cs
  let s ← unescaped? inner
  some (String.ofList s, rest)

------------------------------------------------------------
-- Values
------------------------------------------------------------

/- The rest behind a word, if the text starts with the word. -/
def behind?
    (word : String)
    (cs : List Char) : Option (List Char) :=
  if word.toList.isPrefixOf cs then
    some (cs.drop word.toList.length)
  else none

/- Whether a character may occur in a name without quotes. -/
def isNameChar (c : Char) : Bool :=
  c.isAlphanum || c == '_' || c == '-'

/- The name in front of an equals sign, and the rest behind it. -/
def readName (cs : List Char) : Option (String × List Char) := do
  let (name, rest) ←
    match skipBlanks cs with
    | '\x22' :: rest => readQuoted rest
    | cs =>
      let name := cs.takeWhile isNameChar
      if name.isEmpty then none
      else some (String.ofList name, cs.dropWhile isNameChar)
  match skipBlanks rest with
  | '=' :: rest => some (name, rest)
  | _ => none

/- Drop the blanks behind what a reader returned. -/
def thenBlanks {α : Type} :
    α × List Char → α × List Char
  | (a, rest) => (a, skipBlanks rest)

mutual

/- A value at the front of a text, and the rest. -/
def readValue :
    Nat → List Char → Option (Json × List Char)
  | 0, _ => none
  | fuel + 1, cs =>
    let cs := skipBlanks cs
    match behind? "true" cs, behind? "false" cs, cs with
    | some rest, _, _ => some (.bool true, skipBlanks rest)
    | _, some rest, _ => some (.bool false, skipBlanks rest)
    | _, _, '[' :: rest =>
      (readItems fuel rest).map fun (js, rest) =>
        thenBlanks (.arr js, rest)
    | _, _, '\x7b' :: rest =>
      (readGroup fuel rest).map fun (ms, rest) =>
        thenBlanks (.obj ms, rest)
    | _, _, '\x22' :: rest =>
      (readQuoted rest).map fun (s, rest) =>
        thenBlanks (.str s, rest)
    | _, _, '\x27' :: rest =>
      match rest with
      | c :: '\x27' :: rest =>
        some (thenBlanks (.str (String.ofList [c]), rest))
      | _ => none
    | _, _, cs =>
      some (plain (cs.takeWhile isPlain), cs.dropWhile isPlain)

/-
  The items of a list after its bracket, and the rest. A comma
  may stand in front of the closing bracket.
-/
def readItems :
    Nat → List Char → Option (List Json × List Char)
  | 0, _ => none
  | fuel + 1, cs =>
    match cs with
    | ']' :: rest => some ([], rest)
    | cs =>
      match readValue fuel cs with
      | some (j, ',' :: rest) =>
        (readItems fuel rest).map fun (js, rest) =>
          (j :: js, rest)
      | some (j, ']' :: rest) => some ([j], rest)
      | _ => none

/-
  The members of a group after its brace, and the rest. A comma
  may stand in front of the closing brace.
-/
def readGroup :
    Nat → List Char →
      Option (List (String × Json) × List Char)
  | 0, _ => none
  | fuel + 1, cs =>
    match cs with
    | '\x7d' :: rest => some ([], rest)
    | cs =>
      match readName cs with
      | none => none
      | some (name, rest) =>
        match readValue fuel rest with
        | some (j, ',' :: rest) =>
          (readGroup fuel rest).map fun (ms, rest) =>
            ((name, j) :: ms, rest)
        | some (j, '\x7d' :: rest) => some ([(name, j)], rest)
        | _ => none

end

/- The value of a setting. -/
def ofText (s : String) : Json :=
  let cs := s.toList
  match readValue (2 * cs.length + 2) cs with
  | some (j, []) => j
  | _ => .str s

end ExecTrace.Setting
