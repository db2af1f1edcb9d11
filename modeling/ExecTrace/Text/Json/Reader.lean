import ExecTrace.Text.Hexadecimal
import ExecTrace.Text.Json

/-
  This file reads JSON documents. Every reader takes the
  characters that are left and returns what it read with the
  rest; `none` stands for a text that is no JSON. Brackets may
  be nested only to a given depth.

  Key definitions include:
    * `Json.readString`
    * `Json.readNumber`
    * `Json.readValue`
    * `Json.ofText?`
-/

namespace ExecTrace.Json

------------------------------------------------------------
-- Blanks and strings
------------------------------------------------------------

/- The blanks between the parts of a document. -/
def isBlank (c : Char) : Bool :=
  c == ' ' || c == '\n' || c == '\r' || c == '\t'

/- Drop the blanks at the front. -/
def skipBlanks (cs : List Char) : List Char :=
  cs.dropWhile isBlank

/- The code unit that four hexadecimal digits spell. -/
def codeUnit?
    (a b c d : Char) : Option Nat :=
  Hexadecimal.number? [a, b, c, d]

/- The character after a backslash, `u` apart. -/
def simpleEscape? (c : Char) : Option Char :=
  if c = '\x22' then some '\x22'
  else if c = '\\' then some '\\'
  else if c = '/' then some '/'
  else if c = 'b' then some '\x08'
  else if c = 'f' then some '\x0c'
  else if c = 'n' then some '\n'
  else if c = 'r' then some '\r'
  else if c = 't' then some '\t'
  else none

/- Put a character in front of what a reader returned. -/
def prepend
    (c : Char)
    (r : Option (List Char × List Char)) :
    Option (List Char × List Char) :=
  r.map fun (cs, rest) => (c :: cs, rest)

/-
  The rest of a string after its opening quote. A code unit of a
  pair counts only together with the other unit of the pair.
-/
def readString : List Char → Option (List Char × List Char)
  | [] => none
  | '\\' :: 'u' :: a :: b :: c :: d :: rest =>
    match codeUnit? a b c d with
    | none => none
    | some u =>
      if u < 0xD800 ∨ 0xE000 ≤ u then
        prepend (Char.ofNat u) (readString rest)
      else if 0xDC00 ≤ u then
        none
      else
        match rest with
        | '\\' :: 'u' :: a' :: b' :: c' :: d' :: rest' =>
          match codeUnit? a' b' c' d' with
          | none => none
          | some v =>
            if 0xDC00 ≤ v ∧ v < 0xE000 then
              prepend
                (Char.ofNat
                  (0x10000 + (u - 0xD800) * 1024 + (v - 0xDC00)))
                (readString rest')
            else
              none
        | _ => none
  | '\\' :: c :: rest =>
    match simpleEscape? c with
    | none => none
    | some e => prepend e (readString rest)
  | c :: rest =>
    if c = '\x22' then some ([], rest)
    else if c.toNat < 32 ∨ c = '\\' then none
    else prepend c (readString rest)

------------------------------------------------------------
-- Numbers
------------------------------------------------------------

/- Whether a character may occur in a number. -/
def isNumberChar (c : Char) : Bool :=
  c.isDigit || c == '-' || c == '+' || c == '.' || c == 'e'
    || c == 'E'

/- The number that a list of digits spells. -/
def digitsValue (cs : List Char) : Nat :=
  cs.foldl (fun n c => 10 * n + (c.toNat - 48)) 0

/-
  The parts of an unsigned number: its whole digits, the digits
  after the point and the exponent.
-/
structure NumberParts where
  whole : List Char
  fraction : List Char
  exponent : Int
  isWhole : Bool

/- The exponent after its mark, if it is well formed. -/
def exponent? : List Char → Option Int
  | '-' :: ds =>
    if ds ≠ [] ∧ ds.all Char.isDigit then
      some (-(digitsValue ds))
    else none
  | '+' :: ds =>
    if ds ≠ [] ∧ ds.all Char.isDigit then
      some (digitsValue ds)
    else none
  | ds =>
    if ds ≠ [] ∧ ds.all Char.isDigit then
      some (digitsValue ds)
    else none

/- Split an unsigned number; a leading zero stands alone. -/
def numberParts? (cs : List Char) : Option NumberParts :=
  let whole := cs.takeWhile Char.isDigit
  let rest := cs.dropWhile Char.isDigit
  if whole = [] ∨ (1 < whole.length ∧ whole.head? = some '0') then
    none
  else
    let (fraction, rest, pointed) :=
      match rest with
      | '.' :: r =>
        (r.takeWhile Char.isDigit, r.dropWhile Char.isDigit, true)
      | r => ([], r, false)
    if pointed ∧ fraction = [] then
      none
    else
      match rest with
      | [] => some ⟨whole, fraction, 0, !pointed⟩
      | c :: r =>
        if c = 'e' ∨ c = 'E' then
          (exponent? r).map fun e => ⟨whole, fraction, e, false⟩
        else
          none

/- Whether a number is too large for a 64-bit float. -/
def NumberParts.isHuge (p : NumberParts) : Bool :=
  let digits := digitsValue (p.whole ++ p.fraction)
  let e := p.exponent - p.fraction.length
  if digits = 0 ∨ e < -5000 then
    false
  else if 400 < e + (toString digits).length then
    true
  else
    decide
      ((Nat.pow 2 1024 - Nat.pow 2 970) * Nat.pow 10 (-e).toNat
        ≤ digits * Nat.pow 10 e.toNat)

/- The number spelled by a list of characters. -/
def numberOf? (cs : List Char) : Option Json :=
  let (negative, unsigned) :=
    match cs with
    | '-' :: r => (true, r)
    | r => (false, r)
  match numberParts? unsigned with
  | none => none
  | some p =>
    let n : Int :=
      if negative then -(digitsValue p.whole)
      else digitsValue p.whole
    if p.isWhole ∧ isInteger n ∧ ¬ (negative ∧ n = 0) then
      some (.int n)
    else if p.isHuge then
      none
    else
      some (.otherNumber (String.ofList cs))

/- Read a number at the front. -/
def readNumber (cs : List Char) : Option (Json × List Char) :=
  (numberOf? (cs.takeWhile isNumberChar)).map fun j =>
    (j, cs.dropWhile isNumberChar)

------------------------------------------------------------
-- Values
------------------------------------------------------------

mutual

/-
  Read a value at the front. The first argument bounds the
  steps, the second the depth of brackets still allowed.
-/
def readValue : Nat → Nat → List Char → Option (Json × List Char)
  | 0, _, _ => none
  | fuel + 1, depth, cs =>
    match skipBlanks cs with
    | [] => none
    | 'n' :: 'u' :: 'l' :: 'l' :: rest => some (.null, rest)
    | 't' :: 'r' :: 'u' :: 'e' :: rest => some (.bool true, rest)
    | 'f' :: 'a' :: 'l' :: 's' :: 'e' :: rest =>
      some (.bool false, rest)
    | c :: rest =>
      if c = '\x22' then
        (readString rest).map fun (s, rest) =>
          (.str (String.ofList s), rest)
      else if c = '[' then
        match depth, skipBlanks rest with
        | 0, _ => none
        | _, ']' :: rest => some (.arr [], rest)
        | depth + 1, rest =>
          (readItems fuel depth rest).map fun (js, rest) =>
            (.arr js, rest)
      else if c = '\x7b' then
        match depth, skipBlanks rest with
        | 0, _ => none
        | _, '\x7d' :: rest => some (.obj [], rest)
        | depth + 1, rest =>
          (readMembers fuel depth rest).map fun (ms, rest) =>
            (.obj ms, rest)
      else
        readNumber (c :: rest)

/- Read the items of an array and its closing bracket. -/
def readItems :
    Nat → Nat → List Char → Option (List Json × List Char)
  | 0, _, _ => none
  | fuel + 1, depth, cs =>
    match readValue fuel depth cs with
    | none => none
    | some (j, rest) =>
      match skipBlanks rest with
      | ',' :: rest =>
        (readItems fuel depth rest).map fun (js, rest) =>
          (j :: js, rest)
      | ']' :: rest => some ([j], rest)
      | _ => none

/- Read the members of an object and its closing bracket. -/
def readMembers :
    Nat → Nat → List Char →
      Option (List (String × Json) × List Char)
  | 0, _, _ => none
  | fuel + 1, depth, cs =>
    match skipBlanks cs with
    | '\x22' :: rest =>
      match readString rest with
      | none => none
      | some (key, rest) =>
        match skipBlanks rest with
        | ':' :: rest =>
          match readValue fuel depth rest with
          | none => none
          | some (j, rest) =>
            let member := (String.ofList key, j)
            match skipBlanks rest with
            | ',' :: rest =>
              (readMembers fuel depth rest).map
                fun (ms, rest) => (member :: ms, rest)
            | '\x7d' :: rest => some ([member], rest)
            | _ => none
        | _ => none
    | _ => none

end

/- The document that makes up a whole text. -/
def ofText?
    (depth : Nat)
    (text : String) : Option Json :=
  let cs := text.toList
  match readValue (2 * cs.length + 2) depth cs with
  | some (j, rest) =>
    if skipBlanks rest = [] then some j else none
  | none => none

end ExecTrace.Json
