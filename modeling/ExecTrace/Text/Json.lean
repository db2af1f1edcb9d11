/-
  This file defines JSON documents. An object keeps its members
  in the order they were written, repetitions included. A
  number is either an integer of at most 64 bits or some other
  number, of which only the spelling is kept.

  Key definitions include:
    * `Json`
    * `Json.isInteger`
    * `Json.compact`
    * `Json.pretty`
-/

namespace ExecTrace

------------------------------------------------------------
-- Documents
------------------------------------------------------------

/- A JSON document. -/
inductive Json where
  | null
  | bool (value : Bool)
  | int (value : Int)
  | otherNumber (spelling : String)
  | str (value : String)
  | arr (items : List Json)
  | obj (members : List (String × Json))
  deriving Repr, Inhabited

namespace Json

/- The range of the integers: signed or unsigned 64 bits. -/
def isInteger (n : Int) : Bool :=
  decide (-(Nat.pow 2 63) ≤ n) && decide (n < Nat.pow 2 64)

------------------------------------------------------------
-- Writing
------------------------------------------------------------

/- A digit of a `\u` escape. -/
def escapeDigit (n : Nat) : Char :=
  if n < 10 then Char.ofNat (48 + n) else Char.ofNat (87 + n)

/-
  The spelling of a character in a string: quotes, backslashes
  and the characters below the space are escaped.
-/
def escapeChar (c : Char) : List Char :=
  if c = '\x22' then ['\\', '\x22']
  else if c = '\\' then ['\\', '\\']
  else if c = '\x08' then ['\\', 'b']
  else if c = '\x0c' then ['\\', 'f']
  else if c = '\n' then ['\\', 'n']
  else if c = '\r' then ['\\', 'r']
  else if c = '\t' then ['\\', 't']
  else if c.toNat < 32 then
    ['\\', 'u', '0', '0', escapeDigit (c.toNat / 16),
      escapeDigit (c.toNat % 16)]
  else [c]

/- A string in quotes. -/
def quoted (s : String) : String :=
  "\"" ++ String.ofList (s.toList.flatMap escapeChar) ++ "\""

mutual

/- A document on one line without blanks. -/
def compact : Json → String
  | .null => "null"
  | .bool b => if b then "true" else "false"
  | .int n => toString n
  | .otherNumber s => s
  | .str s => quoted s
  | .arr items => "[" ++ compactItems items ++ "]"
  | .obj members => "\x7b" ++ compactMembers members ++ "\x7d"

/- The items of an array, separated by commas. -/
def compactItems : List Json → String
  | [] => ""
  | [j] => j.compact
  | j :: rest => j.compact ++ "," ++ compactItems rest

/- The members of an object, separated by commas. -/
def compactMembers : List (String × Json) → String
  | [] => ""
  | [(k, j)] => quoted k ++ ":" ++ j.compact
  | (k, j) :: rest =>
    quoted k ++ ":" ++ j.compact ++ "," ++ compactMembers rest

end

/- A line break and two blanks for each level. -/
def newline (level : Nat) : String :=
  "\n" ++ String.ofList (List.replicate (2 * level) ' ')

mutual

/- A document over several lines, inside `level` brackets. -/
def prettyAt (level : Nat) : Json → String
  | .arr [] => "[]"
  | .arr items =>
    "[" ++ prettyItems (level + 1) items ++ newline level ++ "]"
  | .obj [] => "\x7b\x7d"
  | .obj members =>
    "\x7b" ++ prettyMembers (level + 1) members
      ++ newline level ++ "\x7d"
  | .null => "null"
  | .bool b => if b then "true" else "false"
  | .int n => toString n
  | .otherNumber s => s
  | .str s => quoted s

/- Array items, each on a line of its own. -/
def prettyItems (level : Nat) : List Json → String
  | [] => ""
  | [j] => newline level ++ prettyAt level j
  | j :: rest =>
    newline level ++ prettyAt level j ++ ","
      ++ prettyItems level rest

/- Object members, each on a line of its own. -/
def prettyMembers (level : Nat) : List (String × Json) → String
  | [] => ""
  | [(k, j)] =>
    newline level ++ quoted k ++ ": " ++ prettyAt level j
  | (k, j) :: rest =>
    newline level ++ quoted k ++ ": " ++ prettyAt level j ++ ","
      ++ prettyMembers level rest

end

/- A document over several lines, two blanks for each level. -/
def pretty (j : Json) : String :=
  prettyAt 0 j

end Json

end ExecTrace
