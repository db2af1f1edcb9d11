import ExecTrace.Text.Unshown

/-
  This file writes strings and characters in quotes, so that
  quotes, controls and characters without a shape of their own
  are spelled by an escape.

  Key definitions include:
    * `hexDigits`
    * `escapeChar`
    * `string`
    * `char`
-/

namespace ExecTrace.Quoted

/- The digit with a value below sixteen, in lower case. -/
def hexDigit (n : Nat) : Char :=
  if n < 10 then Char.ofNat (48 + n) else Char.ofNat (87 + n)

/- Lower-case hexadecimal digits in front of a given tail. -/
def hexOnto : Nat → Nat → List Char → List Char
  | 0, _, tail => tail
  | steps + 1, n, tail =>
    let tail := hexDigit (n % 16) :: tail
    if n < 16 then tail else hexOnto steps (n / 16) tail

/- A number below `16 ^ 32` in lower-case hexadecimal. -/
def hexDigits (n : Nat) : String :=
  String.ofList (hexOnto 32 n [])

/- The spelling of a character between two quotes `quote`. -/
def escapeChar
    (quote : Char)
    (c : Char) : String :=
  if c = '\x00' then "\\0"
  else if c = '\t' then "\\t"
  else if c = '\r' then "\\r"
  else if c = '\n' then "\\n"
  else if c = '\\' then "\\\\"
  else if c = quote then String.ofList ['\\', c]
  else if isUnshown c then
    "\\u\x7b" ++ hexDigits c.toNat ++ "\x7d"
  else String.ofList [c]

/- A string in double quotes. -/
def string (s : String) : String :=
  "\"" ++ String.join (s.toList.map (escapeChar '\x22')) ++ "\""

/- A character in single quotes. -/
def char (c : Char) : String :=
  "'" ++ escapeChar '\x27' c ++ "'"

end ExecTrace.Quoted
