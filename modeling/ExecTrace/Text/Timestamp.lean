import ExecTrace.Text.Blank

/-
  This file defines instants in universal time and their text
  in the proleptic Gregorian calendar. Fractions of a second
  are written with three, six or nine digits, as few as needed.
  Instants lie between the first day of the year -262143 and
  the last day of the year 262142.

  Key definitions include:
    * `Timestamp`
    * `Timestamp.epoch`
    * `Timestamp.text`
    * `Timestamp.offsetText`
    * `Timestamp.ofText?`
-/

namespace ExecTrace

/-
  An instant: whole seconds since 1970-01-01, and the part of
  the current second in nanoseconds. A part of a second or more
  lies in the leap second that follows.
-/
structure Timestamp where
  seconds : Int
  nanos : Nat
  deriving DecidableEq, Repr, Inhabited

namespace Timestamp

/- The start of 1970. -/
def epoch : Timestamp := ⟨0, 0⟩

------------------------------------------------------------
-- Calendar
------------------------------------------------------------

/- A day of the calendar. -/
structure Day where
  year : Int
  month : Nat
  day : Nat
  deriving DecidableEq, Repr

/- Whether a year has a 29th of February. -/
def isLeapYear (y : Int) : Bool :=
  y % 4 == 0 && (y % 100 != 0 || y % 400 == 0)

/- The number of days of a month. -/
def daysInMonth
    (y : Int)
    (m : Nat) : Nat :=
  if m = 2 then (if isLeapYear y then 29 else 28)
  else if m = 4 ∨ m = 6 ∨ m = 9 ∨ m = 11 then 30
  else 31

/-
  Days since 1970-01-01, counting years from March so that the
  leap day is the last of its year.
-/
def Day.number (d : Day) : Int :=
  let y := if d.month ≤ 2 then d.year - 1 else d.year
  let era := y / 400
  let yearOfEra := y % 400
  let shifted : Int := ((d.month : Int) + 9) % 12
  let dayOfYear := (153 * shifted + 2) / 5 + d.day - 1
  let dayOfEra :=
    yearOfEra * 365 + yearOfEra / 4 - yearOfEra / 100 + dayOfYear
  era * 146097 + dayOfEra - 719468

/- The day with a number. -/
def Day.ofNumber (n : Int) : Day :=
  let z := n + 719468
  let era := z / 146097
  let dayOfEra := z % 146097
  let yearOfEra :=
    (dayOfEra - dayOfEra / 1460 + dayOfEra / 36524
      - dayOfEra / 146096) / 365
  let dayOfYear :=
    dayOfEra - (365 * yearOfEra + yearOfEra / 4 - yearOfEra / 100)
  let shifted := (5 * dayOfYear + 2) / 153
  let day := dayOfYear - (153 * shifted + 2) / 5 + 1
  let month := if shifted < 10 then shifted + 3 else shifted - 9
  let year := yearOfEra + era * 400
  ⟨if month ≤ 2 then year + 1 else year, month.toNat, day.toNat⟩

------------------------------------------------------------
-- Writing
------------------------------------------------------------

/- A number with leading zeros up to a width. -/
def padded
    (width n : Nat) : String :=
  let s := toString n
  String.ofList (List.replicate (width - s.length) '0') ++ s

/- A year; beyond four digits it carries a sign. -/
def yearText (y : Int) : String :=
  if 0 ≤ y ∧ y ≤ 9999 then padded 4 y.toNat
  else if y < 0 then "-" ++ padded 4 (-y).toNat
  else "+" ++ padded 4 y.toNat

/- The fraction of a second behind a point. -/
def fractionText (nanos : Nat) : String :=
  let n := nanos % 1000000000
  if n = 0 then ""
  else if n % 1000000 = 0 then "." ++ padded 3 (n / 1000000)
  else if n % 1000 = 0 then "." ++ padded 6 (n / 1000)
  else "." ++ padded 9 n

/- Date and time of day, with a mark between them and no zone. -/
def civilText (t : Timestamp) : String :=
  let d := Day.ofNumber (t.seconds / 86400)
  let s := (t.seconds % 86400).toNat
  let second := s % 60 + t.nanos / 1000000000
  yearText d.year ++ "-" ++ padded 2 d.month ++ "-"
    ++ padded 2 d.day ++ "T" ++ padded 2 (s / 3600) ++ ":"
    ++ padded 2 (s / 60 % 60) ++ ":" ++ padded 2 second
    ++ fractionText t.nanos

/- The text with the zone `Z`. -/
def text (t : Timestamp) : String :=
  t.civilText ++ "Z"

/- The text with the zone as an offset. -/
def offsetText (t : Timestamp) : String :=
  t.civilText ++ "+00:00"

------------------------------------------------------------
-- Reading
------------------------------------------------------------

/- The number that a list of digits spells. -/
def value (cs : List Char) : Nat :=
  cs.foldl (fun n c => 10 * n + (c.toNat - 48)) 0

/- Read one to `width` digits. -/
def digits?
    (width : Nat)
    (cs : List Char) : Option (Nat × List Char) :=
  let ds := (cs.take width).takeWhile Char.isDigit
  if ds = [] then none
  else some (value ds, cs.drop ds.length)

/- Read one to `width` digits after optional blanks. -/
def number?
    (width : Nat)
    (cs : List Char) : Option (Nat × List Char) :=
  digits? width (dropSpaces cs)

/-
  Read a year after optional blanks: four digits at most, or a
  sign and any number of digits right behind it.
-/
def year? (cs : List Char) : Option (Int × List Char) :=
  match dropSpaces cs with
  | '-' :: rest =>
    (digits? rest.length rest).map fun (n, r) => (-(n : Int), r)
  | '+' :: rest =>
    (digits? rest.length rest).map fun (n, r) => ((n : Int), r)
  | rest =>
    (digits? 4 rest).map fun (n, r) => ((n : Int), r)

/- Read one expected character after optional blanks. -/
def literal?
    (c : Char)
    (cs : List Char) : Option (List Char) :=
  match dropSpaces cs with
  | d :: rest => if c = d then some rest else none
  | [] => none

/- Read an optional fraction, keeping nine digits of it. -/
def fraction? (cs : List Char) : Option (Nat × List Char) :=
  match cs with
  | '.' :: rest =>
    let ds := (rest.take 9).takeWhile Char.isDigit
    if ds = [] then
      none
    else
      some
        (value ds * Nat.pow 10 (9 - ds.length),
          (rest.drop ds.length).dropWhile Char.isDigit)
  | rest => some (0, rest)

/- Read two digits. -/
def twoDigits? : List Char → Option (Nat × List Char)
  | a :: b :: rest =>
    if a.isDigit ∧ b.isDigit then some (value [a, b], rest)
    else none
  | _ => none

/- Read a zone as seconds east of universal time. -/
def zone? (cs : List Char) : Option (Int × List Char) :=
  match dropSpaces cs with
  | 'Z' :: rest => some (0, rest)
  | 'z' :: rest => some (0, rest)
  | u :: t :: c :: rest =>
    if [u, t, c].map Char.toUpper = ['U', 'T', 'C'] then
      some (0, rest)
    else if u = '+' ∨ u = '-' ∨ u = '−' then do
      let (hours, rest) ← twoDigits? (t :: c :: rest)
      let rest := rest.dropWhile fun c => c == ':' || isSpace c
      let (minutes, rest) ← twoDigits? rest
      if minutes < 60 ∧ hours < 24 then
        let offset : Int := hours * 3600 + minutes * 60
        some (if u = '+' then offset else -offset, rest)
      else
        none
    else
      none
  | _ => none

/- The number of the first day that an instant may lie on. -/
def firstDay : Int := Day.number ⟨-262143, 1, 1⟩

/- The number of the last day that an instant may lie on. -/
def lastDay : Int := Day.number ⟨262142, 12, 31⟩

/- Whether a day of universal time is in range. -/
def isDay (n : Int) : Bool :=
  decide (firstDay ≤ n) && decide (n ≤ lastDay)

/-
  The instant that a text spells. Date and time are separated
  by `T`, `t` or a space, and white space may stand before each
  part. Both the day in the text and the day of universal time
  have to be in range.
-/
def ofText? (s : String) : Option Timestamp := do
  let (year, cs) ← year? s.toList
  let cs ← literal? '-' cs
  let (month, cs) ← number? 2 cs
  let cs ← literal? '-' cs
  let (day, cs) ← number? 2 cs
  let cs ←
    match cs with
    | c :: rest =>
      if c = 'T' ∨ c = 't' ∨ c = ' ' then some rest else none
    | [] => none
  let (hour, cs) ← number? 2 cs
  let cs ← literal? ':' cs
  let (minute, cs) ← number? 2 cs
  let cs ← literal? ':' cs
  let (second, cs) ← number? 2 cs
  let (nanos, cs) ← fraction? cs
  let (offset, cs) ← zone? cs
  if dropSpaces cs = [] ∧ 1 ≤ month ∧ month ≤ 12 ∧ 1 ≤ day
      ∧ day ≤ daysInMonth year month ∧ hour < 24 ∧ minute < 60
      ∧ second ≤ 60 then
    let leap : Nat := if second = 60 then 1 else 0
    let time : Int :=
      hour * 3600 + minute * 60 + second - leap - offset
    let dayNumber := Day.number ⟨year, month, day⟩
    let seconds := dayNumber * 86400 + time
    if isDay dayNumber && isDay (seconds / 86400) then
      some ⟨seconds, nanos + leap * 1000000000⟩
    else
      none
  else
    none

end Timestamp

end ExecTrace
