import ReferenceMint.Text.Blank
import ReferenceMint.Text.Numeral

/-!
# Timestamps

A timestamp is kept as the text it was written in, together with the fact that the text denotes
an instant: a calendar date, a letter `T` or one space, a time of day with an optional fraction of
a second, and an offset from universal time. White space may stand in front of each number and
between a number and the mark that follows it. The last second of a minute may be a leap second. The
calendar has a first and a last year, and an instant lies between them in universal time too.
-/

namespace ReferenceMint.Text

/-- Reads a number of at most `width` digits, with white space allowed in front of it. -/
def shortNumber (width : Nat) (cs : List Char) : Option (Nat × List Char) :=
  let cs := trimStart cs
  let ds := (cs.take width).takeWhile Char.isDigit
  if ds.isEmpty then none else some (Numeral.value ds, cs.drop ds.length)

/-- Reads a year: four digits at most, or any number of digits behind a sign. -/
def year (cs : List Char) : Option (Int × List Char) :=
  let signed (sign : Int) (rest : List Char) : Option (Int × List Char) :=
    let ds := rest.takeWhile Char.isDigit
    if ds.isEmpty then none else some (sign * Numeral.value ds, rest.drop ds.length)
  match trimStart cs with
  | '-' :: rest => signed (-1) rest
  | '+' :: rest => signed 1 rest
  | rest => (shortNumber 4 rest).map fun (n, rest) => (Int.ofNat n, rest)

/-- Reads the mark `c`, with white space allowed in front of it. -/
def mark (c : Char) (cs : List Char) : Option (List Char) :=
  match trimStart cs with
  | d :: rest => if d = c then some rest else none
  | [] => none

/-- Drops the fraction of a second, if there is one; a point needs a digit behind it. -/
def dropFraction : List Char → Option (List Char)
  | '.' :: rest =>
    if (rest.takeWhile Char.isDigit).isEmpty then none else some (rest.dropWhile Char.isDigit)
  | cs => some cs

/-- The number of days of a month. -/
def daysInMonth (y : Int) (month : Nat) : Nat :=
  if month = 2 then
    if (y % 4 = 0 && y % 100 ≠ 0) || y % 400 = 0 then 29 else 28
  else if month = 4 || month = 6 || month = 9 || month = 11 then 30
  else 31

/-- The first year of the calendar. -/
def firstYear : Int := -262143

/-- The last year of the calendar. -/
def lastYear : Int := 262142

/-- The number of minutes of a day. -/
def minutesInDay : Nat := 24 * 60

/-- Reads the offset from universal time, in minutes: the letter `Z`, the letters `UTC`, or a sign,
two digits of hours and two digits of minutes, less than a day in all. -/
def offset (cs : List Char) : Option (Int × List Char) :=
  match cs with
  | 'Z' :: rest | 'z' :: rest => some (0, rest)
  | u :: t :: c :: rest =>
    if [u, t, c].map Char.toLower = ['u', 't', 'c'] then some (0, rest)
    else if u = '+' || u = '-' || u = '\u2212' then
      if t.isDigit && c.isDigit then
        match rest.dropWhile fun d => d = ':' || isBlank d with
        | m :: n :: rest =>
          let minutes := Numeral.value [t, c] * 60 + Numeral.value [m, n]
          if m.isDigit && n.isDigit && Numeral.value [m, n] < 60 && minutes < minutesInDay
          then some (if u = '+' then minutes else -minutes, rest) else none
        | _ => none
      else none
    else none
  | _ => none

/-- Whether a date is in the calendar. -/
def isDate (y : Int) (month day : Nat) : Bool :=
  firstYear ≤ y && y ≤ lastYear && 1 ≤ month && month ≤ 12 && 1 ≤ day && day ≤ daysInMonth y month

/-- Whether a minute of a date in the calendar is in the calendar in universal time too: the offset
may lead out of it only on its first and on its last day. -/
def isUniversal (y : Int) (month day minute : Nat) (offset : Int) : Bool :=
  let minute := Int.ofNat minute - offset
  !(y = firstYear && month = 1 && day = 1 && minute < 0) &&
    !(y = lastYear && month = 12 && day = 31 && minutesInDay ≤ minute)

/-- Reads an instant and gives back what follows it. -/
def instant (cs : List Char) : Option (List Char) := do
  let (y, cs) ← year cs
  let (month, cs) ← shortNumber 2 (← mark '-' cs)
  let (day, cs) ← shortNumber 2 (← mark '-' cs)
  let cs ← match cs with
    | 'T' :: rest | 't' :: rest | ' ' :: rest => some rest
    | _ => none
  let (hour, cs) ← shortNumber 2 cs
  let (minute, cs) ← shortNumber 2 (← mark ':' cs)
  let (second, cs) ← shortNumber 2 (← mark ':' cs)
  let cs ← dropFraction cs
  let (offset, cs) ← offset (trimStart cs)
  if isDate y month day && hour ≤ 23 && minute ≤ 59 && second ≤ 60 &&
      isUniversal y month day (hour * 60 + minute) offset
  then some cs else none

/-- Whether the text denotes an instant, white space behind it aside. -/
def isInstant (s : String) : Bool :=
  match instant s.toList with
  | some rest => rest.all isBlank
  | none => false

end ReferenceMint.Text

namespace ReferenceMint

/-- A text that denotes an instant. -/
structure Timestamp where
  text : String
  /-- It denotes an instant. -/
  denotes : Text.isInstant text = true
deriving DecidableEq

namespace Timestamp

/-- The timestamp written as `text`, if it denotes an instant. -/
def ofText? (text : String) : Option Timestamp :=
  if h : Text.isInstant text = true then some ⟨text, h⟩ else none

/-- Midnight on the first of January 1970, universal time. -/
def epoch : Timestamp := ⟨"1970-01-01T00:00:00Z", by decide +kernel⟩

end Timestamp

end ReferenceMint
