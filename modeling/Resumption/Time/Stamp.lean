import Resumption.Text.Digits
import Resumption.Text.Whitespace
import Resumption.Time.Instant

/-!
# Timestamps

The text of an instant, `2024-01-31T23:59:59.500Z`. It is written in UTC, with no fraction or with
the shortest of three, six and nine digits that is exact; a year outside 0 to 9999 has a sign and
at least four digits. An inserted second is the sixtieth of its minute.

The reader takes more: one or two digits for each field but the year, a year of up to four digits
or a signed one of any length, `T`, `t` or one blank between date and time, any number of digits
of the fraction of which nine count, blanks around the numbers, and an offset from UTC of less
than a day. A date outside the representable range is refused, and so is an instant that its
offset takes out of the range.
-/

namespace Resumption.Instant

open Resumption.Text

/-- The year of a timestamp: four digits, or a sign and at least four. -/
def yearText (year : Int) : List Char :=
  if 0 ≤ year ∧ year ≤ 9999 then decimal 4 year.toNat
  else (if year < 0 then '-' else '+') :: decimal 4 year.natAbs

/-- The fraction of a second: nothing, or a point and the shortest of 3, 6 and 9 exact digits. -/
def fractionText (nanos : Nat) : List Char :=
  if nanos = 0 then []
  else if nanos % 1000000 = 0 then '.' :: padded 3 (nanos / 1000000)
  else if nanos % 1000 = 0 then '.' :: padded 6 (nanos / 1000)
  else '.' :: padded 9 nanos

/-- The characters of the timestamp of an instant. -/
def stampChars (t : Instant) : List Char :=
  let d := t.date
  let s := t.secondOfDay
  yearText d.year ++ '-' :: padded 2 d.month ++ '-' :: padded 2 d.day ++ 'T' ::
    padded 2 (s / 3600) ++ ':' :: padded 2 (s / 60 % 60) ++ ':' ::
    padded 2 (s % 60 + t.nanos / 1000000000) ++ fractionText (t.nanos % 1000000000) ++ ['Z']

def stamp (t : Instant) : String := String.ofList t.stampChars

/-- Reads a number of one or two digits after blanks. -/
def readField (cs : List Char) : Option (Nat × List Char) := number? 2 (skipBlanks cs)

/-- Reads a year: up to four digits, or a sign and any number of digits. -/
def readYear (cs : List Char) : Option (Int × List Char) :=
  match skipBlanks cs with
  | '+' :: rest => (number? rest.length rest).map fun (n, rest) => ((n : Int), rest)
  | '-' :: rest => (number? rest.length rest).map fun (n, rest) => (-(n : Int), rest)
  | cs => (number? 4 cs).map fun (n, rest) => ((n : Int), rest)

def readMark (c : Char) (cs : List Char) : Option (List Char) :=
  match skipBlanks cs with
  | d :: rest => if d == c then some rest else none
  | [] => none

def firstDate : Date := ⟨-262143, 1, 1⟩

def lastDate : Date := ⟨262142, 12, 31⟩

/-- Reads a date, which must exist and be in the range. -/
def readDate (cs : List Char) : Option (Date × List Char) := do
  let (year, cs) ← readYear cs
  let cs ← readMark '-' cs
  let (month, cs) ← readField cs
  let cs ← readMark '-' cs
  let (day, cs) ← readField cs
  let date : Date := ⟨year, month, day⟩
  if date.valid ∧ firstDate.year ≤ year ∧ year ≤ lastDate.year then some (date, cs) else none

/-- The nanoseconds that the digits of a fraction denote; digits after the ninth do not count. -/
def fractionNanos (ds : List Nat) : Nat :=
  ofDigits 10 (ds.take 9 ++ List.replicate (9 - ds.length) 0)

/-- Reads the fraction of a second, if there is a point. -/
def readFraction : List Char → Option (Nat × List Char)
  | '.' :: rest =>
    match takeDigits rest.length rest with
    | ([], _) => none
    | (ds, rest) => some (fractionNanos ds, rest)
  | cs => some (0, cs)

/-- Reads a time of day as a second of the day and the nanoseconds in it. The sixtieth second of a
minute is inserted after the one before it. -/
def readTime (cs : List Char) : Option ((Nat × Nat) × List Char) := do
  let (hour, cs) ← readField cs
  let cs ← readMark ':' cs
  let (minute, cs) ← readField cs
  let cs ← readMark ':' cs
  let (second, cs) ← readField cs
  let (nanos, cs) ← readFraction cs
  if hour < 24 ∧ minute < 60 ∧ second ≤ 60 then
    let start := (hour * 60 + minute) * 60
    if second = 60 then some ((start + 59, 1000000000 + nanos), cs)
    else some ((start + second, nanos), cs)
  else none

def readPair : List Char → Option (Nat × List Char)
  | a :: b :: rest => do
    let x ← decimalValue? a
    let y ← decimalValue? b
    some (x * 10 + y, rest)
  | _ => none

def readOffset : List Char → Option (Int × List Char)
  | [] => none
  | c :: rest =>
    if c == 'Z' || c == 'z' then some (0, rest)
    else if c == '+' || c == '-' || c == '\u2212' then do
      let (hours, rest) ← readPair rest
      let rest := rest.dropWhile fun c => c == ':' || isBlank c
      let (minutes, rest) ← readPair rest
      if hours < 24 ∧ minutes < 60 then
        let offset : Int := hours * 60 + minutes
        some (if c == '+' then offset else -offset, rest)
      else none
    else if (c :: rest.take 2).map Char.toUpper == ['U', 'T', 'C'] then some (0, rest.drop 2)
    else none

def readStamp (cs : List Char) : Option Instant := do
  let (date, cs) ← readDate cs
  let cs ←
    match cs with
    | c :: rest => if c == 'T' || c == 't' || c == ' ' then some rest else none
    | [] => none
  let ((second, nanos), cs) ← readTime cs
  let (offset, cs) ← readOffset (skipBlanks cs)
  if (skipBlanks cs).isEmpty then of? (secondAt date second - offset * 60) nanos else none

def ofStamp? (text : String) : Option Instant := readStamp text.toList

end Resumption.Instant
