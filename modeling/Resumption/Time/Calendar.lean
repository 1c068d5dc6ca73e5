/-!
# The proleptic Gregorian calendar

Days are counted from 1 January of the year 1, which is day 0; the calendar runs on unchanged into
the year 0 and the years before it. A day of the cycle of 400 years is split into centuries of
36524 days, spans of four years of 1461 days and years of 365 days. Only the last century of a
cycle and the last year of a span are a day longer, so the count of each stops at three.
-/

namespace Resumption

/-- A calendar date. -/
structure Date where
  year : Int
  month : Nat
  day : Nat
  deriving DecidableEq, Repr, Inhabited

namespace Date

/-- Every fourth year is a leap year, but of the full centuries only every fourth. -/
def isLeap (year : Int) : Bool := year % 4 == 0 && (year % 100 != 0 || year % 400 == 0)

def monthLengths (leap : Bool) : List Nat :=
  [31, if leap then 29 else 28, 31, 30, 31, 30, 31, 31, 30, 31, 30, 31]

/-- The number of days in a month; zero for a month that does not exist. -/
def daysInMonth (year : Int) (month : Nat) : Nat :=
  if month = 0 then 0 else ((monthLengths (isLeap year))[month - 1]?).getD 0

def valid (d : Date) : Bool := 1 ≤ d.day && d.day ≤ daysInMonth d.year d.month

/-- Days from day 0 to 1 January of `year`. -/
def daysBeforeYear (year : Int) : Int :=
  let y := year - 1
  365 * y + y / 4 - y / 100 + y / 400

def daysBeforeMonth (year : Int) (month : Nat) : Nat :=
  ((monthLengths (isLeap year)).take (month - 1)).foldr (· + ·) 0

/-- The count of the day. -/
def toDays (d : Date) : Int :=
  daysBeforeYear d.year + daysBeforeMonth d.year d.month + d.day - 1

/-- Finds the month of a day of the year, given the lengths of the months still to come. -/
def monthOf : (lengths : List Nat) → (month : Nat) → (dayOfYear : Nat) → Nat × Nat
  | [], month, n => (month, n)
  | l :: ls, month, n => if n < l then (month, n) else monthOf ls (month + 1) (n - l)

/-- The date of a count of days. -/
def ofDays (n : Int) : Date :=
  let inCycle := (n % 146097).toNat
  let centuries := min (inCycle / 36524) 3
  let inCentury := inCycle - centuries * 36524
  let spans := inCentury / 1461
  let inSpan := inCentury % 1461
  let years := min (inSpan / 365) 3
  let year := n / 146097 * 400 + ((centuries * 100 + spans * 4 + years : Nat) : Int) + 1
  let (month, day) := monthOf (monthLengths (isLeap year)) 1 (inSpan - years * 365)
  ⟨year, month, day + 1⟩

end Date

end Resumption
