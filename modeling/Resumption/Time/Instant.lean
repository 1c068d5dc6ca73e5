import Resumption.Time.Calendar
import Resumption.Time.Duration

/-!
# Instants

A point in time is a second, counted from the start of 1970 in UTC and without the seconds that
were inserted, and a place in it. The second at the end of a minute can be followed by an inserted
one: the places from a whole second on are in the inserted second, so a place is below two seconds
there and below one everywhere else. Instants are ordered by their second and then by their place,
and lie between the start of the year -262143 and the end of the year 262142.

Adding a duration fails where the sum leaves that range, and where the duration itself is longer
than a signed 64-bit count of milliseconds can say. A sum may stay within an inserted second; else
an inserted second counts as the one before it.
-/

namespace Resumption

def Instant.leastSecond : Int := -8334601228800

def Instant.greatestSecond : Int := 8210266876799

/-- A point in time: a second since the start of 1970 in UTC and the nanoseconds within it, or
within the second that is inserted after it. -/
structure Instant where
  second : Int
  nanos : Nat
  above : Instant.leastSecond ≤ second
  below : second ≤ Instant.greatestSecond
  bounded : nanos < if second % 60 = 59 then 2000000000 else 1000000000
  deriving DecidableEq, Repr

namespace Instant

def secondsPerDay : Int := 86400

def epochDay : Int := 719162

/-- The instant of a second and a place in it, if there is one. -/
def of? (second : Int) (nanos : Nat) : Option Instant :=
  if h : (leastSecond ≤ second ∧ second ≤ greatestSecond) ∧
      nanos < if second % 60 = 59 then 2000000000 else 1000000000 then
    some ⟨second, nanos, h.1.1, h.1.2, h.2⟩
  else none

/-- The instant that many nanoseconds after the start of 1970, if it is representable. -/
def ofNanos? (n : Int) : Option Instant := of? (n / 1000000000) (n % 1000000000).toNat

def epoch : Instant := ⟨0, 0, by decide, by decide, by decide⟩

/-- The last instant that is not in an inserted second. -/
def last : Instant := ⟨greatestSecond, 999999999, by decide, by decide, by decide⟩

instance : Inhabited Instant := ⟨epoch⟩

def isInserted (t : Instant) : Bool := 1000000000 ≤ t.nanos

/-- The place of an instant on a line that has room for an inserted second after every second. -/
def place (t : Instant) : Int := t.second * 2000000000 + t.nanos

instance : LE Instant := ⟨fun a b => a.place ≤ b.place⟩

instance : LT Instant := ⟨fun a b => a.place < b.place⟩

instance (a b : Instant) : Decidable (a ≤ b) := inferInstanceAs (Decidable (a.place ≤ b.place))

instance (a b : Instant) : Decidable (a < b) := inferInstanceAs (Decidable (a.place < b.place))

/-- The nanoseconds since the start of 1970, where an inserted second counts as the one before
it. -/
def sinceEpoch (t : Instant) : Int := t.second * 1000000000 + (t.nanos % 1000000000 : Nat)

/-- The instant a duration later, if both the duration and the sum are representable. -/
def add? (t : Instant) (d : Duration) : Option Instant :=
  if !d.inSignedMillis then none
  else if t.isInserted ∧ t.nanos + d.nanos < 2000000000 then of? t.second (t.nanos + d.nanos)
  else ofNanos? (t.sinceEpoch + d.nanos)

def date (t : Instant) : Date := Date.ofDays (t.second / secondsPerDay + epochDay)

def secondOfDay (t : Instant) : Nat := (t.second % secondsPerDay).toNat

/-- The second at a date and a second of the day in UTC. -/
def secondAt (d : Date) (secondOfDay : Int) : Int :=
  (d.toDays - epochDay) * secondsPerDay + secondOfDay

end Instant

end Resumption
