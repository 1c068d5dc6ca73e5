import Resumption.Time.Instant

/-!
# Timestamp columns

A timestamp column counts microseconds from the start of 2000 and begins in the year -4712, later
than the calendar does; it ends later than the calendar, so that every timestamp that was stored
is an instant. What an instant has below a microsecond is cut off towards the start of 2000. An
inserted second has no place of its own in a column: it counts as the second that comes after it.
-/

namespace Resumption.Relational

/-- The start of 2000, in nanoseconds since the start of 1970. -/
def Timestamp.origin : Int := 946684800000000000

/-- The first microsecond that a column holds. -/
def Timestamp.least : Int := -211813488000000000

/-- The last microsecond of the calendar. -/
def Timestamp.greatest : Int := 8209320191999999999

/-- A point in time as a column holds it, in microseconds since the start of 2000. -/
structure Timestamp where
  micros : Int
  above : Timestamp.least ≤ micros
  below : micros ≤ Timestamp.greatest
  deriving DecidableEq, Repr

namespace Timestamp

instance : Inhabited Timestamp := ⟨⟨0, by decide, by decide⟩⟩

/-- The timestamp of an instant, if a column can hold it. -/
def ofInstant? (t : Instant) : Option Timestamp :=
  let micros := (t.second * 1000000000 + t.nanos - origin).tdiv 1000
  if h : least ≤ micros ∧ micros ≤ greatest then some ⟨micros, h.1, h.2⟩ else none

/-- The nanoseconds from the start of 1970. -/
def sinceEpoch (t : Timestamp) : Int := t.micros * 1000 + origin

def toInstant (t : Timestamp) : Instant where
  second := t.sinceEpoch / 1000000000
  nanos := (t.sinceEpoch % 1000000000).toNat
  above := by
    have := t.above
    unfold least at this
    unfold Instant.leastSecond sinceEpoch origin
    omega
  below := by
    have := t.below
    unfold greatest at this
    unfold Instant.greatestSecond sinceEpoch origin
    omega
  bounded := by split <;> omega

end Timestamp

end Resumption.Relational
