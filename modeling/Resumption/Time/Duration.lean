/-!
# Durations

A duration is a whole number of nanoseconds below `2 ^ 64` seconds. On the wire it is a whole
number of milliseconds, reduced modulo `2 ^ 64`; `Duration.ofMillis` reads one back.
-/

namespace Resumption

/-- A span of time of less than `2 ^ 64` seconds, in nanoseconds. -/
structure Duration where
  nanos : Nat
  bounded : nanos < 18446744073709551616000000000
  deriving DecidableEq, Repr

namespace Duration

def zero : Duration := ⟨0, by decide⟩

instance : Inhabited Duration := ⟨zero⟩

/-- The duration of `n` nanoseconds, or the longest duration if that is less. -/
def ofNanos (n : Nat) : Duration :=
  if h : n < 18446744073709551616000000000 then ⟨n, h⟩
  else ⟨18446744073709551615999999999, by decide⟩

/-- The duration of `n` milliseconds, or the longest duration if that is less. -/
def ofMillis (n : Nat) : Duration := ofNanos (n * 1000000)

/-- The duration of `n` seconds, or the longest duration if that is less. -/
def ofSecs (n : Nat) : Duration := ofNanos (n * 1000000000)

def secs (d : Duration) : Nat := d.nanos / 1000000000

def subsecNanos (d : Duration) : Nat := d.nanos % 1000000000

def millis (d : Duration) : Nat := d.nanos / 1000000

/-- The milliseconds that stand for the duration on the wire, in one 64-bit word. -/
def wireMillis (d : Duration) : Nat := d.millis % 18446744073709551616

def max (a b : Duration) : Duration := if a.nanos ≤ b.nanos then b else a

/-- The duration fits in a signed 64-bit count of milliseconds: it is at most `2 ^ 63 - 1` of
them, to the nanosecond. -/
def inSignedMillis (d : Duration) : Bool := d.nanos ≤ 9223372036854775807000000

end Duration

end Resumption
