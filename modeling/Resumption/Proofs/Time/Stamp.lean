import Resumption.Proofs.Text.Digits
import Resumption.Proofs.Time.Calendar
import Resumption.Time.Stamp

/-!
# Timestamps read back

The reader takes a written timestamp apart field by field, and each reader of a field finds what was
written there and the text behind it: the year with its sign (`Instant.readYear_yearText`), the
fraction (`Instant.readFraction_fractionText`), the date (`Instant.readDate_written`) and the time
of day with an inserted second (`Instant.readTime_written`). The second at the date and the time of
an instant is its own second (`Instant.secondAt_date`), and the date is in the range of years that
the reader takes (`Instant.year_date`). So every instant is read back from its timestamp
(`Instant.ofStamp?_stamp`).
-/

namespace Resumption.Instant

open Resumption.Text

/-! ## Fields -/

theorem readField_padded {n : Nat} (h : n < 100) (rest : List Char) :
    readField (padded 2 n ++ rest) = some (n, rest) := by
  unfold readField
  rw [skipBlanks_padded (by decide)]
  exact number?_padded (by decide) (by decide) h (.inl rfl)

theorem readMark_cons {c : Char} (hc : isBlank c = false) (rest : List Char) :
    readMark c (c :: rest) = some rest := by
  unfold readMark
  rw [skipBlanks_cons hc]
  simp

theorem decimalDigit_not_sign : ∀ d < 10, decimalDigit d ≠ '+' ∧ decimalDigit d ≠ '-' := by decide

theorem readYear_yearText (year : Int) (rest : List Char) :
    readYear (yearText year ++ '-' :: rest) = some (year, '-' :: rest) := by
  have plain : StartsPlain ('-' :: rest) := startsPlain_cons (by decide) rest
  -- A year with a sign may have any number of digits.
  have signed : ∀ (n : Nat),
      number? (decimal 4 n ++ '-' :: rest).length (decimal 4 n ++ '-' :: rest)
        = some (n, '-' :: rest) := by
    intro n
    apply number?_decimal
    · rw [List.length_append, length_decimal]
      omega
    · exact .inr plain
  by_cases h : 0 ≤ year ∧ year ≤ 9999
  · have four : max 4 (width year.toNat) = 4 := by
      have := width_le (n := year.toNat) (k := 4) (by decide) (by omega)
      omega
    have text : yearText year = padded 4 year.toNat := by
      rw [yearText, if_pos h, decimal, four]
    obtain ⟨d, small, tail, eq⟩ := exists_digit (show 0 < 4 by decide) year.toNat
    obtain ⟨not_plus, not_minus⟩ := decimalDigit_not_sign d small
    have read : number? 4 (padded 4 year.toNat ++ '-' :: rest) = some (year.toNat, '-' :: rest) :=
      number?_padded (by decide) (by decide) (by omega) (.inl rfl)
    rw [text]
    unfold readYear
    rw [skipBlanks_padded (by decide)]
    split
    · next starts =>
      rw [eq, List.cons_append, List.cons.injEq] at starts
      exact absurd starts.1 not_plus
    · next starts =>
      rw [eq, List.cons_append, List.cons.injEq] at starts
      exact absurd starts.1 not_minus
    · rw [read]
      simp only [Option.map_some, Option.some.injEq, Prod.mk.injEq, and_true]
      omega
  · by_cases negative : year < 0
    · rw [yearText, if_neg h, if_pos negative, List.cons_append]
      unfold readYear
      rw [skipBlanks_cons (by decide)]
      simp only [signed, Option.map_some, Option.some.injEq, Prod.mk.injEq, and_true]
      omega
    · rw [yearText, if_neg h, if_neg negative, List.cons_append]
      unfold readYear
      rw [skipBlanks_cons (by decide)]
      simp only [signed, Option.map_some, Option.some.injEq, Prod.mk.injEq, and_true]
      omega

/-- Digits after a point count as that part of a second. -/
theorem readFraction_padded {width n : Nat} (some_digit : 0 < width) (room : width ≤ 9)
    (fits : n < 10 ^ width) {rest : List Char} (plain : StartsPlain rest) :
    readFraction ('.' :: (padded width n ++ rest)) = some (n * 10 ^ (9 - width), rest) := by
  have run : takeDigits (padded width n ++ rest).length (padded width n ++ rest)
      = (digits 10 width n, rest) := by
    rw [padded_eq]
    apply takeDigits_run
    · exact fun d h => lt_of_mem_digits (by decide) h
    · simp
    · exact .inr plain
  have value : fractionNanos (digits 10 width n) = n * 10 ^ (9 - width) := by
    rw [fractionNanos, List.take_of_length_le (by rw [length_digits]; exact room),
      ofDigits_append_zeros, ofDigits_digits, Nat.mod_eq_of_lt fits, length_digits]
  unfold readFraction
  simp only [run]
  cases h : digits 10 width n with
  | nil => exact absurd h (digits_ne_nil some_digit n)
  | cons d ds => rw [← value, h]

/-- A fraction is read back, whichever number of digits it was written with. -/
theorem readFraction_fractionText {nanos : Nat} (h : nanos < 1000000000) {c : Char}
    {rest : List Char} (plain : decimalValue? c = none) (not_point : c ≠ '.') :
    readFraction (fractionText nanos ++ c :: rest) = some (nanos, c :: rest) := by
  have stop : StartsPlain (c :: rest) := startsPlain_cons plain rest
  unfold fractionText
  split
  · next zero =>
    rw [zero, List.nil_append]
    unfold readFraction
    split
    · next starts =>
      rw [List.cons.injEq] at starts
      exact absurd starts.1 not_point
    · rfl
  · split
    · rw [List.cons_append, readFraction_padded (by decide) (by decide) (by omega) stop]
      simp only [Option.some.injEq, Prod.mk.injEq, and_true]
      omega
    · split
      · rw [List.cons_append, readFraction_padded (by decide) (by decide) (by omega) stop]
        simp only [Option.some.injEq, Prod.mk.injEq, and_true]
        omega
      · rw [List.cons_append, readFraction_padded (by decide) (by decide) (by omega) stop]
        simp

/-! ## Date and time -/

theorem readDate_written {d : Date} (real : d.valid = true)
    (range : firstDate.year ≤ d.year ∧ d.year ≤ lastDate.year) (rest : List Char) :
    readDate (yearText d.year ++ '-' :: (padded 2 d.month ++ '-' :: (padded 2 d.day ++ rest)))
      = some (d, rest) := by
  obtain ⟨month, day⟩ := Date.small_of_valid real
  have hyphen : isBlank '-' = false := by decide
  unfold readDate
  simp only [readYear_yearText, readMark_cons hyphen, readField_padded month,
    readField_padded day, Option.bind_eq_bind, Option.bind_some]
  exact if_pos ⟨real, range⟩

/-- A time of day is read back; the sixtieth second of a minute is the inserted one. -/
theorem readTime_written {hour minute second nanos : Nat} (hh : hour < 24) (hm : minute < 60)
    (hs : second ≤ 60) (hn : nanos < 1000000000) (rest : List Char) :
    readTime (padded 2 hour ++ ':' :: (padded 2 minute ++ ':' :: (padded 2 second ++
        (fractionText nanos ++ 'Z' :: rest))))
      = some (if second = 60 then ((hour * 60 + minute) * 60 + 59, 1000000000 + nanos)
          else ((hour * 60 + minute) * 60 + second, nanos), 'Z' :: rest) := by
  have colon : isBlank ':' = false := by decide
  have fraction : readFraction (fractionText nanos ++ 'Z' :: rest) = some (nanos, 'Z' :: rest) :=
    readFraction_fractionText hn (by decide) (by decide)
  unfold readTime
  simp only [readField_padded (show hour < 100 by omega),
    readField_padded (show minute < 100 by omega), readField_padded (show second < 100 by omega),
    readMark_cons colon, fraction, Option.bind_eq_bind, Option.bind_some]
  rw [if_pos ⟨hh, hm, hs⟩]
  split <;> rfl

/-! ## Instants -/

/-- The second at the date and the second of the day of an instant is its own. -/
theorem secondAt_date (t : Instant) : secondAt t.date t.secondOfDay = t.second := by
  simp only [secondAt, date, Date.toDays_ofDays, secondOfDay, secondsPerDay]
  omega

/-- The date of an instant is in the range that the reader takes. -/
theorem year_date (t : Instant) : firstDate.year ≤ t.date.year ∧ t.date.year ≤ lastDate.year := by
  have above := t.above
  have below := t.below
  simp only [leastSecond, greatestSecond] at above below
  constructor
  · apply Date.le_year_ofDays
    simp only [Date.daysBeforeYear, firstDate, secondsPerDay, epochDay]
    omega
  · apply Date.year_ofDays_le
    simp only [Date.daysBeforeYear, lastDate, secondsPerDay, epochDay]
    omega

theorem secondOfDay_lt (t : Instant) : t.secondOfDay < 86400 := by
  simp only [secondOfDay, secondsPerDay]
  omega

/-- Only the last second of a minute is followed by an inserted one. -/
theorem nanos_cases (t : Instant) :
    t.nanos < 1000000000 ∨
      (1000000000 ≤ t.nanos ∧ t.nanos < 2000000000 ∧ t.secondOfDay % 60 = 59) := by
  have bounded := t.bounded
  simp only [secondOfDay, secondsPerDay]
  split at bounded <;> omega

theorem of?_self (t : Instant) : of? t.second t.nanos = some t :=
  dif_pos ⟨⟨t.above, t.below⟩, t.bounded⟩

/-- The time of day of an instant as it is written denotes that second and that place in it. -/
theorem time_parts (t : Instant) :
    (if t.secondOfDay % 60 + t.nanos / 1000000000 = 60 then
        ((t.secondOfDay / 3600 * 60 + t.secondOfDay / 60 % 60) * 60 + 59,
          1000000000 + t.nanos % 1000000000)
      else ((t.secondOfDay / 3600 * 60 + t.secondOfDay / 60 % 60) * 60 +
          (t.secondOfDay % 60 + t.nanos / 1000000000), t.nanos % 1000000000))
      = (t.secondOfDay, t.nanos) := by
  have := nanos_cases t
  split <;> simp only [Prod.mk.injEq] <;> omega

theorem readStamp_stampChars (t : Instant) : readStamp t.stampChars = some t := by
  have day := secondOfDay_lt t
  have place := nanos_cases t
  have zone : readOffset (skipBlanks ['Z']) = some (0, []) := by decide
  have letter : ('T' == 'T' || 'T' == 't' || 'T' == ' ') = true := by decide
  have blank : (skipBlanks []).isEmpty = true := by decide
  have chars : t.stampChars
      = yearText t.date.year ++ '-' :: (padded 2 t.date.month ++ '-' :: (padded 2 t.date.day ++
          'T' :: (padded 2 (t.secondOfDay / 3600) ++ ':' :: (padded 2 (t.secondOfDay / 60 % 60) ++
            ':' :: (padded 2 (t.secondOfDay % 60 + t.nanos / 1000000000) ++
              (fractionText (t.nanos % 1000000000) ++ ['Z'])))))) := by
    simp [stampChars]
  have time := readTime_written (show t.secondOfDay / 3600 < 24 by omega)
    (show t.secondOfDay / 60 % 60 < 60 by omega)
    (show t.secondOfDay % 60 + t.nanos / 1000000000 ≤ 60 by omega)
    (show t.nanos % 1000000000 < 1000000000 by omega) []
  rw [time_parts] at time
  unfold readStamp
  rw [chars, readDate_written (d := t.date) (Date.valid_ofDays _) (year_date t)]
  simp only [Option.bind_eq_bind, Option.bind_some, letter, if_true, time, zone, blank,
    Int.zero_mul, Int.sub_zero, secondAt_date, of?_self]

theorem ofStamp?_stamp (t : Instant) : ofStamp? t.stamp = some t := by
  rw [ofStamp?, stamp, String.toList_ofList]
  exact readStamp_stampChars t

end Resumption.Instant
