import Mathlib.Algebra.GroupWithZero.Nat
import Resumption.Time.Calendar

/-!
# Days and dates

Every count of days has a date, which is a real one (`Date.valid_ofDays`), and the date has that
count (`Date.toDays_ofDays`). A day of the cycle of 400 years splits into centuries, spans of four
years, years and a day of the year (`Date.Split`); the last is below the length of that year, and
the counts in front of it are the days before 1 January of it. Within the year the search for the
month ends where the days before the month and the day in it add up (`Date.monthOf_splits`).

Years follow days, so the dates of a span of days lie in the years from that of its first day to
that of its last (`Date.le_year_ofDays`, `Date.year_ofDays_le`).
-/

namespace Resumption.Date

/-- The parts of a count of days: cycles of 400 years, centuries, spans of four years, years and a
day of the year. -/
structure Split (n cycles : Int) (centuries spans years day : Nat) : Prop where
  total : n = 146097 * cycles + 36524 * centuries + 1461 * spans + 365 * years + day
  centuries_le : centuries ≤ 3
  spans_le : spans ≤ 24
  years_le : years ≤ 3
  day_le : day ≤ 365
  /-- Only a leap year has a day 365: the last of a span that does not end a century, or that ends
  a cycle. -/
  last_day : day = 365 → years = 3 ∧ (spans = 24 → centuries = 3)

def yearOf (cycles : Int) (centuries spans years : Nat) : Int :=
  cycles * 400 + ((centuries * 100 + spans * 4 + years : Nat) : Int) + 1

def inYear (year : Int) (day : Nat) : Date :=
  let (month, left) := monthOf (monthLengths (isLeap year)) 1 day
  ⟨year, month, left + 1⟩

theorem split_ofDays (n : Int) :
    ∃ cycles centuries spans years day, Split n cycles centuries spans years day ∧
      ofDays n = inYear (yearOf cycles centuries spans years) day := by
  obtain ⟨inCycle, hn, hlt⟩ :
      ∃ k : Nat, n % 146097 = k ∧ k < 146097 := ⟨(n % 146097).toNat, by omega, by omega⟩
  have hk : (n % 146097).toNat = inCycle := by omega
  refine ⟨n / 146097, min (inCycle / 36524) 3, (inCycle - min (inCycle / 36524) 3 * 36524) / 1461,
    min ((inCycle - min (inCycle / 36524) 3 * 36524) % 1461 / 365) 3,
    (inCycle - min (inCycle / 36524) 3 * 36524) % 1461 -
      min ((inCycle - min (inCycle / 36524) 3 * 36524) % 1461 / 365) 3 * 365, ?_, ?_⟩
  · obtain ⟨centuries, hc⟩ : ∃ c, min (inCycle / 36524) 3 = c := ⟨_, rfl⟩
    rw [hc]
    obtain ⟨inCentury, hi⟩ : ∃ i, inCycle - centuries * 36524 = i := ⟨_, rfl⟩
    rw [hi]
    obtain ⟨years, hy⟩ : ∃ y, min (inCentury % 1461 / 365) 3 = y := ⟨_, rfl⟩
    rw [hy]
    constructor <;> omega
  · simp only [ofDays, hk, yearOf, inYear]

/-! ## Years -/

def yearLength (year : Int) : Nat := if isLeap year then 366 else 365

theorem isLeap_iff (year : Int) :
    isLeap year = true ↔ year % 4 = 0 ∧ (year % 100 ≠ 0 ∨ year % 400 = 0) := by
  simp [isLeap]

theorem Split.daysBeforeYear {n cycles : Int} {centuries spans years day : Nat}
    (h : Split n cycles centuries spans years day) :
    daysBeforeYear (yearOf cycles centuries spans years) + day = n := by
  have := h.total
  have := h.centuries_le
  have := h.spans_le
  have := h.years_le
  simp only [Date.daysBeforeYear, yearOf]
  omega

theorem Split.day_lt {n cycles : Int} {centuries spans years day : Nat}
    (h : Split n cycles centuries spans years day) :
    day < yearLength (yearOf cycles centuries spans years) := by
  have := h.day_le
  by_cases last : day = 365
  · obtain ⟨hy, hs⟩ := h.last_day last
    have leap : isLeap (yearOf cycles centuries spans years) = true := by
      have := h.centuries_le
      have := h.spans_le
      rw [isLeap_iff]
      simp only [yearOf]
      omega
    simp only [yearLength, leap, if_true]
    omega
  · unfold yearLength
    split <;> omega

theorem daysBeforeYear_succ (year : Int) :
    daysBeforeYear (year + 1) = daysBeforeYear year + yearLength year := by
  by_cases leap : isLeap year = true
  · have := (isLeap_iff year).1 leap
    simp only [daysBeforeYear, yearLength, leap, if_true]
    omega
  · have := mt (isLeap_iff year).2 leap
    simp only [daysBeforeYear, yearLength, leap, if_false, Bool.false_eq_true]
    omega

theorem daysBeforeYear_mono {a b : Int} (h : a ≤ b) : daysBeforeYear a ≤ daysBeforeYear b := by
  simp only [daysBeforeYear]
  omega

/-! ## Months -/

theorem daysBeforeMonth_eq (year : Int) (month : Nat) :
    daysBeforeMonth year month = ((monthLengths (isLeap year)).take (month - 1)).sum := rfl

theorem sum_monthLengths (year : Int) : (monthLengths (isLeap year)).sum = yearLength year := by
  unfold yearLength
  cases isLeap year <;> rfl

/-- The search ends in a month that has the day, and the months before it make up the rest. -/
theorem monthOf_splits {lengths : List Nat} {day : Nat} (h : day < lengths.sum) (month : Nat) :
    ∃ i left l, monthOf lengths month day = (month + i, left) ∧ lengths[i]? = some l ∧ left < l ∧
      (lengths.take i).sum + left = day := by
  induction lengths generalizing day month with
  | nil => simp at h
  | cons l ls ih =>
    by_cases here : day < l
    · exact ⟨0, day, l, by simp [monthOf, here], rfl, here, by simp⟩
    · have later : day - l < ls.sum := by
        rw [List.sum_cons] at h
        omega
      obtain ⟨i, left, l', found, at_i, below, sum⟩ := ih later (month + 1)
      refine ⟨i + 1, left, l', ?_, by simpa using at_i, below, ?_⟩
      · rw [monthOf, if_neg here, found]
        congr 1
        omega
      · rw [List.take_succ_cons, List.sum_cons]
        omega

theorem inYear_spec {year : Int} {day : Nat} (h : day < yearLength year) :
    (inYear year day).valid = true ∧ (inYear year day).year = year ∧
      (inYear year day).toDays = daysBeforeYear year + day := by
  rw [← sum_monthLengths] at h
  obtain ⟨i, left, l, found, at_i, below, sum⟩ := monthOf_splits h 1
  have date : inYear year day = ⟨year, 1 + i, left + 1⟩ := by
    simp only [inYear, found]
  have length : daysInMonth year (1 + i) = l := by
    rw [daysInMonth, if_neg (by omega), Nat.add_sub_cancel_left, at_i]
    rfl
  have before : daysBeforeMonth year (1 + i) = ((monthLengths (isLeap year)).take i).sum := by
    rw [daysBeforeMonth_eq, Nat.add_sub_cancel_left]
  rw [date]
  refine ⟨?_, rfl, ?_⟩
  · simp only [valid, length, Bool.and_eq_true, decide_eq_true_eq]
    omega
  · simp only [toDays, before]
    omega

/-! ## Dates -/

/-- Every count of days has a real date, and the date has that count. -/
theorem ofDays_spec (n : Int) :
    (ofDays n).valid = true ∧ (ofDays n).toDays = n ∧
      daysBeforeYear (ofDays n).year ≤ n ∧ n < daysBeforeYear ((ofDays n).year + 1) := by
  obtain ⟨cycles, centuries, spans, years, day, split, eq⟩ := split_ofDays n
  have start := split.daysBeforeYear
  have short := split.day_lt
  obtain ⟨valid, year, days⟩ := inYear_spec short
  rw [eq, year, daysBeforeYear_succ, days]
  exact ⟨valid, by omega, by omega, by omega⟩

theorem valid_ofDays (n : Int) : (ofDays n).valid = true := (ofDays_spec n).1

theorem toDays_ofDays (n : Int) : (ofDays n).toDays = n := (ofDays_spec n).2.1

/-- A day that is not before 1 January of a year is not in an earlier year. -/
theorem le_year_ofDays {n year : Int} (h : daysBeforeYear year ≤ n) : year ≤ (ofDays n).year := by
  obtain ⟨_, _, _, before⟩ := ofDays_spec n
  apply Int.not_lt.1
  intro later
  have := daysBeforeYear_mono (show (ofDays n).year + 1 ≤ year by omega)
  omega

/-- A day before 1 January of the next year is not in a later year. -/
theorem year_ofDays_le {n year : Int} (h : n < daysBeforeYear (year + 1)) :
    (ofDays n).year ≤ year := by
  obtain ⟨_, _, after, _⟩ := ofDays_spec n
  apply Int.not_lt.1
  intro later
  have := daysBeforeYear_mono (show year + 1 ≤ (ofDays n).year by omega)
  omega

theorem monthLengths_le (leap : Bool) : ∀ l ∈ monthLengths leap, l ≤ 31 := by
  cases leap <;> decide

/-- The month and the day of a real date have two digits at most. -/
theorem small_of_valid {d : Date} (h : d.valid = true) : d.month < 100 ∧ d.day < 100 := by
  simp only [valid, Bool.and_eq_true, decide_eq_true_eq] at h
  obtain ⟨first, inMonth⟩ := h
  unfold daysInMonth at inMonth
  split at inMonth
  · omega
  · cases at_month : (monthLengths (isLeap d.year))[d.month - 1]? with
    | none => rw [at_month] at inMonth; simp at inMonth; omega
    | some l =>
      obtain ⟨in_range, rfl⟩ := List.getElem?_eq_some_iff.1 at_month
      have short := monthLengths_le (isLeap d.year) _ (List.getElem_mem in_range)
      have twelve : (monthLengths (isLeap d.year)).length = 12 := rfl
      rw [at_month] at inMonth
      simp only [Option.getD_some] at inMonth
      omega

end Resumption.Date
