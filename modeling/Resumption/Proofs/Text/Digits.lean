import Mathlib.Algebra.GroupWithZero.Nat
import Resumption.Text.Digits
import Resumption.Text.Whitespace

/-!
# Numbers read back

A number is written as the run of its low digits in a base (`Text.digits`), one character each, and
that many digits bring back the number modulo the power of the base that they can hold
(`Text.ofDigits_digits`). A reader takes all digits of a run when it has room for no more or when no
digit comes after them (`Text.takeDigits_run`), so it finds the number that was written and the text
that followed it: `Text.number?_padded` and `Text.number?_decimal` for decimal digits,
`Text.hexDigits?_hexPadded` for hexadecimal ones.
-/

namespace Resumption.Text

/-- The `width` low digits of `n`, most significant first. -/
def digits (base : Nat) : (width : Nat) → (n : Nat) → List Nat
  | 0, _ => []
  | width + 1, n => digits base width (n / base) ++ [n % base]

theorem length_digits (base width n : Nat) : (digits base width n).length = width := by
  induction width generalizing n with
  | zero => rfl
  | succ width ih => simp [digits, ih]

theorem digits_ne_nil {base width : Nat} (some_digit : 0 < width) (n : Nat) :
    digits base width n ≠ [] := by
  intro h
  have := length_digits base width n
  rw [h, List.length_nil] at this
  omega

theorem lt_of_mem_digits {base : Nat} (hb : 0 < base) {width n d : Nat}
    (h : d ∈ digits base width n) : d < base := by
  induction width generalizing n with
  | zero => simp [digits] at h
  | succ width ih =>
    rcases List.mem_append.1 h with h | h
    · exact ih h
    · rw [List.mem_singleton.1 h]
      exact Nat.mod_lt _ hb

theorem ofDigits_concat (base : Nat) (ds : List Nat) (d : Nat) :
    ofDigits base (ds ++ [d]) = ofDigits base ds * base + d := by
  simp [ofDigits, List.foldl_append]

/-- `width` digits hold a number modulo that power of the base. -/
theorem ofDigits_digits (base width n : Nat) :
    ofDigits base (digits base width n) = n % base ^ width := by
  induction width generalizing n with
  | zero => simp [digits, ofDigits, Nat.mod_one]
  | succ width ih =>
    rw [digits, ofDigits_concat, ih, Nat.pow_succ', Nat.mod_mul]
    rw [Nat.mul_comm, Nat.add_comm]

/-! ## Decimal -/

/-- The decimal digit of a value below 10. -/
def decimalDigit (d : Nat) : Char := Char.ofNat ('0'.toNat + d)

theorem decimalValue?_decimalDigit : ∀ d < 10, decimalValue? (decimalDigit d) = some d := by decide

theorem isBlank_decimalDigit : ∀ d < 10, isBlank (decimalDigit d) = false := by decide

theorem padded_eq (width n : Nat) : padded width n = (digits 10 width n).map decimalDigit := by
  induction width generalizing n with
  | zero => rfl
  | succ width ih => simp [padded, digits, ih, decimalDigit]

theorem exists_digit {width : Nat} (some_digit : 0 < width) (n : Nat) :
    ∃ d < 10, ∃ rest, padded width n = decimalDigit d :: rest := by
  rw [padded_eq]
  cases h : digits 10 width n with
  | nil => exact absurd h (digits_ne_nil some_digit n)
  | cons d ds =>
    have there : d ∈ digits 10 width n := by simp [h]
    have small : d < 10 := lt_of_mem_digits (by decide) there
    exact ⟨d, small, _, rfl⟩

theorem ofDigits_append_zeros (base : Nat) (ds : List Nat) (count : Nat) :
    ofDigits base (ds ++ List.replicate count 0) = ofDigits base ds * base ^ count := by
  induction count with
  | zero => simp
  | succ count ih =>
    rw [List.replicate_succ', ← List.append_assoc, ofDigits_concat, ih, Nat.pow_succ]
    rw [Nat.add_zero, Nat.mul_assoc]

/-- The text does not start with a digit. -/
def StartsPlain (cs : List Char) : Prop := ∀ c rest, cs = c :: rest → decimalValue? c = none

theorem startsPlain_cons {c : Char} (hc : decimalValue? c = none) (rest : List Char) :
    StartsPlain (c :: rest) := by
  intro d rest' h
  cases h
  exact hc

/-- A run of digits is taken whole if the reader has room for just that many, or if it has room
and the run ends there. -/
theorem takeDigits_run {ds : List Nat} (hds : ∀ d ∈ ds, d < 10) {most : Nat} {rest : List Char}
    (room : ds.length ≤ most) (stop : ds.length = most ∨ StartsPlain rest) :
    takeDigits most (ds.map decimalDigit ++ rest) = (ds, rest) := by
  induction ds generalizing most with
  | nil =>
    cases rest with
    | nil => simp [takeDigits]
    | cons c rest =>
      rcases stop with full | plain
      · simp only [List.length_nil] at full
        subst full
        simp [takeDigits]
      · simp [takeDigits, plain c rest rfl]
  | cons d ds ih =>
    obtain ⟨most, rfl⟩ : ∃ m, most = m + 1 := ⟨most - 1, by simp at room; omega⟩
    have hd := decimalValue?_decimalDigit d (hds d (by simp))
    have tail : takeDigits most (ds.map decimalDigit ++ rest) = (ds, rest) := by
      apply ih
      · exact fun d h => hds d (by simp [h])
      · simpa using room
      · simpa using stop
    simp [takeDigits, hd, tail]

/-- The digits of a number that fits are read back as that number. -/
theorem number?_padded {width most n : Nat} {rest : List Char} (some_digit : 0 < width)
    (room : width ≤ most) (fits : n < 10 ^ width) (stop : width = most ∨ StartsPlain rest) :
    number? most (padded width n ++ rest) = some (n, rest) := by
  have run : takeDigits most (padded width n ++ rest) = (digits 10 width n, rest) := by
    rw [padded_eq]
    apply takeDigits_run
    · exact fun d h => lt_of_mem_digits (by decide) h
    · rwa [length_digits]
    · rwa [length_digits]
  have value : ofDigits 10 (digits 10 width n) = n := by
    rw [ofDigits_digits, Nat.mod_eq_of_lt fits]
  have nonempty : digits 10 width n ≠ [] := digits_ne_nil some_digit n
  unfold number?
  rw [run]
  cases h : digits 10 width n with
  | nil => exact absurd h nonempty
  | cons d ds => simp only [← h, value]

theorem width_pos (n : Nat) : 0 < width n := by
  rw [width]
  split <;> omega

theorem lt_pow_width (n : Nat) : n < 10 ^ width n := by
  induction n using Nat.strongRecOn with
  | ind n ih =>
    rw [width]
    by_cases h : n < 10
    · simp [h]
    · have := ih (n / 10) (by omega)
      rw [if_neg h, Nat.pow_succ]
      omega

theorem width_le {n k : Nat} (hk : 0 < k) (h : n < 10 ^ k) : width n ≤ k := by
  induction k generalizing n with
  | zero => omega
  | succ k ih =>
    rw [width]
    by_cases small : n < 10
    · rw [if_pos small]
      omega
    · have room : 0 < k := by
        rcases Nat.eq_zero_or_pos k with rfl | hk'
        · simp at h; omega
        · exact hk'
      have := ih (n := n / 10) room (by rw [Nat.pow_succ] at h; omega)
      rw [if_neg small]
      omega

theorem length_decimal (least n : Nat) : (decimal least n).length = max least (width n) := by
  rw [decimal, padded_eq, List.length_map, length_digits]

theorem number?_decimal {least most n : Nat} {rest : List Char}
    (room : max least (width n) ≤ most)
    (stop : max least (width n) = most ∨ StartsPlain rest) :
    number? most (decimal least n ++ rest) = some (n, rest) := by
  apply number?_padded
  · have := width_pos n
    omega
  · exact room
  · exact Nat.lt_of_lt_of_le (lt_pow_width n) (Nat.pow_le_pow_right (by decide) (by omega))
  · exact stop

/-! ## Hexadecimal -/

theorem hexValue?_hexDigit : ∀ d < 16, hexValue? (hexDigit d) = some d := by decide

theorem hexPadded_eq (count n : Nat) : hexPadded count n = (digits 16 count n).map hexDigit := by
  induction count generalizing n with
  | zero => rfl
  | succ count ih => simp [hexPadded, digits, ih]

theorem length_hexPadded (count n : Nat) : (hexPadded count n).length = count := by
  rw [hexPadded_eq, List.length_map, length_digits]

theorem hexDigits?_map {ds : List Nat} (hds : ∀ d ∈ ds, d < 16) :
    hexDigits? (ds.map hexDigit) = some ds := by
  unfold hexDigits?
  induction ds with
  | nil => rfl
  | cons d ds ih =>
    have hd := hexValue?_hexDigit d (hds d (by simp))
    have tail := ih fun d h => hds d (by simp [h])
    simp [hd, tail]

/-- Hexadecimal digits are read back as the values they stand for. -/
theorem hexDigits?_hexPadded (count n : Nat) :
    hexDigits? (hexPadded count n) = some (digits 16 count n) := by
  rw [hexPadded_eq]
  exact hexDigits?_map fun d h => lt_of_mem_digits (by decide) h

/-! ## Blanks -/

theorem skipBlanks_cons {c : Char} (hc : isBlank c = false) (cs : List Char) :
    skipBlanks (c :: cs) = c :: cs := by
  simp [skipBlanks, hc]

theorem skipBlanks_padded {width : Nat} (some_digit : 0 < width) (n : Nat) (rest : List Char) :
    skipBlanks (padded width n ++ rest) = padded width n ++ rest := by
  obtain ⟨d, small, tail, eq⟩ := exists_digit some_digit n
  rw [eq]
  exact skipBlanks_cons (isBlank_decimalDigit d small) _

end Resumption.Text
