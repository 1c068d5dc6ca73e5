import Resumption.Time.Instant

/-!
# Sums of instants and durations

A sum is taken in nanoseconds since the start of 1970. It is exact where there is one
(`Instant.add?_exact`), and there is one unless it lies after the last instant
(`Instant.add?_isSome`). A duration too long for a signed count of milliseconds is longer than the
whole range of instants, so that it cannot be converted makes no difference.

Outside inserted seconds an instant is known by these nanoseconds (`Instant.ofNanos?_sinceEpoch`), a
sum lies outside again (`Instant.add?_plain`), and it has come when as many nanoseconds have elapsed
(`Instant.le_iff_elapsed`).
-/

namespace Resumption.Instant

variable {t e : Instant} {d : Duration}

/-! ## Order -/

theorem le_trans {a b c : Instant} (h : a ≤ b) (h' : b ≤ c) : a ≤ c := Int.le_trans h h'

theorem not_le {a b : Instant} : ¬ a ≤ b ↔ b < a := Int.not_le

/-- The nanoseconds since 1970, counted on through an inserted second. -/
def reading (t : Instant) : Int := t.second * 1000000000 + t.nanos

/-- The nanoseconds since 1970 that have elapsed. While a second is inserted the count stands still
at the last nanosecond before it. -/
def elapsed (t : Instant) : Int := t.second * 1000000000 + min t.nanos 999999999

theorem nanos_lt (t : Instant) : t.nanos < 2000000000 := by
  have := t.bounded
  split at this <;> omega

theorem nanos_plain (h : t.isInserted = false) : t.nanos < 1000000000 := by
  simpa [isInserted] using h

theorem elapsed_plain (h : t.isInserted = false) : t.elapsed = t.sinceEpoch := by
  have := nanos_plain h
  simp only [elapsed, sinceEpoch]
  omega

theorem elapsed_le_last (t : Instant) : t.elapsed ≤ last.sinceEpoch := by
  have hlast : last.sinceEpoch = 8210266876799999999999 := by decide
  have below := t.below
  simp only [greatestSecond] at below
  rw [hlast, elapsed]
  omega

/-- An instant that is not after another one is not after it by the count of nanoseconds. -/
theorem sinceEpoch_le_reading (h : e ≤ t) : e.sinceEpoch ≤ t.reading := by
  have h : e.place ≤ t.place := h
  have hb := e.nanos_lt
  have ht := t.nanos_lt
  simp only [place] at h
  simp only [sinceEpoch, reading]
  omega

/-- An instant outside inserted seconds has come when its nanoseconds have elapsed. -/
theorem le_iff_elapsed (h : e.isInserted = false) : e ≤ t ↔ e.sinceEpoch ≤ t.elapsed := by
  have he := nanos_plain h
  have ht := t.nanos_lt
  show e.place ≤ t.place ↔ _
  simp only [place, sinceEpoch, elapsed]
  omega

theorem le_iff_sinceEpoch (he : e.isInserted = false) (ht : t.isInserted = false) :
    e ≤ t ↔ e.sinceEpoch ≤ t.sinceEpoch := by
  rw [le_iff_elapsed he, elapsed_plain ht]

theorem sinceEpoch_le_last (h : t.isInserted = false) : t.sinceEpoch ≤ last.sinceEpoch :=
  elapsed_plain h ▸ t.elapsed_le_last

/-! ## Sums -/

theorem of?_some {second : Int} {nanos : Nat} (h : of? second nanos = some e) :
    e.second = second ∧ e.nanos = nanos := by
  rw [of?, Option.dite_none_right_eq_some] at h
  obtain ⟨_, h⟩ := h
  cases h
  exact ⟨rfl, rfl⟩

theorem add?_exact (h : t.add? d = some e) : e.sinceEpoch = t.sinceEpoch + d.nanos := by
  unfold add? at h
  split at h
  · cases h
  split at h
  · -- the sum stays in the inserted second
    rename_i hins
    obtain ⟨hs, hn⟩ := of?_some h
    obtain ⟨hi, hlt⟩ := hins
    have hi : 1000000000 ≤ t.nanos := by simpa [isInserted] using hi
    simp only [sinceEpoch, hs, hn]
    omega
  · obtain ⟨hs, hn⟩ := of?_some h
    simp only [sinceEpoch] at hs hn ⊢
    omega

/-- A sum is representable exactly when it is not after the last instant. -/
theorem add?_isSome : (t.add? d).isSome = true ↔
    t.sinceEpoch + d.nanos ≤ last.sinceEpoch := by
  have hlast : last.sinceEpoch = 8210266876799999999999 := by decide
  have above := t.above
  have below := t.below
  have bounded := t.bounded
  simp only [leastSecond, greatestSecond] at above below
  constructor
  · intro h
    obtain ⟨e, he⟩ := Option.isSome_iff_exists.1 h
    have hb := e.below
    simp only [greatestSecond] at hb
    rw [← add?_exact he, hlast, sinceEpoch]
    omega
  · intro h
    rw [hlast] at h
    have hd : d.inSignedMillis = true := by
      simp only [Duration.inSignedMillis, decide_eq_true_eq]
      simp only [sinceEpoch] at h
      omega
    rw [add?, hd]
    simp only [Bool.not_true, Bool.false_eq_true, if_false]
    split
    · rename_i hins
      obtain ⟨hi, hlt⟩ := hins
      have hi : 1000000000 ≤ t.nanos := by simpa [isInserted] using hi
      -- an instant in an inserted second is at the end of a minute
      have hmin : t.second % 60 = 59 := by split at bounded <;> omega
      rw [of?, dif_pos ⟨⟨t.above, t.below⟩, by rw [if_pos hmin]; exact hlt⟩]
      rfl
    · have hn : ((t.sinceEpoch + d.nanos) % 1000000000).toNat < 1000000000 := by omega
      rw [ofNanos?, of?, dif_pos]
      · rfl
      · refine ⟨⟨?_, ?_⟩, ?_⟩
        · simp only [leastSecond, sinceEpoch]
          omega
        · simp only [greatestSecond]
          omega
        · split <;> omega

theorem add?_eq_none : t.add? d = none ↔ last.sinceEpoch < t.sinceEpoch + d.nanos := by
  rw [← Int.not_le, ← add?_isSome, Bool.not_eq_true, Option.isSome_eq_false_iff,
    Option.isNone_iff_eq_none]

/-- A duration that no signed count of milliseconds holds leads past the last instant. -/
theorem add?_overlong (h : d.inSignedMillis = false) : t.add? d = none := by
  rw [add?, h]
  rfl

/-- From outside inserted seconds a sum leads outside them. -/
theorem add?_plain (ht : t.isInserted = false) (h : t.add? d = some e) : e.isInserted = false := by
  unfold add? at h
  split at h
  · cases h
  split at h
  · rename_i hins
    rw [ht] at hins
    cases hins.1
  · obtain ⟨_, hn⟩ := of?_some h
    have small : e.nanos < 1000000000 := by omega
    simpa [isInserted] using small

/-- From outside inserted seconds, the instant a duration later has come when as many nanoseconds
have elapsed; a sum that is not representable never comes. -/
theorem add?_come (ht : t.isInserted = false) {now : Instant} :
    (∃ e, t.add? d = some e ∧ e ≤ now) ↔ t.sinceEpoch + d.nanos ≤ now.elapsed := by
  constructor
  · rintro ⟨e, he, hle⟩
    rw [← add?_exact he]
    exact (le_iff_elapsed (add?_plain ht he)).1 hle
  · intro h
    have hlast : t.sinceEpoch + d.nanos ≤ last.sinceEpoch := Int.le_trans h now.elapsed_le_last
    obtain ⟨e, he⟩ := Option.isSome_iff_exists.1 (add?_isSome.2 hlast)
    rw [← add?_exact he] at h
    exact ⟨e, he, (le_iff_elapsed (add?_plain ht he)).2 h⟩

/-- Outside inserted seconds an instant is known by its nanoseconds since 1970. -/
theorem ofNanos?_sinceEpoch (h : t.isInserted = false) : ofNanos? t.sinceEpoch = some t := by
  have small := nanos_plain h
  have second : t.sinceEpoch / 1000000000 = t.second := by
    simp only [sinceEpoch]
    omega
  have nanos : (t.sinceEpoch % 1000000000).toNat = t.nanos := by
    simp only [sinceEpoch]
    omega
  rw [ofNanos?, second, nanos, of?, dif_pos ⟨⟨t.above, t.below⟩, t.bounded⟩]

end Resumption.Instant
