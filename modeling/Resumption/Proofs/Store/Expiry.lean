import Resumption.Proofs.Store.Change
import Resumption.Proofs.Time.Sum

/-!
# Discarding what has expired

A sweep takes the first responses that have expired out of the list, as many as it may, and leaves
the others as they stand. What it leaves is known by two facts: a sweep that discarded less than it
may has left what expires later and nothing else (`Store.dropExpired_short`), and no sweep touches
what expires later than its clock says, so neither does an earlier one
(`Store.dropExpired_later`).
-/

namespace Resumption

namespace Store

variable {now later : Instant}

/-- The responses that expire later than the clock says, in their order. -/
def unexpired (now : Instant) (us : List Unclaimed) : List Unclaimed :=
  us.filter fun u => now < u.expiry

theorem unexpired_cons_expired {u : Unclaimed} (h : u.expiry ≤ now) (us : List Unclaimed) :
    unexpired now (u :: us) = unexpired now us :=
  List.filter_cons_of_neg (by simpa [← Instant.not_le] using h)

theorem unexpired_cons {u : Unclaimed} (h : ¬ u.expiry ≤ now) (us : List Unclaimed) :
    unexpired now (u :: us) = u :: unexpired now us :=
  List.filter_cons_of_pos (by simpa [Instant.not_le] using h)

theorem dropExpired_length (now : Instant) (us : List Unclaimed) : ∀ most,
    (dropExpired now most us).1 + (dropExpired now most us).2.length = us.length := by
  induction us with
  | nil => intro most; simp [dropExpired]
  | cons u us ih =>
    intro most
    cases most with
    | zero => simp [dropExpired]
    | succ most =>
      rw [dropExpired]
      split
      · have := ih most
        simp only [List.length_cons]
        omega
      · have := ih (most + 1)
        simp only [List.length_cons]
        omega

theorem dropExpired_le (now : Instant) (us : List Unclaimed) : ∀ most,
    (dropExpired now most us).1 ≤ most := by
  induction us with
  | nil => intro most; simp [dropExpired]
  | cons u us ih =>
    intro most
    cases most with
    | zero => simp [dropExpired]
    | succ most =>
      rw [dropExpired]
      split
      · exact Nat.succ_le_succ (ih most)
      · exact ih (most + 1)

/-- A sweep takes out of the responses what it counts, and touches nothing else. -/
theorem sweep_spec {s s' : Store} {most n : Nat} (h : s.sweep now most = (n, s')) :
    (dropExpired now most s.unclaimed).1 = n ∧
      s' = { s with unclaimed := (dropExpired now most s.unclaimed).2 } ∧
      n + s'.unclaimed.length = s.unclaimed.length ∧ n ≤ most := by
  have hn : (dropExpired now most s.unclaimed).1 = n := congrArg Prod.fst h
  have hs : { s with unclaimed := (dropExpired now most s.unclaimed).2 } = s' := congrArg Prod.snd h
  subst hn hs
  exact ⟨rfl, rfl, dropExpired_length _ _ _, dropExpired_le _ _ _⟩

/-- A sweep that discards less than it may leaves nothing that has expired. -/
theorem dropExpired_short (now : Instant) (us : List Unclaimed) : ∀ most,
    (dropExpired now most us).1 < most → (dropExpired now most us).2 = unexpired now us := by
  induction us with
  | nil => intro most _; simp [dropExpired, unexpired]
  | cons u us ih =>
    intro most h
    cases most with
    | zero => cases h
    | succ most =>
      rw [dropExpired] at h ⊢
      split at h
      · rename_i hu
        rw [if_pos hu, unexpired_cons_expired hu]
        exact ih most (Nat.lt_of_succ_lt_succ h)
      · rename_i hu
        rw [if_neg hu, unexpired_cons hu]
        exact congrArg (u :: ·) (ih (most + 1) h)

/-- A sweep leaves everything that expires later than any later clock says. -/
theorem dropExpired_later (h : now ≤ later) (us : List Unclaimed) : ∀ most,
    unexpired later (dropExpired now most us).2 = unexpired later us := by
  induction us with
  | nil => intro most; simp [dropExpired]
  | cons u us ih =>
    intro most
    cases most with
    | zero => simp [dropExpired]
    | succ most =>
      rw [dropExpired]
      split
      · rename_i hu
        rw [unexpired_cons_expired (Instant.le_trans hu h)]
        exact ih most
      · have := ih (most + 1)
        by_cases hl : u.expiry ≤ later
        · rwa [unexpired_cons_expired hl, unexpired_cons_expired hl]
        · rw [unexpired_cons hl, unexpired_cons hl, this]

end Store

end Resumption
