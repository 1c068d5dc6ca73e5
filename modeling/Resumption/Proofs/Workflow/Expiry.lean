import Resumption.Proofs.Time.Sum
import Resumption.Workflow.Callback

/-!
# When callbacks and responses expire

A callback expires when its timeout has passed since it was built, a response when its lifetime, its
own or else the default one, has passed since it came. Neither happens early or late, also where the
sum is not representable: such a deadline never comes, and such a response lives to the last
instant. Exact arithmetic says what is meant: nanoseconds since 1970 as whole numbers of any size,
and those that have elapsed at an instant (`Instant.elapsed`).

* `Callback.expiredAt_iff`: a callback with a timeout has expired when the timeout has elapsed.
* `Response.expiry_exact`: a response expires at the sum of its time and its lifetime, or at the
  last instant if that is earlier.
* `expires_on_time`: both, and what follows for the order of instants.

A clock does not show inserted seconds, and the times of responses are taken to lie outside of them;
the instant at which one asks may lie in one.
-/

namespace Resumption

variable {now t later : Instant}

namespace Callback

variable {c : Callback} {timeout : Option Duration}

theorem expiredAt_eq_true : c.expiredAt t = true ↔ ∃ e, c.deadline = some e ∧ e ≤ t := by
  unfold expiredAt
  cases c.deadline <;> simp

/-- A callback whose deadline was set by a timeout has expired when the timeout has elapsed. -/
theorem expiredAt_iff (hnow : now.isInserted = false)
    (hc : c.deadline = deadlineAfter now timeout) :
    c.expiredAt t = true ↔ ∃ d, timeout = some d ∧ now.sinceEpoch + d.nanos ≤ t.elapsed := by
  rw [expiredAt_eq_true, hc, deadlineAfter]
  constructor
  · rintro ⟨e, he, hle⟩
    obtain ⟨d, hd, he⟩ := Option.bind_eq_some_iff.1 he
    exact ⟨d, hd, (Instant.add?_come hnow).1 ⟨e, he, hle⟩⟩
  · rintro ⟨d, hd, hle⟩
    obtain ⟨e, he, hle⟩ := (Instant.add?_come hnow).2 hle
    exact ⟨e, Option.bind_eq_some_iff.2 ⟨d, hd, he⟩, hle⟩

theorem expiredAt_later (h : t ≤ later) (ht : c.expiredAt t = true) :
    c.expiredAt later = true := by
  obtain ⟨e, he, hle⟩ := expiredAt_eq_true.1 ht
  exact expiredAt_eq_true.2 ⟨e, he, Instant.le_trans hle h⟩

/-- A callback that was built at `now` with this timeout, or none, expires on time. -/
structure OnTime (c : Callback) (now : Instant) (timeout : Option Duration) : Prop where
  /-- It has expired when the timeout has elapsed, in exact arithmetic. -/
  expired : ∀ t, c.expiredAt t = true ↔
    ∃ d, timeout = some d ∧ now.sinceEpoch + d.nanos ≤ t.elapsed
  /-- A timeout that ends after the last instant never expires. -/
  never : ∀ d, timeout = some d → Instant.last.sinceEpoch < now.sinceEpoch + d.nanos →
    ∀ t, c.expiredAt t = false
  stays : ∀ t later, t ≤ later → c.expiredAt t = true → c.expiredAt later = true

theorem onTime (hnow : now.isInserted = false) (hc : c.deadline = deadlineAfter now timeout) :
    c.OnTime now timeout where
  expired _ := expiredAt_iff hnow hc
  never d hd hlast t := by
    rw [← Bool.not_eq_true, expiredAt_iff hnow hc]
    rintro ⟨d', hd', hle⟩
    have hsame : d' = d := Option.some.inj (hd'.symm.trans hd)
    rw [hsame] at hle
    exact Int.not_le.2 hlast (Int.le_trans hle t.elapsed_le_last)
  stays _ _ := expiredAt_later

end Callback

namespace Response

variable {r s : Response} {default : Duration}

/-- The nanosecond at which the lifetime of the response ends, its own or else the default one. -/
def ending (r : Response) (default : Duration) : Int :=
  r.time.sinceEpoch + (r.lifetime.getD default).nanos

/-- A response expires when its lifetime ends, or at the last instant if that is earlier. -/
theorem expiry_exact (r : Response) (default : Duration) :
    (r.expiry default).sinceEpoch = min (r.ending default) Instant.last.sinceEpoch := by
  unfold expiry ending
  cases h : r.time.add? (r.lifetime.getD default) with
  | none =>
    -- whichever step of the sum failed, it would lie after the last instant
    have hlast := Instant.add?_eq_none.1 h
    exact (Int.min_eq_right (Int.le_of_lt hlast)).symm
  | some e =>
    have hlast := Instant.add?_isSome.1 (by rw [h]; rfl)
    rw [Option.getD_some, Int.min_eq_left hlast]
    exact Instant.add?_exact h

theorem expiry_plain (hr : r.time.isInserted = false) :
    (r.expiry default).isInserted = false := by
  unfold expiry
  cases h : r.time.add? (r.lifetime.getD default) with
  | none => decide
  | some e => exact Instant.add?_plain hr h

/-- A lifetime that no signed count of milliseconds holds ends after the last instant. -/
theorem expiry_overlong (h : (r.lifetime.getD default).inSignedMillis = false) :
    r.expiry default = Instant.last := by
  rw [expiry, Instant.add?_overlong h, Option.getD_none]

/-- A response has expired when its lifetime has elapsed, and at the last instant in any case. -/
theorem expiry_le_iff (hr : r.time.isInserted = false) :
    r.expiry default ≤ t ↔ r.ending default ≤ t.elapsed ∨ Instant.last ≤ t := by
  have hlast : Instant.last ≤ t ↔ Instant.last.sinceEpoch ≤ t.elapsed :=
    Instant.le_iff_elapsed (by decide)
  rw [Instant.le_iff_elapsed (expiry_plain hr), expiry_exact, hlast]
  omega

theorem le_expiry (hr : r.time.isInserted = false) : r.time ≤ r.expiry default := by
  have hlast := Instant.sinceEpoch_le_last hr
  rw [Instant.le_iff_sinceEpoch hr (expiry_plain hr), expiry_exact, ending]
  omega

theorem expiry_mono (hr : r.time.isInserted = false) (hs : s.time.isInserted = false)
    {default' : Duration} (htime : r.time ≤ s.time)
    (hlife : (r.lifetime.getD default).nanos ≤ (s.lifetime.getD default').nanos) :
    r.expiry default ≤ s.expiry default' := by
  have htime := (Instant.le_iff_sinceEpoch hr hs).1 htime
  rw [Instant.le_iff_sinceEpoch (expiry_plain hr) (expiry_plain hs), expiry_exact, expiry_exact,
    ending, ending]
  omega

/-- A response expires on time, with this lifetime where it sets none. -/
structure OnTime (r : Response) (default : Duration) : Prop where
  /-- It expires when its lifetime ends, in exact arithmetic, or at the last instant if that is
  earlier. -/
  expiry : Instant.ofNanos? (min (r.ending default) Instant.last.sinceEpoch) =
    some (r.expiry default)
  /-- A lifetime of more than `2 ^ 63 - 1` milliseconds leads to the last instant. -/
  overlong : 9223372036854775807000000 < (r.lifetime.getD default).nanos →
    r.expiry default = Instant.last
  /-- It has expired when its lifetime has elapsed, and at the last instant in any case. -/
  expired : ∀ t, r.expiry default ≤ t ↔ r.ending default ≤ t.elapsed ∨ Instant.last ≤ t
  after : r.time ≤ r.expiry default
  /-- A response that comes no earlier and lives no shorter expires no earlier. -/
  monotone : ∀ (s : Response) default', s.time.isInserted = false → r.time ≤ s.time →
    (r.lifetime.getD default).nanos ≤ (s.lifetime.getD default').nanos →
      r.expiry default ≤ s.expiry default'
  stays : ∀ t later, t ≤ later → r.expiry default ≤ t → r.expiry default ≤ later

theorem onTime (hr : r.time.isInserted = false) (default : Duration) : r.OnTime default where
  expiry := by
    rw [← expiry_exact]
    exact Instant.ofNanos?_sinceEpoch (expiry_plain hr)
  overlong h := expiry_overlong (by simpa [Duration.inSignedMillis] using h)
  expired _ := expiry_le_iff hr
  after := le_expiry hr
  monotone _ _ hs := expiry_mono hr hs
  stays _ _ h h' := Instant.le_trans h' h

end Response

/-- **Nothing expires early or late.** A callback that is built at a time of the clock, with any
timeout, and a response of any time outside inserted seconds, with any lifetime, expire on time. -/
theorem expires_on_time :
    (∀ (now : Instant) id quorum correlations timeout, now.isInserted = false →
      correlations ≠ [] → ∃ c, Callback.create now id quorum correlations timeout = .ok c ∧
        c.OnTime now timeout) ∧
      ∀ (r : Response) default, r.time.isInserted = false → r.OnTime default := by
  constructor
  · intro now id quorum correlations timeout hnow hsome
    have hbuilt : Callback.create now id quorum correlations timeout =
        .ok ⟨id, quorum, Callback.deadlineAfter now timeout, Callback.distinct correlations⟩ := by
      rw [Callback.create, if_neg (by simpa using hsome)]
    exact ⟨_, hbuilt, Callback.onTime hnow rfl⟩
  · intro r default hr
    exact Response.onTime hr default

/-- At the last instant a timeout of a nanosecond never expires, and a response that came in the
first instant with the longest lifetime of all lives to the last. -/
theorem expires_on_time_brink :
    Instant.last.isInserted = false ∧
      (∃ c, Callback.create .last ⟨7⟩ .all ["paid"] (some (.ofNanos 1)) = .ok c ∧
        ∀ t, c.expiredAt t = false) ∧
      Response.expiry ⟨"paid", .ok .null, (Instant.of? Instant.leastSecond 0).get rfl, none⟩
        (.ofNanos 18446744073709551615999999999) = .last := by
  have plain : Instant.last.isInserted = false := by decide
  obtain ⟨c, built, onTime⟩ :=
    expires_on_time.1 .last ⟨7⟩ .all ["paid"] (some (.ofNanos 1)) plain (by decide)
  exact ⟨plain, ⟨c, built, onTime.never _ rfl (by decide)⟩,
    (expires_on_time.2 _ _ (by decide)).overlong (by decide)⟩

end Resumption
