import Resumption.Proofs.Json.Agreement
import Resumption.Settings.Wire

/-!
# Settings survive the wire in whole milliseconds

A size, a truth value and a text are read back as they were written, whatever they are: no reader
raises a zero. Of a duration the whole milliseconds are read back, modulo `2 ^ 64` of them, for that
is what the wire tells of it (`Json.conveys_duration`). So settings are read back with each duration
in whole milliseconds, and settings that a reader gave hold only such durations
(`StorageSettings.conveys` and its siblings).

**Result.** `settings_round_trip`: all settings can be written and read back, nothing is lost
exactly when every duration is a whole number of milliseconds below `2 ^ 64`, and from whatever form
settings were read, their own form is read as the same settings.
-/

namespace Resumption

theorem Json.word?_ofWord (w : UInt64) : Json.word? (.ofWord w) = some w := by
  rw [word?, ofWord, size?_nat w.toNat_lt, Option.map_some, UInt64.ofNat_toNat]

namespace Backoff

/-- The backoff with each rest in whole milliseconds. -/
def inMillis (b : Backoff) : Backoff := ⟨b.empty.inMillis, b.partly.inMillis, b.full.inMillis⟩

/-- Every rest is a whole number of milliseconds that one word holds. -/
def IsWhole (b : Backoff) : Prop := b.empty.IsWhole ∧ b.partly.IsWhole ∧ b.full.IsWhole

instance (b : Backoff) : Decidable b.IsWhole := inferInstanceAs (Decidable (_ ∧ _))

theorem conveys : Json.Conveys toJson ofJson? inMillis IsWhole where
  back b := by
    have fields : b.toJson.fields? fieldNames = some ⟨false, _⟩ :=
      Json.fields?_object (by simp [fieldNames]) (by simp)
    unfold ofJson?
    simp [fields, Fields.required, Fields.value?, List.lookup_cons, Json.conveys_duration.back,
      inMillis]
  lossless b := by
    obtain ⟨empty, partly, full⟩ := b
    simp only [inMillis, IsWhole, mk.injEq, Duration.inMillis_eq_self]
  fit j b h := by
    unfold ofJson? at h
    simp only [Option.bind_eq_bind, Option.bind_eq_some_iff, Option.pure_def,
      Option.some.injEq] at h
    obtain ⟨f, _, empty, he, partly, hp, full, hf, rfl⟩ := h
    exact ⟨Fields.required_fit Json.agree_duration he, Fields.required_fit Json.agree_duration hp,
      Fields.required_fit Json.agree_duration hf⟩

end Backoff

namespace StorageSettings

/-- The settings with each duration in whole milliseconds. -/
def inMillis (s : StorageSettings) : StorageSettings :=
  { s with
    responseLifetime := s.responseLifetime.inMillis
    reaperInterval := s.reaperInterval.inMillis
    backoff := s.backoff.inMillis }

/-- Every duration is a whole number of milliseconds that one word holds. -/
def IsWhole (s : StorageSettings) : Prop :=
  s.responseLifetime.IsWhole ∧ s.reaperInterval.IsWhole ∧ s.backoff.IsWhole

instance (s : StorageSettings) : Decidable s.IsWhole := inferInstanceAs (Decidable (_ ∧ _))

theorem conveys : Json.Conveys toJson ofJson? inMillis IsWhole where
  back s := by
    have fields : s.toJson.fields? fieldNames = some ⟨false, _⟩ :=
      Json.fields?_object (by simp [fieldNames]) (by simp)
    unfold ofJson?
    simp [fields, Fields.required, Fields.value?, List.lookup_cons, Json.conveys_duration.back,
      Json.word?_ofWord, Json.bool?, Backoff.conveys.back, inMillis]
  lossless s := by
    obtain ⟨lifetime, interval, promotion, reaper, remove, backoff⟩ := s
    simp only [inMillis, IsWhole, mk.injEq, Duration.inMillis_eq_self, Backoff.conveys.lossless,
      true_and]
  fit j s h := by
    unfold ofJson? at h
    simp only [Option.bind_eq_bind, Option.bind_eq_some_iff, Option.pure_def,
      Option.some.injEq] at h
    obtain ⟨f, _, lifetime, hl, interval, hi, promotion, _, reaper, _, remove, _, backoff, hb,
      rfl⟩ := h
    exact ⟨Fields.required_fit Json.agree_duration hl, Fields.required_fit Json.agree_duration hi,
      Fields.required_fit Backoff.conveys.agree hb⟩

end StorageSettings

namespace BatchSettings

/-- The settings with the duration in whole milliseconds. -/
def inMillis (s : BatchSettings) : BatchSettings :=
  { s with flushInterval := s.flushInterval.inMillis }

/-- The duration is a whole number of milliseconds that one word holds. -/
def IsWhole (s : BatchSettings) : Prop := s.flushInterval.IsWhole

instance (s : BatchSettings) : Decidable s.IsWhole :=
  inferInstanceAs (Decidable s.flushInterval.IsWhole)

theorem conveys : Json.Conveys toJson ofJson? inMillis IsWhole where
  back s := by
    have fields : s.toJson.fields? fieldNames = some ⟨false, _⟩ :=
      Json.fields?_object (by simp [fieldNames]) (by simp)
    unfold ofJson?
    simp [fields, Fields.required, Fields.value?, List.lookup_cons, Json.conveys_duration.back,
      Json.word?_ofWord, inMillis]
  lossless s := by
    obtain ⟨most, interval, capacity⟩ := s
    simp only [inMillis, IsWhole, mk.injEq, Duration.inMillis_eq_self, true_and, and_true]
  fit j s h := by
    unfold ofJson? at h
    simp only [Option.bind_eq_bind, Option.bind_eq_some_iff, Option.pure_def,
      Option.some.injEq] at h
    obtain ⟨f, _, most, _, interval, hi, capacity, _, rfl⟩ := h
    exact Fields.required_fit Json.agree_duration hi

end BatchSettings

namespace PoolSettings

/-- The settings with each duration in whole milliseconds. -/
def inMillis (s : PoolSettings) : PoolSettings :=
  { s with
    pollInterval := s.pollInterval.inMillis
    pollJitter := s.pollJitter.inMillis
    drainTimeout := s.drainTimeout.inMillis }

/-- Every duration is a whole number of milliseconds that one word holds. -/
def IsWhole (s : PoolSettings) : Prop :=
  s.pollInterval.IsWhole ∧ s.pollJitter.IsWhole ∧ s.drainTimeout.IsWhole

instance (s : PoolSettings) : Decidable s.IsWhole := inferInstanceAs (Decidable (_ ∧ _))

theorem conveys : Json.Conveys toJson ofJson? inMillis IsWhole where
  back s := by
    have fields : s.toJson.fields? fieldNames = some ⟨false, _⟩ :=
      Json.fields?_object (by simp [fieldNames]) (by simp)
    unfold ofJson?
    simp [fields, Fields.required, Fields.value?, List.lookup_cons, Json.conveys_duration.back,
      Json.word?_ofWord, Json.string?, inMillis]
  lossless s := by
    obtain ⟨id, concurrency, claim, interval, jitter, timeout⟩ := s
    simp only [inMillis, IsWhole, mk.injEq, Duration.inMillis_eq_self, true_and]
  fit j s h := by
    unfold ofJson? at h
    simp only [Option.bind_eq_bind, Option.bind_eq_some_iff, Option.pure_def,
      Option.some.injEq] at h
    obtain ⟨f, _, id, _, concurrency, _, claim, _, interval, hi, jitter, hj, timeout, ht, rfl⟩ := h
    exact ⟨Fields.required_fit Json.agree_duration hi, Fields.required_fit Json.agree_duration hj,
      Fields.required_fit Json.agree_duration ht⟩

end PoolSettings

/-! ## Round trips -/

/-- What is written of a value is read back as what `kept` leaves of it, and nothing is lost of the
values that are `Fit`. -/
structure Json.RoundTripsUpTo {α : Type} (write : α → Json) (read : Json → Option α) (kept : α → α)
    (Fit : α → Prop) : Prop where
  /-- Every value can be written and read back. -/
  back : ∀ a, read (write a) = some (kept a)
  lossless : ∀ a, read (write a) = some a ↔ Fit a
  /-- A value that was read from any form is read back from its own. -/
  settles : ∀ j a, read j = some a → read (write a) = some a

theorem Json.Conveys.roundTrips {α : Type} {write : α → Json} {read : Json → Option α}
    {kept : α → α} {Fit : α → Prop} (h : Json.Conveys write read kept Fit) :
    Json.RoundTripsUpTo write read kept Fit where
  back := h.back
  lossless a := by rw [h.back, Option.some.injEq, h.lossless]
  settles j a reads := h.agree.back a (h.fit j a reads)

/-- **Settings survive the wire in whole milliseconds**: those of a storage and the rests of its
queue updater, those of a batching writer and those of a pool, whatever their sizes, ids and
durations. -/
theorem settings_round_trip :
    Json.RoundTripsUpTo StorageSettings.toJson StorageSettings.ofJson? StorageSettings.inMillis
        StorageSettings.IsWhole ∧
      Json.RoundTripsUpTo Backoff.toJson Backoff.ofJson? Backoff.inMillis Backoff.IsWhole ∧
      Json.RoundTripsUpTo BatchSettings.toJson BatchSettings.ofJson? BatchSettings.inMillis
        BatchSettings.IsWhole ∧
      Json.RoundTripsUpTo PoolSettings.toJson PoolSettings.ofJson? PoolSettings.inMillis
        PoolSettings.IsWhole :=
  ⟨StorageSettings.conveys.roundTrips, Backoff.conveys.roundTrips, BatchSettings.conveys.roundTrips,
    PoolSettings.conveys.roundTrips⟩

/-- Storage settings with sizes of zero and of the largest word, an interval of a millisecond and a
half, and rests of the longest duration, of `2 ^ 64` milliseconds and of one less. -/
def StorageSettings.edged : StorageSettings where
  responseLifetime := .zero
  reaperInterval := .ofNanos 1500000
  promotionBatch := 0
  reaperBatch := 18446744073709551615
  removeFinished := true
  backoff := ⟨.ofSecs 18446744073709551616, .ofMillis 18446744073709551616,
    .ofMillis 18446744073709551615⟩

/-- What is read back of them: the half is gone, and so are `2 ^ 64` milliseconds and their
multiples. -/
def StorageSettings.blunted : StorageSettings :=
  { StorageSettings.edged with
    reaperInterval := .ofMillis 1
    backoff := ⟨.ofMillis 18446744073709551615, .zero, .ofMillis 18446744073709551615⟩ }

/-- Pool settings as the array of their fields. -/
def PoolSettings.positional : Json :=
  .array [.string "", .nat 0, .nat 18446744073709551615, .nat 0, .nat 5,
    .nat 18446744073709551615]

theorem settings_round_trip_edged :
    ¬ StorageSettings.edged.IsWhole ∧ StorageSettings.blunted.IsWhole ∧
      StorageSettings.ofJson? StorageSettings.edged.toJson = some StorageSettings.blunted ∧
      StorageSettings.ofJson? StorageSettings.blunted.toJson = some StorageSettings.blunted ∧
      ∃ s, PoolSettings.ofJson? PoolSettings.positional = some s ∧
        PoolSettings.ofJson? s.toJson = some s := by
  have whole : StorageSettings.blunted.IsWhole := by decide
  have blunt : StorageSettings.edged.inMillis = StorageSettings.blunted := by decide
  have read : PoolSettings.ofJson? PoolSettings.positional =
      some ⟨"", 0, 18446744073709551615, .zero, .ofMillis 5, .ofMillis 18446744073709551615⟩ := by
    decide
  exact ⟨by decide, whole, blunt ▸ settings_round_trip.1.back _,
    (settings_round_trip.1.lossless _).2 whole, _, read, settings_round_trip.2.2.2.settles _ _ read⟩

end Resumption
