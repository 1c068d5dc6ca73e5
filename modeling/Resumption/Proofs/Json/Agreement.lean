import Resumption.Proofs.Json.Normal
import Resumption.Proofs.Text.Identifier
import Resumption.Proofs.Time.Stamp

/-!
# Writers and readers that agree

The writer and the reader of a type agree on some of its values when these are read back from their
written form and the reader gives no others (`Json.Agree`). Numbers, texts, timestamps and
identifiers agree on all of their values. A list, a value that may be null and a record agree when
their parts do.

Of a duration the wire tells the whole milliseconds that one word holds. What is read back of any
duration, whole or not, is what is told of it (`Json.Conveys`, `Duration.inMillis`).
-/

namespace Resumption

namespace Json

/-- The writer and the reader agree on the values that are `Fit`: these are read back, and the
reader gives no others. -/
structure Agree {α : Type} (write : α → Json) (read : Json → Option α) (Fit : α → Prop) : Prop where
  back : ∀ a, Fit a → read (write a) = some a
  fit : ∀ j a, read j = some a → Fit a

/-- The writer conveys of every value what `kept` leaves of it, and that is read back. Nothing is
lost of the values that are `Fit`, and the reader gives no others. -/
structure Conveys {α : Type} (write : α → Json) (read : Json → Option α) (kept : α → α)
    (Fit : α → Prop) : Prop where
  back : ∀ a, read (write a) = some (kept a)
  lossless : ∀ a, kept a = a ↔ Fit a
  fit : ∀ j a, read j = some a → Fit a

theorem Conveys.agree {α : Type} {write : α → Json} {read : Json → Option α} {kept : α → α}
    {Fit : α → Prop} (h : Conveys write read kept Fit) : Agree write read Fit where
  back a ha := by rw [h.back, (h.lossless a).2 ha]
  fit := h.fit

/-! ## Plain values -/

theorem agree_string : Agree .string string? fun _ => True where
  back _ _ := rfl
  fit _ _ _ := trivial

theorem agree_int32 : Agree ofInt32 int32? fun _ => True where
  back n _ := by
    have least := n.minValue_le_toInt
    have greatest := n.toInt_lt
    simp only [ofInt32, int32?, int, int?]
    rw [if_pos (by simpa using ⟨least, greatest⟩), Int32.ofInt_toInt]
  fit _ _ _ := trivial

theorem agree_instant : Agree ofInstant instant? fun _ => True where
  back t _ := by
    rw [ofInstant, instant?, string?, Option.bind_some]
    exact Instant.ofStamp?_stamp t
  fit _ _ _ := trivial

theorem agree_uuid : Agree ofUuid uuid? fun _ => True where
  back u _ := by
    rw [ofUuid, uuid?, string?, Option.bind_some]
    exact Uuid.ofText?_text u
  fit _ _ _ := trivial

end Json

namespace Duration

/-- The duration is a whole number of milliseconds, and one 64-bit word holds it. -/
def IsWhole (d : Duration) : Prop :=
  d.nanos % 1000000 = 0 ∧ d.nanos / 1000000 < 18446744073709551616

instance (d : Duration) : Decidable d.IsWhole := inferInstanceAs (Decidable (_ ∧ _))

/-- The whole milliseconds of the duration, modulo `2 ^ 64` of them. -/
def inMillis (d : Duration) : Duration :=
  ⟨d.nanos / 1000000 % 18446744073709551616 * 1000000, by omega⟩

variable {d : Duration}

theorem eq_of_nanos {d e : Duration} (h : d.nanos = e.nanos) : d = e := by
  cases d
  cases e
  cases h
  rfl

theorem inMillis_eq_self : d.inMillis = d ↔ d.IsWhole := by
  obtain ⟨nanos, bounded⟩ := d
  simp only [inMillis, IsWhole, mk.injEq]
  omega

/-- A word of milliseconds is read as it stands: no such duration is too long. -/
theorem nanos_ofMillis {n : Nat} (h : n < 18446744073709551616) :
    (ofMillis n).nanos = n * 1000000 := by
  have bounded : n * 1000000 < 18446744073709551616000000000 := by omega
  rw [ofMillis, ofNanos, dif_pos bounded]

theorem isWhole_ofMillis {n : Nat} (h : n < 18446744073709551616) : (ofMillis n).IsWhole := by
  have nanos := nanos_ofMillis h
  constructor <;> omega

theorem ofMillis_wireMillis (d : Duration) : ofMillis d.wireMillis = d.inMillis := by
  have word : d.wireMillis < 18446744073709551616 := Nat.mod_lt _ (by decide)
  apply eq_of_nanos
  rw [nanos_ofMillis word, inMillis, wireMillis, millis]

end Duration

namespace Json

variable {α : Type} {write : α → Json} {read : Json → Option α} {Fit : α → Prop}

theorem size?_eq_some {j : Json} {n : Nat} (h : j.size? = some n) : n < 18446744073709551616 := by
  unfold size? at h
  split at h
  · split at h
    · next below => cases h; exact below
    · cases h
  · cases h

theorem size?_nat {n : Nat} (h : n < 18446744073709551616) : (nat n).size? = some n := by
  simp [nat, int, size?, int?, h]

theorem conveys_duration : Conveys ofDuration duration? Duration.inMillis Duration.IsWhole where
  back d := by
    have word : d.wireMillis < 18446744073709551616 := Nat.mod_lt _ (by decide)
    rw [ofDuration, duration?, size?_nat word, Option.map_some, Duration.ofMillis_wireMillis]
  lossless _ := Duration.inMillis_eq_self
  fit j d h := by
    obtain ⟨n, size, rfl⟩ := Option.map_eq_some_iff.1 h
    exact Duration.isWhole_ofMillis (size?_eq_some size)

theorem agree_duration : Agree ofDuration duration? Duration.IsWhole := conveys_duration.agree

/-! ## Forms of several values -/

theorem Agree.nullable (h : Agree write read Fit) (not_null : ∀ a, write a ≠ .null) :
    Agree (ofOption write) (Json.nullable read) fun o => ∀ a, o = some a → Fit a where
  back o fits := by
    cases o with
    | none => rfl
    | some a =>
      have some_read : Json.nullable read (write a) = (read (write a)).map some := by
        unfold Json.nullable
        split
        · next null => exact absurd null (not_null a)
        · rfl
      rw [ofOption, some_read, h.back a (fits a rfl), Option.map_some]
  fit j o ho a ha := by
    subst ha
    unfold Json.nullable at ho
    split at ho
    · cases ho
    · obtain ⟨b, hb, eq⟩ := Option.map_eq_some_iff.1 ho
      cases eq
      exact h.fit _ _ hb

theorem mapM_write (h : Agree write read Fit) {as : List α} (fits : ∀ a ∈ as, Fit a) :
    (as.map write).mapM read = some as := by
  induction as with
  | nil => rfl
  | cons a as ih =>
    have head := h.back a (fits a (by simp))
    have tail := ih fun a ha => fits a (by simp [ha])
    simp [head, tail]

theorem fit_of_mapM (h : Agree write read Fit) {js : List Json} {as : List α}
    (reads : js.mapM read = some as) : ∀ a ∈ as, Fit a := by
  induction js generalizing as with
  | nil =>
    cases reads
    simp
  | cons j js ih =>
    rw [List.mapM_cons, Option.bind_eq_bind, Option.bind_eq_some_iff] at reads
    obtain ⟨a, head, reads⟩ := reads
    rw [Option.bind_eq_bind, Option.bind_eq_some_iff] at reads
    obtain ⟨rest, tail, eq⟩ := reads
    cases eq
    intro b hb
    rcases List.mem_cons.1 hb with rfl | hb
    · exact h.fit _ _ head
    · exact ih tail b hb

theorem Agree.listOf (h : Agree write read Fit) :
    Agree (ofList write) (Json.listOf read) fun as => ∀ a ∈ as, Fit a where
  back _ fits := mapM_write h fits
  fit j as reads := by
    unfold Json.listOf at reads
    split at reads
    · exact fit_of_mapM h reads
    · cases reads

theorem fields?_object {names : List String} {ms : List (String × Json)}
    (known : ∀ m ∈ ms, m.1 ∈ names) (distinct : (ms.map (·.1)).Nodup) :
    fields? names (.object ms) = some ⟨false, ms⟩ := by
  have all_known : (ms.filter fun m => names.contains m.1) = ms := by
    rw [List.filter_eq_self]
    simpa using known
  simp only [fields?, all_known]
  exact if_pos distinct

end Json

namespace Fields

variable {α : Type} {f : Fields} {name : String} {read : Json → Option α} {j : Json}

theorem required_found (h : f.value? name = some j) : f.required name read = read j := by
  rw [required, h, Option.bind_some]

theorem defaulted_found (h : f.value? name = some j) {default : α} :
    f.defaulted name read default = read j := by
  simp only [defaulted, h]

theorem optional_found {read : Json → Option (Option α)} (h : f.value? name = some j) :
    f.optional name read = read j := by
  simp only [optional, h]

theorem required_eq_some {a : α} (h : f.required name read = some a) : ∃ j, read j = some a := by
  obtain ⟨j, _, hj⟩ := Option.bind_eq_some_iff.1 h
  exact ⟨j, hj⟩

theorem required_fit {write : α → Json} {Fit : α → Prop} (agree : Json.Agree write read Fit) {a : α}
    (h : f.required name read = some a) : Fit a := by
  obtain ⟨j, hj⟩ := required_eq_some h
  exact agree.fit j a hj

theorem defaulted_eq_some {a default : α} (h : f.defaulted name read default = some a) :
    a = default ∨ ∃ j, read j = some a := by
  unfold defaulted at h
  split at h
  · cases h
    exact .inl rfl
  · exact .inr ⟨_, h⟩

end Fields

end Resumption
