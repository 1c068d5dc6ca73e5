import Resumption.Proofs.Storage.Service
import Resumption.Proofs.Time.Sum

/-!
# How long a response waits

A response that nobody waited for when it arrived stays unclaimed, unchanged and in the order of
arrival, until a suspension that names its id takes it, the earliest to this id first, or a sweep
discards it. The sweep comes when the response has outlived its own lifetime, or else the one that the
storage is configured with, in exact arithmetic (`Response.Outlived`): the storage settles the
lifetime before it delivers, and the sum of time and lifetime is exact or not representable
(`Instant.add?_exact`), in which case the response lives to the last instant.

`Service.responses_abide` says so of every run of a storage, with any other engines on the same
store, and any faults. The clock may even be put back.
-/

namespace Resumption

/-! ## Expiry -/

namespace Response

/-- At `now` the response has outlived its lifetime, its own or else the default one, in exact
arithmetic. If time and lifetime add up to no representable instant, that is from the last instant
on. -/
def Outlived (r : Response) (default : Duration) (now : Instant) : Prop :=
  if r.time.sinceEpoch + (r.lifetime.getD default).nanos ≤ Instant.last.sinceEpoch then
    r.time.sinceEpoch + (r.lifetime.getD default).nanos ≤ now.reading
  else Instant.last ≤ now

/-- A response that has expired has outlived its lifetime. -/
theorem outlived_of_expired {r : Response} {default : Duration} {now : Instant}
    (h : r.expiry default ≤ now) : r.Outlived default now := by
  unfold Outlived
  unfold expiry at h
  cases ha : r.time.add? (r.lifetime.getD default) with
  | none =>
    have hno : ¬ _ := mt Instant.add?_isSome.2 (by rw [ha]; exact Bool.false_ne_true)
    rw [if_neg hno]
    rwa [ha] at h
  | some e =>
    rw [if_pos (Instant.add?_isSome.1 (by rw [ha]; rfl)), ← Instant.add?_exact ha]
    rw [ha] at h
    exact Instant.sinceEpoch_le_reading h

end Response

/-! ## Runs -/

namespace Service

variable {k : Service} {given : List Response} {os : List Occasion} {log : List (List Action)}

theorem Fresh.sound (h : k.Fresh) : k.Sound [] := by
  refine ⟨fun p hp => ?_, fun x hx => ?_, fun b hb => ?_⟩
  · rw [h.calls] at hp
    cases hp
  · rw [h.line] at hx
    cases hx
  · rw [h.free] at hb
    cases hb

/-- Whatever is delivered in a run was offered to the storage, before the run or in it, and had its
lifetime settled, or others delivered it. -/
theorem History.origin (h : k.History given os log) {x : Response}
    (hx : .deliver x ∈ log.flatten) :
    (∃ r ∈ given ++ os.flatMap Occasion.offered, x = k.storage.settle r) ∨
      ∃ a now q, .others a q ∈ os ∧ .deliver x ∈ Store.Request.actions ⟨a, now, q⟩ := by
  induction h with
  | nil k given => cases hx
  | @cons k given o xs os log step later ih =>
    rw [List.flatten_cons] at hx
    rcases List.mem_append.1 hx with hx | hx
    · by_cases ho : ∃ a q, o = .others a q
      · obtain ⟨a, q, rfl⟩ := ho
        rcases step.done with rfl | rfl
        · cases hx
        · exact .inr ⟨a, _, q, List.mem_cons_self, hx⟩
      · obtain ⟨r, hr, rfl⟩ := step.settled (fun a q h => ho ⟨a, q, h⟩) x hx
        refine .inl ⟨r, ?_, rfl⟩
        rw [List.flatMap_cons, ← List.append_assoc]
        exact List.mem_append_left _ hr
    · rcases ih hx with ⟨r, hr, rfl⟩ | ⟨a, now, q, ho, ha⟩
      · refine .inl ⟨r, ?_, by rw [Storage.settle_eq step.settings]⟩
        rwa [List.flatMap_cons, ← List.append_assoc]
      · exact .inr ⟨a, now, q, List.mem_cons_of_mem _ ho, ha⟩

/-- What a run does to responses that nobody waits for; `log` lists the actions that take effect, step
by step. -/
structure Lifetimes (k : Service) (os : List Occasion) (log : List (List Action)) : Prop where
  /-- Each step does what it stands for. Responses offered alone, as a list or in a held transaction
  come down to the same deliveries in the same order, with their lifetimes settled. -/
  history : k.History [] os log
  leads : k.committed.Performs log.flatten (k.run os).committed
  origin : ∀ x, .deliver x ∈ log.flatten →
    (∃ r ∈ os.flatMap Occasion.offered, x = k.storage.settle r) ∨
      ∃ a now q, .others a q ∈ os ∧ .deliver x ∈ Store.Request.actions ⟨a, now, q⟩
  /-- A response that finds no open wait arrives at the end of the unclaimed ones and abides. -/
  abides : ∀ past r future, log.flatten = past ++ .deliver (k.storage.settle r) :: future →
    (∀ t ∈ (k.committed.afterAll past).records, t.wants r.correlation = false) →
      Store.Abides ⟨k.storage.settle r, r.expiry k.storage.settings.responseLifetime⟩
        (k.committed.afterAll (past ++ [.deliver (k.storage.settle r)]))
        (k.committed.afterAll past).unclaimed [] future
  /-- It expires when it has outlived its lifetime. -/
  expiry : ∀ (r : Response) now, r.expiry k.storage.settings.responseLifetime ≤ now →
    r.Outlived k.storage.settings.responseLifetime now
  /-- A sweep leaves the instances alone, with the answers to their waits and those they were
  delivered. -/
  spared : ∀ past now most future, log.flatten = past ++ .sweep now most :: future →
    (k.committed.afterAll (past ++ [.sweep now most])).records =
      (k.committed.afterAll past).records

/-- **How long a response waits**, in every run of a storage. -/
theorem responses_abide (hk : k.Fresh) (h : k.Legal os) : ∃ log, k.Lifetimes os log := by
  obtain ⟨log, hlog⟩ := run_history os hk.sound h
  refine ⟨log, hlog, hlog.performs, fun x hx => ?_, fun past r future _ hno => ?_,
    fun r now => Response.outlived_of_expired, fun past now most future _ => ?_⟩
  · simpa using hlog.origin hx
  · have harrive : (k.committed.afterAll (past ++ [.deliver (k.storage.settle r)])).unclaimed =
        (k.committed.afterAll past).unclaimed ++
          [⟨k.storage.settle r, r.expiry k.storage.settings.responseLifetime⟩] := by
      rw [Store.afterAll_append]
      show ((k.committed.afterAll past).deliver (k.storage.settle r)).unclaimed = _
      rw [Store.deliver, Store.target?, List.filter_eq_nil_iff.2]
      · rfl
      · intro t ht
        rw [Bool.not_eq_true]
        exact hno t ht
    exact Store.abides future harrive
  · rw [Store.afterAll_append]
    rfl

/-- A storage that is not started, over an empty store, in the first instant of 1970. -/
def dawn : Service := ⟨.create "engine" .standard none false, .create .epoch, 0, []⟩

/-- A response comes that sets no lifetime, the storage starts after half an hour, and its reaper
sweeps after two hours. -/
def morning : List Occasion :=
  [.comes (.notify ⟨"c", .ok .null, .epoch, none⟩), .goesOn 0,
    .weather [] ⟨1800, 0, by decide, by decide, by decide⟩, .comes .start, .goesOn 0, .goesOn 0,
    .weather [] ⟨7200, 0, by decide, by decide, by decide⟩, .passes 7200000000000, .reaps, .reaps]

/-- The sweep of the start leaves a response that has an hour to live, and the reaper discards it. -/
theorem responses_abide_morning :
    (dawn.run (morning.take 6)).committed.unclaimed.length = 1 ∧
      (dawn.run morning).committed.unclaimed = [] ∧ ∃ log, dawn.Lifetimes morning log := by
  have next : ∀ {k : Service} {place : Nat} {p : Storage.Phase}, k.calls[place]? = some p →
      k.storage.ready k.database.held.isNone p = true → k.Allows (.goesOn place) := by
    intro k place p hp hr q hq
    rw [hp] at hq
    cases hq
    exact hr
  have legal : dawn.Legal morning :=
    ⟨trivial, next (p := .writing .plain (.alone (.notify _))) rfl rfl, trivial, trivial,
      next (p := .sweeping) rfl rfl, next (p := .recovering) rfl rfl, trivial, trivial, rfl, rfl,
      trivial⟩
  exact ⟨by decide, by decide, responses_abide ⟨rfl, rfl, rfl⟩ legal⟩

end Service

end Resumption
