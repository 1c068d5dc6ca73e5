import Resumption.Proofs.Database.Job
import Resumption.Proofs.Engine.Preparation
import Resumption.Proofs.Store.Insertion

/-!
# Submitting a batch inside a transaction that the asker holds

The transaction is the asker's, and nobody undoes a part of it. So a batch that fails to be stored has
left in the transaction what came before the failure (`Leavings`): the instances before the first id
that is taken, or nothing, or the whole batch, where the connection reports a failure before the call
or after it. A rollback takes all of it back, and a commit makes it visible.

**Result.** `held_submission_fails`: the batch is gone without a trace exactly when it failed before
its first instance was stored.
-/

namespace Resumption

namespace Work

/-- A call that is refused met a fault before it, or was refused by the store, or met a fault after
it was done. -/
theorem call_refused {α : Type} {m : Method} {o : Store → Except StoreError α × Store}
    {d d' : Database} {cause : StoreError} (h : (call m o).on d = (.error (.refused cause), d')) :
    ((∃ reason, cause = .database reason) ∧ d.faults ≠ [] ∧
        (d'.store = d.store ∨ ∃ a, o d.store = (.ok a, d'.store))) ∨
      o d.store = (.error cause, d'.store) := by
  have refusal : ∀ {after : Bool} {d₁ d₂ : Database},
      (meet m after).on d₁ = (.error (.refused cause), d₂) →
        (∃ reason, cause = .database reason) ∧ d₁.faults ≠ [] := by
    intro after d₁ d₂ h
    refine ⟨?_, fun hq => by rw [meet_quiet hq] at h; cases h⟩
    rw [meet_on] at h
    rcases hb : (Fault.meet m after d₁.faults).1 with _ | (reason | message) <;> rw [hb] at h <;>
      cases h
    exact ⟨reason, rfl⟩
  rcases bind_error h with h | ⟨_, d₁, h₁, h⟩
  · obtain ⟨hr, hf⟩ := refusal h
    exact .inl ⟨hr, hf, .inl (meet_store h)⟩
  rcases bind_error h with h | ⟨a, d₂, h₂, h⟩
  · right
    rw [onStore_on, meet_store h₁] at h
    rcases ho : o d.store with ⟨e | a, s⟩ <;> rw [ho] at h <;> cases h
    rfl
  · left
    rcases bind_error h with h | ⟨_, d₃, -, h⟩
    · obtain ⟨hr, hf⟩ := refusal h
      have hq : d.faults = [] → d₂.faults = [] := by
        intro hq
        rw [meet_quiet hq] at h₁
        cases h₁
        have := congrArg (fun p => p.2.faults) h₂
        rw [onStore_on] at this
        exact this.symm.trans hq
      refine ⟨hr, fun h => hf (hq h), .inr ⟨a, ?_⟩⟩
      rw [onStore_on, meet_store h₁] at h₂
      rw [meet_store h]
      rcases ho : o d.store with ⟨e | a', s⟩ <;> rw [ho] at h₂ <;> cases h₂
      rfl
    · cases h

end Work

/-- What a batch that failed to be stored has left in the transaction: its first `k` instances. -/
structure Leavings (d d' : Database) (work : List (Uuid × Workflow)) (cause : StoreError) (k : Nat) :
    Prop where
  le : k ≤ work.length
  store : d'.store = d.store.appendAll (work.take k)
  held : d'.held = d.held
  /-- The first `k` instances are those before the first id that is taken; or the connection failed
  before anything was stored, or after all of it was. -/
  reason :
    (d.store.Fits work k ∧ ∃ p, work[k]? = some p ∧
        cause = .invalidArgument ("duplicate instance id " ++ p.1.text)) ∨
      d.faults ≠ [] ∧ (∃ r, cause = .database r) ∧ (k = 0 ∨ k = work.length)

variable {e e' : Engine} {x x' : Site} {cause : StoreError}

theorem insert_leavings {d d' : Database} {work : List (Uuid × Workflow)}
    (hn : ∀ p ∈ work, p.2.id = some p.1)
    (h : (Work.insert (work.map (·.2))).on d = (.error (.refused cause), d')) :
    ∃ k, Leavings d d' work cause k := by
  have ha := Work.discreet_call .insert (fun s => s.insert (work.map (·.2))) d
  rw [Work.insert] at h
  rw [h] at ha
  rcases Work.call_refused h with ⟨hr, hf, hs | ⟨u, hs⟩⟩ | hs
  · exact ⟨0, Nat.zero_le _, hs, ha.held, .inr ⟨hf, hr, .inl rfl⟩⟩
  · obtain ⟨-, hs⟩ := Store.insert_ok hn hs
    exact ⟨work.length, Nat.le_refl _, by rw [List.take_length, hs], ha.held,
      .inr ⟨hf, hr, .inr rfl⟩⟩
  · obtain ⟨k, hk, hi⟩ := d.store.insert_named work hn
    rw [hi] at hs
    cases hp : work[k]? with
    | none =>
      rw [hp] at hs
      cases hs
    | some p =>
      rw [hp, Prod.mk.injEq, Except.error.injEq] at hs
      exact ⟨k, hk.le, hs.2.symm, ha.held, .inl ⟨hk, p, hp, hs.1.symm⟩⟩

theorem Leavings.told {d₀ d d' : Database} {work : List (Uuid × Workflow)} {k : Nat}
    (ht : d₀.Told d) (h : Leavings d d' work cause k) : Leavings d₀ d' work cause k := by
  obtain ⟨j, rfl⟩ := ht
  exact ⟨h.le, h.store, h.held, h.reason⟩

theorem insertHeld_leavings {s s' : Storage} {d d' : Database} {work : List (Uuid × Workflow)}
    (hn : ∀ p ∈ work, p.2.id = some p.1)
    (h : s.insertHeld d (work.map (·.2)) = (.refused cause, s', d')) :
    ∃ k, Leavings d d' work cause k := by
  unfold Storage.insertHeld at h
  split at h
  · cases h
  · split at h <;> rename_i he
    · cases h
    · rename_i failure d₁
      cases failure with
      | crashed message => cases h
      | refused c =>
        cases h
        exact insert_leavings hn he

/-- A batch whose storing failed was prepared, and has left a first part of it. -/
theorem storeHeld_leavings {batch : List Submission}
    (h : e.storeHeld x batch = (.over (.refused (.runFailed cause)), e', x')) :
    ∃ ws work k, batch = ws.map .durable ∧ Prepared e.processors.knows ws work ∧
      Leavings x.db x'.db work cause k ∧ e'.processors = e.processors := by
  unfold Engine.storeHeld at h
  rcases Submission.split_batch batch with ⟨-, hb⟩ | ⟨ws, t, rest, -, hb⟩
  · obtain ⟨work, issued, hp, hw⟩ := e.prepare_durable (batch.filterMap Submission.durable?) x
    rw [← hb] at hp
    rw [hp] at h
    dsimp only at h
    split at h <;> rename_i he <;> cases h
    obtain ⟨k, hk⟩ := insertHeld_leavings hw.named he
    exact ⟨_, work, k, hb, hw, hk.told (x.db.told_tellAll _), rfl⟩
  · obtain ⟨issued, hp⟩ := e.prepare_transient ws t rest x
    rw [hb, hp] at h
    cases h

/-- A batch leaves the store as it was exactly when none of it was stored. -/
theorem appendAll_eq_self {s : Store} {work : List (Uuid × Workflow)} {k : Nat}
    (hk : k ≤ work.length) : s.appendAll (work.take k) = s ↔ k = 0 := by
  constructor
  · intro h
    have := congrArg (fun t => t.records.length) h
    simp only [Store.appendAll_records, List.length_append, List.length_mapIdx, List.length_take]
      at this
    omega
  · rintro rfl
    rfl

/-- **A batch that fails inside a held transaction** has left a first part of it there, which a
rollback takes back and a commit makes visible. Nothing is left exactly when that part is empty. -/
theorem held_submission_fails {batch : List Submission} {before : Store}
    (hl : e.lifecycle = .started) (hh : x.db.held = some before)
    (h : e.advanceAsk x (.arriving (.submitHeld batch)) =
      (.over (.refused (.runFailed cause)), e', x')) :
    ∃ ws work k, batch = ws.map .durable ∧ Prepared e.processors.knows ws work ∧
      Leavings x.db x'.db work cause k ∧ e'.processors = e.processors ∧
      (x'.db.store = x.db.store ↔ k = 0) ∧
      (x'.db.next .rollback).store = before ∧ (x'.db.next .forget).store = before ∧
      (x'.db.faults = [] → (x'.db.next .commit).store = x.db.store.appendAll (work.take k)) := by
  simp only [Engine.advanceAsk, Ask.needsAdmission, Engine.admission, hl, Engine.accept,
    if_true] at h
  obtain ⟨ws, work, k, hb, hw, hk, hp⟩ := storeHeld_leavings h
  have hheld := hk.held.trans hh
  refine ⟨ws, work, k, hb, hw, hk, hp, by rw [hk.store, appendAll_eq_self hk.le],
    Database.rollback_held hheld, Database.forget_held hheld, fun hq => ?_⟩
  have hc : (Work.commit before).on { x'.db with held := none } = _ := Work.commit_quiet hq
  rw [Database.next, Work.commitHeld, Work.on_bind, Database.release_on, hheld]
  simp only [Option.getD_some, hc]
  exact hk.store

/-- An asker whose transaction is open, and nothing is stored. -/
def openCounter : Engine × Site :=
  ({ Engine.create "engine" .empty id (.create "engine" default none false)
      [.probe (.create Workflow.defaultPool false false)] with
      lifecycle := .started, gate := Gate.closed.opened },
    .create ((Database.create .epoch).next .hold))

/-- A batch that names the same new id twice. -/
def twice : List Submission :=
  [.durable { Workflow.create "t" .null with id := some ⟨1⟩ },
    .durable { Workflow.create "t" .null with id := some ⟨1⟩ }]

theorem held_submission_fails_twice :
    ∃ ws work k, twice = ws.map Submission.durable ∧
      Prepared openCounter.1.processors.knows ws work ∧ k ≤ work.length ∧ k ≠ 0 := by
  have h : openCounter.1.advanceAsk openCounter.2 (.arriving (.submitHeld twice)) =
      (.over (.refused (.runFailed _)), _, _) := rfl
  obtain ⟨ws, work, k, hb, hw, hk, -, hz, -⟩ := held_submission_fails rfl rfl h
  exact ⟨ws, work, k, hb, hw, hk.le, fun h => absurd (hz.2 h) (by decide)⟩

/-- A part of a batch that was not stored is visible after the commit. -/
theorem held_submission_leaves_part :
    ∃ cause e x, openCounter.1.advanceAsk openCounter.2 (.arriving (.submitHeld twice)) =
        (.over (.refused (.runFailed cause)), e, x) ∧
      openCounter.2.db.store.ids = [] ∧ (x.db.next .commit).store.ids = [⟨1⟩] :=
  ⟨_, _, _, rfl, rfl, rfl⟩

end Resumption
