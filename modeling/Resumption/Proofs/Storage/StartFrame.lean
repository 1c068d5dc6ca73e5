import Resumption.Proofs.Storage.Ruling
import Resumption.Proofs.Storage.Steadiness
import Resumption.Proofs.Storage.Sweeping

/-!
# What has to do with the start of a storage

Calls other than starts, the loops and the writer leave it alone whether a storage is started, for
which engine, and whether its loops are there (`Storage.Untouched`); and no such call turns into a
start (`Storage.Startless`).

A start sweeps until a pass comes back short or fails, and then recovers (`Storage.sweeping_cases`).
When it recovers it either spawns the loops or fails (`Storage.recovering_cases`).
-/

namespace Resumption

namespace Storage

/-! ## What has nothing to do with a start -/

/-- A call that starts the storage is there. -/
def Phase.opening : Phase → Bool
  | .sweeping => true
  | .recovering => true
  | _ => false

theorem Phase.opening_iff {p : Phase} : p.opening = true ↔ p.Opens := by
  constructor
  · intro h
    cases p with
    | sweeping => exact .inl rfl
    | recovering => exact .inr rfl
    | _ => cases h
  · rintro (rfl | rfl) <;> rfl

/-- For the same engine, as much started as before, and with its loops as far as they were there. -/
structure Untouched (s s' : Storage) : Prop where
  engine : s'.access.engine = s.access.engine
  started : s'.started = s.started
  updater : s'.updater = .absent ↔ s.updater = .absent
  reaper : s'.reaper = .absent ↔ s.reaper = .absent

/-- A step of a call that does not start the storage. -/
structure Startless (s : Storage) (step : Progress × Storage × Database) : Prop where
  untouched : s.Untouched step.2.1
  away : ∀ p, step.1 = .going p → p.opening = false

variable {s s' s'' : Storage}

theorem Untouched.refl (s : Storage) : s.Untouched s := ⟨rfl, rfl, .rfl, .rfl⟩

theorem Untouched.trans (h : s.Untouched s') (h' : s'.Untouched s'') : s.Untouched s'' :=
  ⟨h'.engine.trans h.engine, h'.started.trans h.started, h'.updater.trans h.updater,
    h'.reaper.trans h.reaper⟩

theorem Startless.after {step : Progress × Storage × Database} (h : s.Untouched s')
    (h' : s'.Startless step) : s.Startless step := ⟨h.trans h'.untouched, h'.away⟩

theorem startless_over (h : s.Untouched s') (d : Database) (r : Reply) : s.Startless (.over r, s', d) :=
  ⟨h, fun _ h => nomatch h⟩

theorem startless_going (h : s.Untouched s') (d : Database) {p : Phase} (hp : p.opening = false) :
    s.Startless (.going p, s', d) :=
  ⟨h, fun _ h => by cases h; exact hp⟩

theorem enter_untouched (s : Storage) (c : Command) : s.Untouched (s.enter c).2 := by
  unfold enter
  split
  · exact .refl s
  · exact ⟨rfl, rfl, .rfl, .rfl⟩

theorem beginFail_startless (s : Storage) (d : Database) (w : Workflow) (cause : String) :
    s.Startless (s.beginFail d w cause) := by
  unfold beginFail
  split
  · exact startless_over (.refl s) _ _
  · rename_i id _
    have h := s.enter_untouched (.fail id cause)
    split <;> rename_i he <;> rw [he] at h
    · exact startless_going h _ rfl
    · exact startless_over h _ _

theorem acknowledge_startless (s : Storage) (d : Database) (p : Purpose) (r : Except StoreError Unit) :
    s.Startless (s.acknowledge d p r) := by
  unfold acknowledge
  split
  case h_7 => exact s.beginFail_startless _ _ _
  all_goals exact startless_over (.refl s) _ _

theorem beginWrite_startless (s : Storage) (d : Database) (p : Purpose) (c : Command) :
    s.Startless (s.beginWrite d p c) := by
  have h := s.enter_untouched c
  unfold beginWrite
  split <;> rename_i he <;> rw [he] at h
  · exact startless_going h _ rfl
  · exact .after h (acknowledge_startless _ _ _ _)

theorem begin_startless (s : Storage) (d : Database) {c : Call} (hc : c ≠ .start) :
    s.Startless (s.begin d c) := by
  have same := Untouched.refl s
  cases c with
  | start => exact absurd rfl hc
  | stop =>
    rw [Storage.begin]
    split
    · exact startless_over same _ _
    · exact ⟨⟨rfl, rfl, .rfl, .rfl⟩, fun _ h => by cases h; rfl⟩
  | insert ws =>
    cases ws with
    | nil => exact startless_over same _ _
    | cons w ws => exact startless_going same _ rfl
  | claim pool most =>
    rw [Storage.begin]
    split
    · exact startless_over same _ _
    · exact startless_going same _ rfl
  | suspend w =>
    rw [Storage.begin]
    split
    · exact startless_over same _ _
    · exact s.beginWrite_startless _ _ _
  | fail w cause => exact s.beginFail_startless _ _ _
  | finish w =>
    rw [Storage.begin]
    split
    · exact startless_over same _ _
    · exact s.beginWrite_startless _ _ _
  | notify r => exact s.beginWrite_startless _ _ _
  | submit c => exact s.beginWrite_startless _ _ _
  | closeWriter => exact ⟨⟨rfl, rfl, .rfl, .rfl⟩, fun _ h => by cases h; rfl⟩
  | load id => exact startless_going same _ rfl
  | restart id => exact startless_going same _ rfl
  | restartAll => exact startless_going same _ rfl
  | notifyAll rs => exact startless_going same _ rfl

theorem state_untouched (s : Storage) (d : Database) (q : Statement) :
    s.Untouched (s.state d q).2.1 := by
  cases q <;> rw [state]
  case notify => exact .refl s
  all_goals split <;> exact ⟨rfl, rfl, .rfl, .rfl⟩

theorem write_startless (s : Storage) (d : Database) (p : Purpose) (c : Passage) :
    s.Startless (s.write d p c) := by
  unfold write
  split
  · split
    · exact startless_over (.refl s) _ _
    · exact s.acknowledge_startless _ _ _
    · exact s.acknowledge_startless _ _ _
  · split
    · rename_i b r _
      have h : s.Untouched { s with batcher := some (b.forget ‹_›) } := ⟨rfl, rfl, .rfl, .rfl⟩
      exact .after h (acknowledge_startless _ _ _ _)
    · exact startless_going (.refl s) _ rfl

theorem advance_startless (s : Storage) (time : Nat) (d : Database) {p : Phase}
    (hp : p.opening = false) : s.Startless (s.advance time d p) := by
  cases p with
  | stating q => exact startless_over (s.state_untouched d q) _ _
  | writing p c => exact s.write_startless d p c
  | sweeping => cases hp
  | recovering => cases hp
  | draining stopping =>
    have next : ∀ q, (if stopping then Progress.going .joining else .over .done) = .going q →
        q.opening = false := fun q h => by
      split at h <;> cases h
      rfl
    rw [advance]
    dsimp only
    split
    · exact ⟨.refl s, next⟩
    · exact ⟨⟨rfl, rfl, .rfl, .rfl⟩, next⟩
  | joining => exact startless_over (.refl s) _ _

theorem insertHeld_untouched (s : Storage) (d : Database) (ws : List Workflow) :
    s.Untouched (s.insertHeld d ws).2.1 := by
  unfold insertHeld
  split
  · exact .refl s
  · split <;> exact ⟨rfl, rfl, .rfl, .rfl⟩

theorem stepWorker_untouched (s : Storage) (time : Nat) (d : Database) :
    s.Untouched (Cluster.stepWorker time s d).1 := by
  unfold Cluster.stepWorker
  split
  · exact .refl s
  · exact ⟨rfl, rfl, .rfl, .rfl⟩

theorem afterPass_present (s : Storage) (time : Nat) (rest : Duration) :
    s.afterPass time rest ≠ .absent := by
  unfold afterPass
  split
  · split <;> nofun
  · nofun

theorem stepUpdater_untouched (s : Storage) (time : Nat) (d : Database) :
    s.Untouched (s.stepUpdater time d).1 := by
  -- a loop that goes on was there and still is
  have on : ∀ {u : UpdaterPhase} {w : Bool}, s.updater ≠ .absent → u ≠ .absent →
      s.Untouched { s with updater := u, woken := w } := fun h h' =>
    ⟨rfl, rfl, iff_of_false h' h, .rfl⟩
  unfold stepUpdater
  split <;> rename_i hu
  · have there : s.updater ≠ .absent := by rw [hu]; nofun
    split
    · exact on there (s.afterPass_present _ _)
    · exact on there (s.afterPass_present _ _)
    · exact on there nofun
  · exact on (by rw [hu]; nofun) nofun
  · split <;> exact on (by rw [hu]; nofun) nofun
  · exact .refl s

theorem stepReaper_untouched (s : Storage) (time : Nat) (d : Database) :
    s.Untouched (s.stepReaper time d).1 := by
  have on : ∀ {r : ReaperPhase}, s.reaper ≠ .absent → r ≠ .absent →
      s.Untouched { s with reaper := r } := fun h h' => ⟨rfl, rfl, .rfl, iff_of_false h' h⟩
  unfold stepReaper
  split <;> rename_i hr
  · split <;> exact on (by rw [hr]; nofun) nofun
  · split
    · exact .refl s
    · exact on (by rw [hr]; nofun) nofun
    · exact on (by rw [hr]; nofun) nofun
  · exact .refl s

/-! ## How a start goes on -/

/-- The step of a start that sweeps: it sweeps again only after a full pass, and it ends only when
the pass breaks down. In all other cases it recovers next. -/
theorem sweeping_cases (s : Storage) (time : Nat) (d : Database) :
    (s.advance time d .sweeping).2.1 = s ∧
      ((s.advance time d .sweeping).1 = .going .sweeping ∧ s.answer d = .ok s.sweepBatch ∨
        (s.advance time d .sweeping).1 = .going .recovering ∨
          ∃ m, (s.advance time d .sweeping).1 = .over (.crashed m) ∧
            s.answer d = .error (.crashed m)) := by
  have h := s.sweepOnce_pass d
  have hc : ∀ m, (s.sweepOnce d).1 = .crashed m → s.answer d = .error (.crashed m) := by
    intro m
    rw [sweepOnce, answer]
    rcases (Work.transact (Work.sweep s.sweepBatch)).on d with ⟨(e | m') | n, d'⟩
    · intro h
      cases h
    · intro h
      cases h
      rfl
    · intro h
      dsimp only at h
      split at h <;> cases h
  rw [advance]
  rcases hs : s.sweepOnce d with ⟨_ | _ | m, d'⟩ <;> rw [hs] at h hc <;> refine ⟨rfl, ?_⟩
  · refine .inl ⟨rfl, ?_⟩
    generalize s.answer d = a at h
    cases h with
    | full => rfl
    | failed _ _ stops => exact absurd rfl stops
  · exact .inr (.inl rfl)
  · exact .inr (.inr ⟨m, rfl, hc m rfl⟩)

/-- The step of a start that recovers: it has taken back what ran for the engine, and the loops are
spawned, or it has failed. -/
theorem recovering_cases (s : Storage) (time : Nat) (d : Database) :
    ((s.advance time d .recovering).1 = .over .done ∧
        (s.advance time d .recovering).2.1 = s.spawnLoops time ∧
          d.store.Ruled (some (.recovery s.access.engine))
            (s.advance time d .recovering).2.2.store) ∨
      ∃ e, (s.advance time d .recovering).1 = .over (.ofFailure e) ∧
        (s.advance time d .recovering).2.1 = s ∧
          ((Work.transact (Work.recover s.access)).on d).1 = .error e := by
  rw [advance]
  rcases h : (Work.transact (Work.recover s.access)).on d with ⟨e | n, d'⟩
  · exact .inr ⟨e, rfl, rfl, rfl⟩
  · exact .inl ⟨rfl, rfl, n, Work.transact_callTotal h⟩

theorem ofFailure_ne_done (e : Failure) : Reply.ofFailure e ≠ .done := by
  cases e <;> nofun

theorem spawnLoops_present (s : Storage) (time : Nat) :
    (s.spawnLoops time).updater ≠ .absent ∧ (s.spawnLoops time).reaper ≠ .absent := by
  refine ⟨nofun, ?_⟩
  unfold spawnLoops
  dsimp only
  split <;> nofun

end Storage

end Resumption
