import Resumption.Cluster.Basic

/-!
# What starts and stops a storage

A storage is started by a start and stopped by a stop, and nothing else that is asked of it or that
its loops and its writer do changes that (`Storage.Steady`). A writer whose worker was waited for
stays so.

A start first sweeps and recovers, and a stop first waits for the worker and then for the loops
(`opening_cases`, `shutting_cases`): **when a stop is over, the worker of the writer was waited for,
and no loop runs.**
-/

namespace Resumption

namespace Storage

/-- The worker of the writer, if there is one, was waited for. -/
def Joined (s : Storage) : Prop := ∀ b ∈ s.batcher, b.joined = true

/-- Started and stopped as before. -/
structure Steady (s s' : Storage) : Prop where
  started : s'.started = s.started
  stopped : s'.stopped = s.stopped
  joined : s.Joined → s'.Joined

/-- The call neither starts nor stops the storage. -/
def Call.Ordinary : Call → Prop
  | .start => False
  | .stop => False
  | _ => True

variable {s s' s'' : Storage}

theorem Steady.refl (s : Storage) : s.Steady s := ⟨rfl, rfl, id⟩

theorem Steady.trans (h : s.Steady s') (h' : s'.Steady s'') : s.Steady s'' :=
  ⟨h'.started.trans h.started, h'.stopped.trans h.stopped, h'.joined ∘ h.joined⟩

/-- The writer goes on, and its worker is as much waited for as it was. -/
theorem steady_writer {b b' : Batcher} (hb : s.batcher = some b) (hj : b.joined → b'.joined) :
    s.Steady { s with batcher := some b' } :=
  ⟨rfl, rfl, fun h _ hm => by cases hm; exact hj (h b hb)⟩

/-! ## Calls -/

theorem enter_steady (s : Storage) (c : Command) : s.Steady (s.enter c).2 := by
  unfold enter
  split
  · exact .refl s
  · rename_i b hb
    refine steady_writer hb fun hj => ?_
    unfold Batcher.submit
    split <;> exact hj

theorem beginFail_steady (s : Storage) (d : Database) (w : Workflow) (cause : String) :
    s.Steady (s.beginFail d w cause).2.1 := by
  unfold beginFail
  split
  · exact .refl s
  · rename_i id _
    have h := s.enter_steady (.fail id cause)
    split <;> rename_i he <;> rw [he] at h <;> exact h

theorem acknowledge_steady (s : Storage) (d : Database) (p : Purpose) (r : Except StoreError Unit) :
    s.Steady (s.acknowledge d p r).2.1 := by
  unfold acknowledge
  split
  case h_7 => exact s.beginFail_steady _ _ _
  all_goals exact .refl s

theorem beginWrite_steady (s : Storage) (d : Database) (p : Purpose) (c : Command) :
    s.Steady (s.beginWrite d p c).2.1 := by
  have h := s.enter_steady c
  unfold beginWrite
  split <;> rename_i he <;> rw [he] at h
  · exact h
  · exact h.trans (acknowledge_steady _ _ _ _)

theorem begin_steady (s : Storage) (d : Database) {c : Call} (hc : c.Ordinary) :
    s.Steady (s.begin d c).2.1 := by
  cases c with
  | start => exact hc.elim
  | stop => exact hc.elim
  | insert ws => cases ws <;> exact .refl s
  | claim pool most =>
    rw [Storage.begin]
    split <;> exact .refl s
  | suspend w =>
    rw [Storage.begin]
    split
    · exact .refl s
    · exact s.beginWrite_steady _ _ _
  | fail w cause => exact s.beginFail_steady _ _ _
  | finish w =>
    rw [Storage.begin]
    split
    · exact .refl s
    · exact s.beginWrite_steady _ _ _
  | notify r => exact s.beginWrite_steady _ _ _
  | submit c => exact s.beginWrite_steady _ _ _
  | closeWriter =>
    refine ⟨rfl, rfl, fun h b' hb' => ?_⟩
    obtain ⟨b, hb, rfl⟩ := Option.map_eq_some_iff.1 hb'
    exact h b hb
  | load id => exact .refl s
  | restart id => exact .refl s
  | restartAll => exact .refl s
  | notifyAll rs => exact .refl s

theorem state_steady (s : Storage) (d : Database) (q : Statement) : s.Steady (s.state d q).2.1 := by
  cases q <;> rw [state]
  case notify => exact .refl s
  all_goals split <;> exact ⟨rfl, rfl, id⟩

theorem write_steady (s : Storage) (d : Database) (p : Purpose) (c : Passage) :
    s.Steady (s.write d p c).2.1 := by
  unfold write
  split
  · split
    · exact .refl s
    · exact s.acknowledge_steady _ _ _
    · exact s.acknowledge_steady _ _ _
  · rename_i ticket
    split
    · rename_i b r h
      obtain ⟨b₀, hb, hr⟩ := Option.bind_eq_some_iff.1 h
      obtain ⟨_, _, he⟩ := Option.map_eq_some_iff.1 hr
      cases he
      have hf : s.Steady { s with batcher := some (b.forget ticket) } := steady_writer hb id
      exact hf.trans (acknowledge_steady _ _ _ _)
    · exact .refl s

theorem advance_steady (s : Storage) (time : Nat) (d : Database) (p : Phase) :
    s.Steady (s.advance time d p).2.1 := by
  cases p with
  | stating q => exact s.state_steady d q
  | writing p c => exact s.write_steady d p c
  | sweeping =>
    rw [advance]
    split <;> exact .refl s
  | recovering =>
    rw [advance]
    split <;> exact ⟨rfl, rfl, id⟩
  | draining stopping =>
    rw [advance]
    dsimp only
    split
    · exact .refl s
    · exact steady_writer ‹_› fun _ => rfl
  | joining => exact .refl s

theorem insertHeld_steady (s : Storage) (d : Database) (ws : List Workflow) :
    s.Steady (s.insertHeld d ws).2.1 := by
  unfold insertHeld
  split
  · exact .refl s
  · split <;> exact ⟨rfl, rfl, id⟩

/-! ## Loops and the writer -/

theorem stepUpdater_steady (s : Storage) (time : Nat) (d : Database) :
    s.Steady (s.stepUpdater time d).1 := by
  unfold stepUpdater
  split
  · split <;> exact ⟨rfl, rfl, id⟩
  · exact ⟨rfl, rfl, id⟩
  · split <;> exact ⟨rfl, rfl, id⟩
  · exact .refl s

theorem stepReaper_steady (s : Storage) (time : Nat) (d : Database) :
    s.Steady (s.stepReaper time d).1 := by
  unfold stepReaper
  split
  · split <;> exact ⟨rfl, rfl, id⟩
  · split <;> exact ⟨rfl, rfl, id⟩
  · exact .refl s

theorem stepWorker_steady (s : Storage) (time : Nat) (d : Database) :
    s.Steady (Cluster.stepWorker time s d).1 := by
  unfold Cluster.stepWorker
  split
  · exact .refl s
  · rename_i b hb
    have hj : (b.step s.access time d).1.joined = b.joined := by
      unfold Batcher.step
      split
      · split <;> rfl
      · split <;> rfl
      · split <;> rfl
      · rfl
      · split <;> rfl
      · rfl
      · rfl
    exact steady_writer hb fun h => hj.trans h

/-! ## Starts and stops -/

/-- Where the start of a storage is. -/
def Phase.Opens (p : Phase) : Prop := p = .sweeping ∨ p = .recovering

/-- Where the stop of a storage is, which waits for the worker of the writer first. -/
def Phase.Shuts (p : Phase) (s : Storage) : Prop :=
  p = .draining true ∨ p = .joining ∧ s.Joined

theorem begin_start_fresh (d : Database) (h : s.started = false) :
    s.begin d .start = (.going .sweeping, { s with started := true }, d) := by
  rw [Storage.begin, h]
  rfl

/-- A storage that was not stopped waits for the worker of its writer first. -/
theorem begin_stop_fresh (d : Database) (h : s.stopped = false) :
    s.begin d .stop =
      (.going (.draining true), { s with stopped := true, batcher := s.batcher.map Batcher.close },
        d) := by
  rw [Storage.begin, h]
  rfl

theorem advance_opens (time : Nat) (d : Database) {p q : Phase} (hp : p.Opens)
    (h : (s.advance time d p).1 = .going q) : q.Opens := by
  obtain rfl | rfl := hp <;> rw [advance] at h <;> split at h <;> cases h
  · exact .inl rfl
  · exact .inr rfl

/-- **A stop goes on**, and when it is over, the worker of the writer was waited for and no loop
runs. -/
theorem advance_shuts (time : Nat) (d : Database) {p : Phase} {free : Bool} (hp : p.Shuts s)
    (hr : s.ready free p = true) :
    (∃ q, (s.advance time d p).1 = .going q ∧ q.Shuts (s.advance time d p).2.1) ∨
      (s.advance time d p).1 = .over .done ∧ (s.advance time d p).2.1.Joined ∧
        (s.advance time d p).2.1.loopsOver = true := by
  obtain rfl | ⟨rfl, hj⟩ := hp
  · refine .inl ⟨.joining, ?_, .inr ⟨rfl, ?_⟩⟩ <;> rw [advance] <;> dsimp only <;> split
    · rfl
    · rfl
    · rename_i hb
      exact fun b h => by rw [hb] at h; cases h
    · exact fun b h => by cases h; rfl
  · exact .inr ⟨rfl, hj, hr⟩

end Storage

end Resumption
