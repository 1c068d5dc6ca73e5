import Resumption.Proofs.Cluster.Charge

/-!
# Who starts a storage

The storage of an engine is started by a call of its own or by the start of the engine, and keeps in
mind that a start came (`Storage.started`). A start that comes to a storage which was not started
sweeps and recovers; one that comes later is granted at once, whatever became of the first.

`Task.Opens` says that a start is about to come to the storage, and `Task.Grants` that a start is
granted. **Nothing but a start that comes makes a storage started**: whatever happens to a cluster,
the storage of an engine was started before, or a start comes to it, or the engine joins with a
storage that is started (`Cluster.happen_started`).
-/

namespace Resumption

/-- A start comes to the storage in the next step of the task. -/
def Task.Opens (e : Engine) (x : Site) : Task → Prop
  | .arriving (.call .start) => True
  | .starting .entering => .startStorage ∈ e.startOrders x .entering
  | _ => False

/-- The next step of the task grants a start of the storage: one that comes with it, or one that has
come, for its caller or for the start of the engine. -/
inductive Task.Grants (e : Engine) (x : Site) : Task → Prop
  | comes {t : Task} (opens : t.Opens e x)
      (granted : (e.storage.begin x.db .start).1 = .over .done) : Grants e x t
  | calling {p : Storage.Phase} (opens : p.Opens)
      (granted : (e.storage.advance x.time x.db p).1 = .over .done) : Grants e x (.storing p)
  | starting {p : Storage.Phase} (opens : p.Opens)
      (granted : (e.storage.advance x.time x.db p).1 = .over .done) :
      Grants e x (.starting (.opening p))

/-! ## What a step makes of the storage -/

theorem Storage.begin_started (s : Storage) (d : Database) {k : Storage.Call} (hk : k ≠ .start) :
    (s.begin d k).2.1.started = s.started := by
  cases k with
  | start => exact absurd rfl hk
  | stop =>
    rw [Storage.begin]
    split <;> rfl
  | _ => exact (s.begin_steady d (by trivial)).started

/-- A start that is granted at once found the storage started. -/
theorem Storage.started_of_granted {s : Storage} {d : Database}
    (h : (s.begin d .start).1 = .over .done) : s.started = true := by
  by_contra hn
  rw [Storage.begin_start_fresh d (by simpa using hn)] at h
  cases h

namespace Engine

variable {e : Engine} {x : Site}

theorem advanceHalt_storage (e : Engine) (x : Site) (place : Nat) (h : Pool.StopProgress) :
    (e.advanceHalt x place h).2.1.storage = e.storage := by
  unfold advanceHalt
  split
  · rfl
  · rfl
  · split <;> rfl

theorem advanceHalts_storage (hs : List Pool.StopProgress) :
    ∀ (e : Engine) (x : Site) (place : Nat),
      (e.advanceHalts x place hs).2.1.storage = e.storage := by
  induction hs with
  | nil => exact fun _ _ _ => rfl
  | cons h hs ih => exact fun e x place => (ih _ _ _).trans (e.advanceHalt_storage x place h)

theorem startProcessors_storage (e : Engine) (x : Site) (r : Storage.Reply) :
    (e.startProcessors x r).2.1.storage = e.storage := by
  unfold startProcessors
  split
  · rfl
  · split <;> rfl

/-- A start of the engine that does not get to its storage leaves that alone. -/
theorem startComponents_storage (h : .startStorage ∉ e.componentOrders x) :
    (e.startComponents x).2.1.storage = e.storage := by
  unfold componentOrders at h
  unfold startComponents
  split
  · rfl
  · rename_i knows
    rw [if_neg knows] at h
    dsimp only at h ⊢
    split <;> rename_i registered
    · rfl
    · rw [registered] at h
      exact absurd (List.mem_append_left _ (by simp)) h

theorem shutAfterFailure_started (e : Engine) (x : Site) (reason : EngineError) :
    (e.shutAfterFailure x reason).2.1.storage.started = e.storage.started := by
  have h := e.storage.begin_started x.db (k := .stop) (by simp)
  unfold shutAfterFailure
  split <;> rename_i he <;> rw [he] at h <;> exact h

theorem advanceStart_started {p : StartPhase}
    (h : ¬ (Task.starting p).Opens e x) :
    (e.advanceStart x p).2.1.storage.started = e.storage.started := by
  cases p with
  | entering =>
    rw [advanceStart]
    split
    · rename_i raw
      have none : .startStorage ∉ e.startOrders x .entering := h
      rw [startOrders, if_pos raw] at none
      exact congrArg Storage.started
        (startComponents_storage (e := { e with changing := true }) none)
    · rfl
  | opening p =>
    have h := (e.storage.advance_steady x.time x.db p).started
    rw [advanceStart]
    split <;> rename_i he <;> rw [he] at h
    · exact h
    · rw [startProcessors_storage]
      exact h
  | closing reason halts =>
    have h := advanceHalts_storage halts e x 0
    rw [advanceStart]
    dsimp only
    split
    · rw [h]
    · rw [shutAfterFailure_started, h]
  | shutting reason p =>
    have h := (e.storage.advance_steady x.time x.db p).started
    rw [advanceStart]
    split <;> rename_i he <;> rw [he] at h <;> exact h

theorem advanceStop_started (e : Engine) (x : Site) (p : StopPhase) :
    (e.advanceStop x p).2.1.storage.started = e.storage.started := by
  cases p with
  | entering =>
    rw [advanceStop]
    split <;> rfl
  | closing halts =>
    have h := advanceHalts_storage halts e x 0
    rw [advanceStop]
    dsimp only
    split
    · rw [h]
    · rename_i failures _
      have hb := (e.advanceHalts x 0 halts).2.1.storage.begin_started
        (tellFailures (e.advanceHalts x 0 halts).2.2 failures).db (k := .stop) (by simp)
      split <;> rename_i he <;> rw [he] at hb <;> exact hb.trans (congrArg Storage.started h)
  | shutting outcome p =>
    have h := (e.storage.advance_steady x.time x.db p).started
    rw [advanceStop]
    split <;> rename_i he <;> rw [he] at h <;> exact h

end Engine

namespace Cluster

variable {c : Cluster} {e e' : Engine} {place : Nat} {x : Site}

/-- **A step of a task** in which no start comes to the storage. -/
theorem advanceTask_started {t : Task} (h : ¬ t.Opens e x) :
    (advanceTask e x t).2.1.storage.started = e.storage.started := by
  cases t with
  | arriving d =>
    cases d with
    | call k =>
      have hk : k ≠ .start := by
        rintro rfl
        exact h trivial
      have hb := e.storage.begin_started x.db hk
      rw [advanceTask, takeUp]
      split <;> rename_i he <;> rw [he] at hb <;> exact hb
    | stopProcessor place =>
      rw [advanceTask, takeUp]
      split
      · rfl
      · dsimp only
        split <;> rfl
    | startProcessor place =>
      rw [advanceTask, takeUp]
      split <;> rfl
    | _ => rfl
  | asking p =>
    have hs := (e.advanceAsk_steady x p).storage.started
    rw [advanceTask]
    split <;> rename_i he <;> rw [he] at hs <;> exact hs
  | storing p =>
    have hs := (e.storage.advance_steady x.time x.db p).started
    rw [advanceTask]
    split <;> rename_i he <;> rw [he] at hs <;> exact hs
  | starting p =>
    rw [advanceTask_starting]
    exact Engine.advanceStart_started h
  | stopping p =>
    rw [advanceTask_stopping]
    exact e.advanceStop_started x p
  | halting place p =>
    have hs := e.advanceHalt_storage x place (.going p)
    rw [advanceTask]
    split <;> rename_i he <;> rw [he] at hs <;> exact congrArg Storage.started hs

/-- When this happens, a start comes to the storage of the engine at the place, or the engine joins
with a storage that is started. -/
def Brings (c : Cluster) (place : Nat) (x : Happening) : Prop :=
  (∃ e r, c.turn? place x = some (e, r) ∧ r.task.Opens e c.site) ∨
    ∃ e, x = .joins e ∧ c.engines.length = place ∧ e.storage.started = true

/-- The storage of the engine at the place is started. -/
def StartedAt (c : Cluster) (place : Nat) : Prop :=
  ∃ e, c.engines[place]? = some e ∧ e.storage.started = true

/-- An engine that is put back, with a storage that is started only if it was. -/
theorem startedAt_set {p : Nat} {o o' : Engine} {c' : Cluster} (ho : c.engines[p]? = some o)
    (hc : c'.engines = c.engines.set p o')
    (hs : place = p → o'.storage.started = o.storage.started) (h : c'.StartedAt place) :
    c.StartedAt place := by
  obtain ⟨e, he, started⟩ := h
  rw [hc] at he
  by_cases hp : place = p
  · subst hp
    rw [List.getElem?_set_self', ho] at he
    cases he
    exact ⟨o, ho, (hs rfl).symm.trans started⟩
  · rw [List.getElem?_set_ne (Ne.symm hp)] at he
    exact ⟨e, he, started⟩

theorem stepEngine_startedAt {p : Nat} {f : Engine → Site → Engine × Site}
    (hf : ∀ (e : Engine) x, e.Steady (f e x).1) (h : (c.stepEngine p f).StartedAt place) :
    c.StartedAt place := by
  unfold stepEngine at h
  split at h
  · exact h
  · rename_i o ho
    exact startedAt_set ho rfl (fun _ => (hf o c.site).storage.started) h

theorem stepStorage_startedAt {p : Nat} {f : Storage → Database → Storage × Database}
    (hf : ∀ (s : Storage) d, s.Steady (f s d).1) (h : (c.stepStorage p f).StartedAt place) :
    c.StartedAt place :=
  stepEngine_startedAt (fun e x => Engine.steady_storage (hf e.storage x.db)) h

/-- An engine whose storage stays as much started as it was. -/
theorem startedAt_modify {p : Nat} {f : Engine → Engine} {c' : Cluster}
    (hf : ∀ e, (f e).storage.started = e.storage.started)
    (hc : c'.engines = c.engines.modify p f) (h : c'.StartedAt place) : c.StartedAt place := by
  obtain ⟨e, he, started⟩ := h
  rw [hc, List.getElem?_modify] at he
  obtain ⟨o, ho, rfl⟩ := Option.map_eq_some_iff.1 he
  refine ⟨o, ho, ?_⟩
  split at started
  · exact (hf o).symm.trans started
  · exact started

theorem giveUp_startedAt {r : Request} (h : (c.giveUp r).StartedAt place) : c.StartedAt place := by
  unfold giveUp at h
  dsimp only at h
  split at h
  · exact h
  · exact h
  · exact startedAt_modify (f := fun e => { e with changing := false }) (fun _ => rfl) rfl h
  · exact startedAt_modify (f := fun e => { e with changing := false }) (fun _ => rfl) rfl h
  · exact h

theorem goOn_engines (c : Cluster) (e : Engine) (r : Request) :
    (c.goOn e r).engines = c.engines.set r.engine (advanceTask e c.site r.task).2.1 := by
  unfold goOn
  split <;> rename_i he <;> rw [he] <;> rfl

theorem stepRequest_startedAt {serial : Nat} (hr : c.ready (.request serial) = true)
    (h : (c.stepRequest serial).StartedAt place) :
    c.StartedAt place ∨ c.Brings place (.goes (.request serial)) := by
  unfold stepRequest at h
  split at h
  · exact .inl h
  · rename_i r hq
    split at h
    · exact .inl h
    · rename_i e he
      split at h
      · exact .inl (giveUp_startedAt h)
      · rename_i hnot
        by_cases opens : r.engine = place ∧ r.task.Opens e c.site
        · obtain ⟨rfl, opens⟩ := opens
          have ready := taskReady_of_ready hr hq he hnot
          exact .inr (.inl ⟨e, r, turn?_request hq he rfl ready, opens⟩)
        · refine .inl (startedAt_set he (goOn_engines c e r) (fun hp => ?_) h)
          exact advanceTask_started fun ho => opens ⟨hp.symm, ho⟩

/-- **Whatever happens,** no storage is started that was not, but by a start that comes to it. -/
theorem happen_started {x : Happening} (hx : ∀ a, x = .goes a → c.ready a = true)
    (h : (c.happen x).StartedAt place) : c.StartedAt place ∨ c.Brings place x := by
  cases x with
  | goes a =>
    cases a with
    | request serial => exact stepRequest_startedAt (hx _ rfl) h
    | worker p => exact .inl (stepStorage_startedAt (fun s d => s.stepWorker_steady _ d) h)
    | updater p => exact .inl (stepStorage_startedAt (fun s d => s.stepUpdater_steady _ d) h)
    | reaper p => exact .inl (stepStorage_startedAt (fun s d => s.stepReaper_steady _ d) h)
    | poll p q => exact .inl (stepEngine_startedAt (fun e x => e.stepPoll_steady x q) h)
    | dispatch p q serial =>
      exact .inl (stepEngine_startedAt (fun e x => e.stepDispatch_steady x _ q serial) h)
  | delivers p rs =>
    rw [happen] at h
    split at h <;> exact .inl h
  | joins o =>
    obtain ⟨e, he, started⟩ := h
    change (c.engines ++ [o])[place]? = some e at he
    rcases Nat.lt_trichotomy place c.engines.length with inside | rfl | outside
    · rw [List.getElem?_append_left inside] at he
      exact .inl ⟨e, he, started⟩
    · rw [List.getElem?_concat_length] at he
      cases he
      exact .inr (.inr ⟨o, rfl, rfl, started⟩)
    · rw [List.getElem?_eq_none (by simp; omega)] at he
      cases he
  | dies p => exact .inl (startedAt_modify (f := Engine.dead) (fun _ => rfl) rfl h)
  | _ => exact .inl h

end Cluster

end Resumption
