import Resumption.Proofs.Engine.Control
import Resumption.Proofs.Storage.Ruling

/-!
# What the steps of an engine rule on runs

An ask, a dispatch, a start or a stop is at most with the storage in one of its phases (`call?`), and
a poll loop that has taken slots is with the storage for a claim. **The ruling of a step is that of
the storage from this phase** (`Engine.ruling?`), and whatever else the step does is only told, or is
gentle. In particular there is none where a dispatch is cancelled, and none where a pool is stopped.

None of this asks anything of the engine: its writer may be of either kind, its runners may do what
they want, and other engines may claim under its name.
-/

namespace Resumption

/-! ## With the storage -/

/-- The phase of the storage that the ask is in, if it is with the storage. -/
def AskPhase.call? : AskPhase → Option Storage.Phase
  | .storing p _ => some p
  | _ => none

/-- The phase of the storage that the dispatch is in, if it is with the storage. -/
def DispatchPhase.call? : DispatchPhase → Option Storage.Phase
  | .asking p _ => p.call?
  | .settling p _ => some p
  | _ => none

namespace Engine

/-- The phase of the storage that the start is in, if it is with the storage. -/
def StartPhase.call? : StartPhase → Option Storage.Phase
  | .opening p => some p
  | .shutting _ p => some p
  | _ => none

/-- The phase of the storage that the stop is in, if it is with the storage. -/
def StopPhase.call? : StopPhase → Option Storage.Phase
  | .shutting _ p => some p
  | _ => none

/-- The phase of the storage that a dispatch is in that is not cancelled. -/
def dispatchCall? (e : Engine) (place serial : Nat) : Option Storage.Phase :=
  (e.pool? place).bind fun p => (p.dispatch? serial).bind fun y =>
    if p.aborting then none else y.phase.call?

/-- The claim that a poll loop is about to make. -/
def pollCall? (e : Engine) (place : Nat) : Option Storage.Phase :=
  (e.pool? place).bind fun p =>
    match p.poll with
    | .claiming n => some (.stating (.claim p.settings.id n))
    | _ => none

/-- The ruling of a step from a phase of the storage, or of one that is not with the storage. -/
def ruling? (e : Engine) (x : Site) (p : Option Storage.Phase) : Option Ruling :=
  p.bind (e.storage.ruling? x.time x.db)

variable {e : Engine} {x : Site}

theorem calling_ruled (hd : x.db.Timely) {p : Storage.Phase}
    (hr : e.storage.ready x.unlocked p = true) :
    x.db.Ruled (e.ruling? x (some p)) (e.storage.advance x.time x.db p).2.2 :=
  Storage.advance_ruled hd x.time hr

/-! ## Asks -/

theorem conclude_site (e : Engine) (x : Site) (errand : Errand) (r : Storage.Reply) :
    (e.conclude x errand r).2.2 = x := by
  unfold conclude
  split <;> rfl

theorem send_told (e : Engine) (x : Site) (c : Storage.Call) (errand : Errand) :
    x.db.Told (e.send x c errand).2.2.db := by
  have h := e.storage.begin_told x.db c
  unfold send
  split <;> rename_i he <;> rw [he] at h
  · exact h
  · rw [conclude_site]
    exact h

theorem sendWork_told (e : Engine) (x : Site) (single : Bool) (batch : List Submission) :
    x.db.Told (e.sendWork x single batch).2.2.db := by
  have ht := e.prepare_told batch x
  unfold sendWork
  split <;> rename_i he <;> rw [he] at ht
  · exact ht
  · split
    · exact ht
    · exact ht.trans (send_told _ _ _ _)

theorem accept_mild (e : Engine) (x : Site) (a : Ask) : x.db.Mild (e.accept x a).2.2.db := by
  cases a with
  | submit batch => exact (e.sendWork_told x false batch).mild
  | submitOne one => exact (e.sendWork_told x true [one]).mild
  | submitHeld batch => exact (storeHeld_asked batch).mild
  | register w quorum timeout correlations =>
    exact (e.register_told x.db w quorum timeout correlations).1.mild
  | notify r => exact (e.send_told x _ _).mild
  | notifyAll rs => exact (e.send_told x _ _).mild
  | restart id => exact (e.send_told x _ _).mild
  | restartAll => exact (e.send_told x _ _).mild

theorem advanceAsk_ruled (hd : x.db.Timely) {p : AskPhase}
    (hr : e.askReady x.unlocked p = true) :
    x.db.Ruled (e.ruling? x p.call?) (e.advanceAsk x p).2.2.db := by
  cases p with
  | arriving a =>
    refine Database.Mild.ruled ?_
    rw [advanceAsk]
    split
    · split
      · exact e.accept_mild x a
      · exact .refl x.db
    · exact e.accept_mild x a
  | storing p errand =>
    have h := calling_ruled hd hr
    rw [advanceAsk]
    split <;> rename_i he <;> rw [he] at h
    · exact h
    · rw [conclude_site]
      exact h
  | waking a pools =>
    cases pools with
    | nil => exact (Database.Told.refl x.db).ruled
    | cons pool pools => exact (e.wakePool_calm x.db pool).2.ruled

/-! ## Dispatches -/

theorem settle_told (e : Engine) (x : Site) (c : Storage.Call) :
    x.db.Told (e.settle x c).2.2.db := by
  have h := e.storage.begin_told x.db c
  unfold settle
  split <;> rename_i he <;> rw [he] at h <;> exact h

theorem tellSettle_told (e : Engine) (x : Site) (event : Event) (c : Storage.Call) :
    x.db.Told (e.settle (x.tell event) c).2.2.db :=
  (x.db.told_tell event).trans (e.settle_told (x.tell event) c)

theorem settled_told (e : Engine) (x : Site) (s : Settlement) (r : Storage.Reply) :
    x.db.Told (e.settled x s r).2.2.db := by
  unfold settled
  split
  · exact tellSettle_told _ x _ _
  · exact .refl x.db

theorem settleSuspension_told (e : Engine) (x : Site) (w : Workflow) :
    x.db.Told (e.settleSuspension x w).2.2.db := by
  have h := e.storage.begin_told x.db (.suspend w)
  unfold settleSuspension
  split <;> rename_i he <;> rw [he] at h
  · exact h
  · exact h.trans (settled_told _ _ _ _)

theorem beginRun_told (e : Engine) (x : Site) (found : Bool) (w : Workflow) :
    x.db.Told (e.beginRun x found w).2.2.db := by
  unfold beginRun
  split
  · exact e.tellSettle_told x _ _
  · split
    · exact e.tellSettle_told x _ _
    · exact .refl x.db

theorem continueRun_told (e : Engine) (x : Site) (claimed : Workflow) (r : Run) :
    x.db.Told (e.continueRun x claimed r).2.2.db := by
  cases r with
  | finished w => exact e.settle_told x _
  | suspended w =>
    rw [continueRun]
    split
    · exact e.settleSuspension_told x w
    · exact e.tellSettle_told x _ _
  | failed w causes => exact e.tellSettle_told x _ _
  | panicked w message => exact e.tellSettle_told x _ _
  | pause d next => exact .refl x.db
  | ask a next => exact .refl x.db
  | visit next => exact .refl x.db

theorem advanceDispatch_ruled (hd : x.db.Timely) (found : Bool) (claimed : Workflow)
    {p : DispatchPhase} (hr : e.dispatchReady x x.unlocked p = true) :
    x.db.Ruled (e.ruling? x p.call?) (e.advanceDispatch x found claimed p).2.2.db := by
  cases p with
  | fresh => exact (e.beginRun_told x found claimed).ruled
  | running r => exact (e.continueRun_told x claimed r).ruled
  | pausing due next => exact (Database.Told.refl x.db).ruled
  | asking p next =>
    have h := advanceAsk_ruled hd hr
    rw [advanceDispatch]
    split <;> rename_i he <;> rw [he] at h <;> exact h
  | settling p s =>
    have h := calling_ruled hd hr
    rw [advanceDispatch]
    split <;> rename_i he <;> rw [he] at h
    · exact h
    · exact h.told (settled_told _ _ _ _)

/-- **A step of a dispatch** rules what the storage rules from its phase, and one that is cancelled
rules nothing. -/
theorem stepDispatch_ruled (hd : x.db.Timely) (alive : Bool) {place serial : Nat}
    (hr : ∀ p y, e.pool? place = some p → p.dispatch? serial = some y →
      p.aborting = true ∨ e.dispatchReady x x.unlocked y.phase = true) :
    x.db.Ruled (e.ruling? x (e.dispatchCall? place serial))
      (e.stepDispatch x alive place serial).2.db := by
  have still : x.db.Ruled none x.db := (Database.Told.refl x.db).ruled
  unfold stepDispatch dispatchCall?
  cases hp : e.pool? place with
  | none => exact still
  | some p =>
    simp only [Option.bind_some]
    cases hy : p.dispatch? serial with
    | none => exact still
    | some y =>
      simp only [Option.map_some, Option.bind_some]
      split
      · exact (x.db.told_tell _).ruled
      · rename_i hab
        have h := advanceDispatch_ruled hd (alive && p.attached) y.workflow
          ((hr p y hp hy).resolve_left hab)
        split <;> rename_i he <;> rw [he] at h <;> exact h

/-! ## Poll loops -/

/-- **A step of a poll loop** rules what the storage answers to its claim. -/
theorem stepPoll_ruled (hd : x.db.Timely) {place : Nat}
    (hr : ∀ p, e.pool? place = some p → p.pollReady x.time x.unlocked = true) :
    x.db.Ruled (e.ruling? x (e.pollCall? place)) (e.stepPoll x place).2.db := by
  have still : x.db.Ruled none x.db := (Database.Told.refl x.db).ruled
  unfold stepPoll pollCall?
  cases hp : e.pool? place with
  | none => exact still
  | some p =>
    have hready := hr p hp
    simp only [Option.bind_some]
    unfold Pool.pollReady at hready
    split at hready <;> rename_i hpoll
    · simp only [Pool.stepPoll, hpoll]
      exact still
    · rename_i n
      have h := calling_ruled (e := e) (p := .stating (.claim p.settings.id n)) hd hready
      rw [Storage.advance] at h
      simp only [Pool.stepPoll, hpoll]
      split <;> rename_i he <;> rw [he] at h
      · exact h
      · exact h
      · exact h.told (Database.told_tell _ _)
    · simp only [Pool.stepPoll, hpoll]
      split <;> exact still
    · cases hready

/-! ## Starts and stops -/

theorem startComponents_told (e : Engine) (x : Site) :
    x.db.Told (e.startComponents x).2.2.db :=
  (startComponents_begun e x).elim (·.told) (·.2.1)

theorem shutAfterFailure_told (e : Engine) (x : Site) (reason : EngineError) :
    x.db.Told (e.shutAfterFailure x reason).2.2.db := by
  have h := e.storage.begin_told x.db .stop
  unfold shutAfterFailure
  split <;> rename_i he <;> rw [he] at h <;> exact h

/-- **A step of a start.** -/
theorem advanceStart_ruled (hd : x.db.Timely) {p : StartPhase}
    (hr : e.startReady x x.unlocked p = true) :
    x.db.Ruled (e.ruling? x p.call?) (e.advanceStart x p).2.2.db := by
  cases p with
  | entering =>
    refine Database.Told.ruled ?_
    rw [advanceStart]
    split
    · exact startComponents_told _ x
    · exact .refl x.db
  | opening p =>
    have h := calling_ruled hd hr
    rw [advanceStart]
    split <;> rename_i he <;> rw [he] at h
    · exact h
    · exact h.told (startProcessors_begun _ _ _).told
  | closing reason halts =>
    have ht := (advanceHalts_calm halts e x 0).2
    refine Database.Told.ruled ?_
    rcases hh : e.advanceHalts x 0 halts with ⟨halts', e₁, x₁⟩
    rw [hh] at ht
    simp only [advanceStart, hh]
    split
    · exact ht
    · rename_i failures _
      have ht' := ht.trans (tellFailures_told x₁ failures)
      refine Database.Told.trans ?_ (shutAfterFailure_told _ _ _)
      split
      · exact ht'
      · exact ht'.trans (Database.told_tell _ _)
  | shutting reason p =>
    have h := calling_ruled hd hr
    rw [advanceStart]
    split <;> rename_i he <;> rw [he] at h <;> exact h

/-- **A step of a stop.** -/
theorem advanceStop_ruled (hd : x.db.Timely) {p : StopPhase}
    (hr : e.stopReady x x.unlocked p = true) :
    x.db.Ruled (e.ruling? x p.call?) (e.advanceStop x p).2.2.db := by
  cases p with
  | entering =>
    refine Database.Told.ruled ?_
    rw [advanceStop]
    split <;> exact .refl x.db
  | closing halts =>
    have ht := (advanceHalts_calm halts e x 0).2
    refine Database.Told.ruled ?_
    rcases hh : e.advanceHalts x 0 halts with ⟨halts', e₁, x₁⟩
    rw [hh] at ht
    simp only [advanceStop, hh]
    split
    · exact ht
    · rename_i failures _
      have hb := e₁.storage.begin_told (tellFailures x₁ failures).db .stop
      refine (ht.trans (tellFailures_told x₁ failures)).trans ?_
      split <;> rename_i he <;> rw [he] at hb <;> exact hb
  | shutting outcome p =>
    have h := calling_ruled hd hr
    rw [advanceStop]
    split <;> rename_i he <;> rw [he] at h <;> exact h

end Engine

end Resumption
