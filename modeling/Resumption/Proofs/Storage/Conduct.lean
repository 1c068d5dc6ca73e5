import Resumption.Proofs.Store.Frame
import Resumption.Storage.Call

/-!
# The conduct of a storage

What the steps of a storage with the synchronous writer do to instances that run or are finished.
Its loops, and the calls that neither claim, nor settle a run, nor recover (`Call.Gentle`), are the
business of none of them, in each of their phases (`begin_gentle`, `advance_gentle`).

The other calls are told exactly. A claim hands out what the store hands out, or nothing
(`state_claim`). The writing of a command is either over with the command committed, or the store is
as it was (`write_alone`); in the latter case a finish goes on as a failure of the instance, and
everything else is over. A recovery spares all that its engine does not run (`advance_recovering`).
-/

namespace Resumption

namespace Storage

/-! ## Storages that work alike -/

/-- On the same behalf and through the same writer. -/
structure Alike (s s' : Storage) : Prop where
  access : s'.access = s.access
  batcher : s'.batcher = s.batcher

theorem Alike.refl (s : Storage) : s.Alike s := ⟨rfl, rfl⟩

theorem Alike.trans {s₁ s₂ s₃ : Storage} (h : s₁.Alike s₂) (h' : s₂.Alike s₃) : s₁.Alike s₃ :=
  ⟨h'.access.trans h.access, h'.batcher.trans h.batcher⟩

theorem alike_wake (s : Storage) : s.Alike s.wake := ⟨rfl, rfl⟩

/-! ## What is told -/

theorem report_told (s : Storage) (d : Database) (es : List Event) : d.Told (s.report d es) := by
  unfold report
  split
  · exact d.told_tellAll es
  · exact .refl d

theorem pass_told (s : Storage) (d : Database) (m : Milestone) (w : Workflow) :
    d.Told (s.pass d m w) := by
  unfold pass
  split
  · exact s.report_told d _
  · exact .refl d

theorem failWritten_told (s : Storage) (d : Database) (w : Workflow) (r : Except StoreError Unit) :
    d.Told (s.failWritten d w r) := by
  cases r with
  | ok u => exact s.pass_told d _ w
  | error e => exact d.told_tell _

/-! ## Loops -/

theorem stepUpdater_mild (time : Nat) (s : Storage) (d : Database) :
    s.Alike (s.stepUpdater time d).1 ∧ d.Mild (s.stepUpdater time d).2 := by
  have h := (Work.gentle_promote s.ceiling).transact.mild d
  unfold stepUpdater
  split
  · split <;> rename_i he <;> rw [he] at h
    · exact ⟨⟨rfl, rfl⟩, h.trans (s.report_told _ _).mild⟩
    · exact ⟨⟨rfl, rfl⟩, h.trans (Database.told_tell _ _).mild⟩
    · exact ⟨⟨rfl, rfl⟩, h⟩
  · exact ⟨⟨rfl, rfl⟩, .refl d⟩
  · split <;> exact ⟨⟨rfl, rfl⟩, .refl d⟩
  · exact ⟨.refl s, .refl d⟩

theorem sweepOnce_mild (s : Storage) (d : Database) : d.Mild (s.sweepOnce d).2 := by
  have h := (Work.gentle_sweep s.sweepBatch).transact.mild d
  unfold sweepOnce
  split <;> rename_i he <;> rw [he] at h
  · exact h.trans (s.report_told _ _).mild
  · exact h.trans (Database.told_tell _ _).mild
  · exact h

theorem stepReaper_mild (time : Nat) (s : Storage) (d : Database) :
    s.Alike (s.stepReaper time d).1 ∧ d.Mild (s.stepReaper time d).2 := by
  have h := s.sweepOnce_mild d
  unfold stepReaper
  split
  · split <;> exact ⟨⟨rfl, rfl⟩, .refl d⟩
  · split <;> rename_i he <;> rw [he] at h <;> exact ⟨⟨rfl, rfl⟩, h⟩
  · exact ⟨.refl s, .refl d⟩

/-! ## Gentle calls -/

/-- The call neither starts, nor claims, nor settles a run. -/
def Call.Gentle : Call → Prop
  | .stop | .insert _ | .load _ | .restart _ | .restartAll | .notify _ | .notifyAll _ => True
  | _ => False

/-- A gentle call goes through this phase. -/
def Phase.Gentle : Phase → Prop
  | .stating (.claim _ _) => False
  | .stating _ => True
  | .writing .plain (.alone (.notify _)) => True
  | .draining _ => True
  | .joining => True
  | _ => False

/-- A step of a call that is the business of no instance that runs or is finished. -/
structure Eases (s : Storage) (d : Database) (step : Progress × Storage × Database) : Prop where
  mild : d.Mild step.2.2
  alike : s.Alike step.2.1
  gentle : ∀ p, step.1 = .going p → p.Gentle

theorem enter_sync {s : Storage} (hs : s.batcher = none) (c : Command) :
    s.enter c = (some (.alone c), s) := by
  rw [enter, hs]

theorem beginWrite_sync {s : Storage} (hs : s.batcher = none) (d : Database) (p : Purpose)
    (c : Command) : s.beginWrite d p c = (.going (.writing p (.alone c)), s, d) := by
  rw [beginWrite, enter_sync hs]

theorem begin_gentle {s : Storage} (hs : s.batcher = none) (d : Database) {c : Call}
    (hc : c.Gentle) : s.Eases d (s.begin d c) := by
  have ends : ∀ r, s.Eases d (.over r, s, d) := fun r => ⟨.refl d, .refl s, fun _ h => nomatch h⟩
  have going : ∀ p : Phase, p.Gentle → s.Eases d (.going p, s, d) := fun p hp =>
    ⟨.refl d, .refl s, fun q h => by cases h; exact hp⟩
  cases c with
  | stop =>
    rw [Storage.begin]
    split
    · exact ends _
    · exact ⟨.refl d, ⟨rfl, by simp [hs]⟩, fun q h => by cases h; trivial⟩
  | insert ws =>
    cases ws with
    | nil => exact ends _
    | cons w ws => exact going _ trivial
  | load id => exact going _ trivial
  | restart id => exact going _ trivial
  | restartAll => exact going _ trivial
  | notify r =>
    rw [Storage.begin, beginWrite_sync hs]
    exact going _ trivial
  | notifyAll rs => exact going _ trivial
  | _ => exact hc.elim

theorem state_gentle (s : Storage) (d : Database) {q : Statement} (hq : (Phase.stating q).Gentle) :
    d.Mild (s.state d q).2.2 ∧ s.Alike (s.state d q).2.1 := by
  cases q with
  | insert ws =>
    have h := (Work.gentle_insert ws).transact.mild d
    rw [state]
    split <;> rename_i he <;> rw [he] at h
    · exact ⟨h.trans (s.report_told _ _).mild, s.alike_wake⟩
    · exact ⟨h, .refl s⟩
  | claim pool most => exact hq.elim
  | load id =>
    have h := (Work.gentle_load id).transact.mild d
    rw [state]
    split <;> rename_i he <;> rw [he] at h <;> exact ⟨h, .refl s⟩
  | restart id =>
    have h := (Work.gentle_restart id).transact.mild d
    rw [state]
    split <;> rename_i he <;> rw [he] at h
    · exact ⟨h, s.alike_wake⟩
    · exact ⟨h, .refl s⟩
  | restartAll =>
    have h := Work.gentle_restartAll.transact.mild d
    rw [state]
    split <;> rename_i he <;> rw [he] at h <;> exact ⟨h, .refl s⟩
  | notify rs => exact ⟨(Work.gentle_notify rs).transact.mild d, .refl s⟩

theorem write_notify (s : Storage) (d : Database) (r : Response) :
    s.Eases d (s.write d .plain (.alone (.notify r))) := by
  have h := (Work.gentle_executeAll s.access r).transact.mild d
  rw [write]
  split <;> rename_i he <;> rw [he] at h <;> exact ⟨h, .refl s, fun _ h => nomatch h⟩

theorem advance_gentle {s : Storage} (hs : s.batcher = none) (time : Nat) (d : Database) {p : Phase}
    (hp : p.Gentle) : s.Eases d (s.advance time d p) := by
  cases p with
  | stating q =>
    obtain ⟨hm, ha⟩ := s.state_gentle d hp
    exact ⟨hm, ha, fun _ h => nomatch h⟩
  | writing purpose passage =>
    unfold Phase.Gentle at hp
    split at hp
    · rename_i h; cases h
    · rename_i h; cases h
    · rename_i r h
      cases h
      exact s.write_notify d r
    · rename_i h; cases h
    · rename_i h; cases h
    · exact hp.elim
  | draining stopping =>
    rw [advance, hs]
    refine ⟨.refl d, .refl s, fun q h => ?_⟩
    cases stopping <;> cases h
    trivial
  | joining => exact ⟨(d.told_tellAll _).mild, .refl s, fun _ h => nomatch h⟩
  | _ => exact hp.elim

theorem insertHeld_gentle (s : Storage) (d : Database) (ws : List Workflow) :
    s.Alike (s.insertHeld d ws).2.1 ∧ d.Mild (s.insertHeld d ws).2.2 := by
  have h := (Work.gentle_insert ws).mild d
  unfold insertHeld
  split
  · exact ⟨.refl s, .refl d⟩
  · split <;> rename_i he <;> rw [he] at h
    · exact ⟨s.alike_wake, h.trans (s.report_told _ _).mild⟩
    · exact ⟨.refl s, h⟩

theorem notifyHeld_gentle (s : Storage) (d : Database) (rs : List Response) :
    d.Mild (s.notifyHeld d rs).2 := (Work.gentle_notify _).mild d

/-! ## Claims -/

/-- A claim hands out what the store hands out and marks it, or it fails and changes nothing. -/
theorem state_claim (s : Storage) {d : Database} (hd : d.Timely) (pool : String) (most : Nat) :
    s.Alike (s.state d (.claim pool most)).2.1 ∧ d.Aside (s.state d (.claim pool most)).2.2 ∧
      ((∃ ws, (s.state d (.claim pool most)).1 = .claimed ws ∧
          d.store.claim s.access.engine pool most =
            (ws, (s.state d (.claim pool most)).2.2.store)) ∨
        (∀ ws, (s.state d (.claim pool most)).1 ≠ .claimed ws) ∧
          (s.state d (.claim pool most)).2.2.store = d.store) := by
  have hw : (Work.claim s.access pool most).Discreet := Work.discreet_callTotal _ _
  have ha := Work.discreet_transact hw d
  rw [state]
  split <;> rename_i he <;> rw [he] at ha
  · rename_i ws d₁
    have hl : ∀ (l : List Workflow) (d : Database),
        d.Told (l.foldl (fun d w => s.pass d .dequeued w) d) := by
      intro l
      induction l with
      | nil => exact fun d => .refl d
      | cons w l ih => exact fun d => (s.pass_told d _ w).trans (ih _)
    have ht := (s.report_told d₁ [.measured "dequeue" ws.length]).trans (hl ws _)
    obtain ⟨d₂, d₃, -, hs₂, hc, hs₃⟩ := Work.transact_ok he
    refine ⟨.refl s, ha.trans ht.mild.aside, .inl ⟨ws, rfl, ?_⟩⟩
    rw [ht.store, hs₃, ← hs₂]
    exact Work.callTotal_ok hc
  · rename_i e d₁
    refine ⟨.refl s, ha, .inr ⟨fun ws h => ?_, Work.transact_error hw hd he⟩⟩
    cases e <;> cases h

/-! ## Outcomes -/

/-- A command on the instance, written for the instance. -/
def Phase.Settles (id : Uuid) : Phase → Prop
  | .writing p (.alone c) =>
    c.instanceId? = some id ∧
      match p with
      | .plain => True
      | .suspend w | .fail w | .finish w => w.id = some id
  | _ => False

/-- A call that settles the run of the instance. -/
def Call.Settles (id : Uuid) : Call → Prop
  | .fail w _ | .finish w => w.id = some id
  | .suspend w => w.id = some id ∧ ∃ c, w.callback = some c ∧ c.instanceId = id
  | _ => False

def committed (s : Storage) (d : Database) : Phase → Option Command
  | .writing _ (.alone c) =>
    match ((Work.transact (Work.executeAll s.access [c])).on d).1 with
    | .ok () => some c
    | .error _ => none
  | _ => none

theorem beginFail_sync {s : Storage} (hs : s.batcher = none) (d : Database) {w : Workflow}
    {id : Uuid} (hw : w.id = some id) (cause : String) :
    s.beginFail d w cause = (.going (.writing (.fail w) (.alone (.fail id cause))), s, d) := by
  rw [beginFail, hw]
  simp only [enter_sync hs]

theorem begin_settling {s : Storage} (hs : s.batcher = none) (d : Database) {c : Call} {id : Uuid}
    (hc : c.Settles id) : ∃ p, s.begin d c = (.going p, s, d) ∧ p.Settles id := by
  cases c with
  | fail w cause => exact ⟨_, beginFail_sync hs d hc cause, rfl, hc⟩
  | finish w =>
    have hw : w.id = some id := hc
    refine ⟨.writing (.finish w) (.alone (.finish id)), ?_, rfl, hw⟩
    rw [Storage.begin, hw]
    exact beginWrite_sync hs d _ _
  | suspend w =>
    obtain ⟨hw, c, hcb, hid⟩ := hc
    refine ⟨.writing (.suspend w) (.alone (.suspend c w.payload)), ?_, congrArg some hid, hw⟩
    rw [Storage.begin, hcb]
    exact beginWrite_sync hs d _ _
  | _ => exact hc.elim

/-- Once a command is committed, the call is over and went well. -/
theorem acknowledge_ok (s : Storage) (d : Database) (p : Purpose) :
    ∃ reply, (s.acknowledge d p (.ok ())).1 = .over reply ∧ (∀ e, reply ≠ .refused e) ∧
      (s.acknowledge d p (.ok ())).2.1 = s ∧ d.Told (s.acknowledge d p (.ok ())).2.2 := by
  cases p with
  | plain => exact ⟨_, rfl, fun _ h => (nomatch h), rfl, .refl d⟩
  | suspend w => exact ⟨_, rfl, fun _ h => (nomatch h), rfl, s.pass_told d _ _⟩
  | fail w => exact ⟨_, rfl, fun _ h => (nomatch h), rfl, s.failWritten_told d w (.ok ())⟩
  | finish w => exact ⟨_, rfl, fun _ h => (nomatch h), rfl, s.pass_told d _ _⟩

/-- A command that was refused leaves the call to settle the same instance, or ends it. -/
theorem acknowledge_error {s : Storage} (hs : s.batcher = none) (d : Database) {p : Purpose}
    {c : Command} {id : Uuid} (hp : (Phase.writing p (.alone c)).Settles id) (e : StoreError) :
    (∀ q, (s.acknowledge d p (.error e)).1 = .going q → q.Settles id) ∧
      (s.acknowledge d p (.error e)).2.1 = s ∧ d.Told (s.acknowledge d p (.error e)).2.2 := by
  cases p with
  | plain => exact ⟨fun _ h => (nomatch h), rfl, .refl d⟩
  | suspend w => exact ⟨fun _ h => (nomatch h), rfl, .refl d⟩
  | fail w => exact ⟨fun _ h => (nomatch h), rfl, s.failWritten_told d w (.error e)⟩
  | finish w =>
    rw [acknowledge, beginFail_sync hs _ hp.2]
    exact ⟨fun q h => by cases h; exact ⟨rfl, hp.2⟩, rfl, d.told_tell _⟩

/-- **Writing an outcome.** Either the command is committed, which does to the store what it says and
touches only the instance, and the call is over; or the store is as it was, and if the call goes on
it is to settle the same instance. -/
theorem advance_settling {s : Storage} (hs : s.batcher = none) (time : Nat) {d : Database}
    (hd : d.Timely) {p : Phase} {id : Uuid} (hp : p.Settles id) :
    s.Alike (s.advance time d p).2.1 ∧
      ((∃ c reply, s.committed d p = some c ∧ c.instanceId? = some id ∧
          (s.advance time d p).1 = .over reply ∧ (∀ e, reply ≠ .refused e) ∧
          d.Aside (s.advance time d p).2.2 ∧
          d.store.Spares (fun r => r.id ≠ id) (s.advance time d p).2.2.store ∧
          d.store.execute s.access.removeFinished c = (.ok (), (s.advance time d p).2.2.store)) ∨
        s.committed d p = none ∧ d.Mild (s.advance time d p).2.2 ∧
          ∀ q, (s.advance time d p).1 = .going q → q.Settles id) := by
  match p, hp with
  | .writing p (.alone c), hp =>
    have hw : (Work.executeAll s.access [c]).Discreet := Work.discreet_executeAll _ _
    have ha := Work.discreet_transact hw d
    have hk := (Work.keeps_transact (Work.keeps_execute_others (a := s.access) hp.1 d.store) d
      (.refl _ _)).1
    rw [advance, write, committed]
    rcases he : (Work.transact (Work.executeAll s.access [c])).on d with ⟨(_ | _) | _, d₁⟩ <;>
      rw [he] at ha hk
    · rename_i e
      obtain ⟨hg, hs', ht⟩ := acknowledge_error hs d₁ hp e
      exact ⟨⟨by rw [hs'], by rw [hs']⟩,
        .inr ⟨rfl, (Database.mild_of_error hw hd he).trans ht.mild, hg⟩⟩
    · exact ⟨.refl s, .inr ⟨rfl, Database.mild_of_error hw hd he, fun _ h => nomatch h⟩⟩
    · obtain ⟨reply, ho, hr, hs', ht⟩ := s.acknowledge_ok d₁ p
      refine ⟨⟨by rw [hs'], by rw [hs']⟩, .inl ⟨c, reply, rfl, hp.1, ho, hr,
        ha.trans ht.mild.aside, ?_⟩⟩
      rw [ht.store]
      exact ⟨hk, Work.transactOne_ok he⟩

/-! ## Starts -/

theorem begin_start {s s' : Storage} {d d' : Database} {r : Progress}
    (h : s.begin d .start = (r, s', d')) :
    s.Alike s' ∧ d.Told d' ∧ ∀ p, r = .going p → p = .sweeping := by
  rw [Storage.begin] at h
  split at h <;> cases h
  · exact ⟨.refl s, d.told_tell _, fun p h => nomatch h⟩
  · exact ⟨⟨rfl, rfl⟩, .refl d, fun p h => by cases h; rfl⟩

theorem advance_sweeping (s : Storage) (time : Nat) (d : Database) :
    s.Alike (s.advance time d .sweeping).2.1 ∧ d.Mild (s.advance time d .sweeping).2.2 ∧
      ∀ p, (s.advance time d .sweeping).1 = .going p → p = .sweeping ∨ p = .recovering := by
  have h := s.sweepOnce_mild d
  rw [advance]
  split <;> rename_i he <;> rw [he] at h
  · exact ⟨.refl s, h, fun p hp => by cases hp; exact .inl rfl⟩
  · exact ⟨.refl s, h, fun p hp => by cases hp; exact .inr rfl⟩
  · exact ⟨.refl s, h, fun p hp => nomatch hp⟩

/-- A recovery is the business only of what the engine runs. -/
theorem advance_recovering (s : Storage) (time : Nat) (d : Database) :
    s.Alike (s.advance time d .recovering).2.1 ∧ d.Aside (s.advance time d .recovering).2.2 ∧
      d.store.Spares (fun r => r.status ≠ .running s.access.engine)
        (s.advance time d .recovering).2.2.store ∧
      ∀ p, (s.advance time d .recovering).1 ≠ .going p := by
  have hw : (Work.recover s.access).Discreet := Work.discreet_callTotal _ _
  have ha := Work.discreet_transact hw d
  have hk := (Work.keeps_transact (Work.keeps_recover_others s.access d.store) d (.refl _ _)).1
  rw [advance]
  split <;> rename_i he <;> rw [he] at ha hk
  · exact ⟨⟨rfl, rfl⟩, ha, hk, fun p h => nomatch h⟩
  · exact ⟨.refl s, ha, hk, fun p h => nomatch h⟩

end Storage

end Resumption
