import Resumption.Proofs.Database.Job
import Resumption.Proofs.Storage.Ruling

/-!
# The actions of a storage

Each step of a storage is some actions on the store in one transaction, or it is none: `Phase.actions`
lists those of a step from a phase of a call, and `Batcher.underway` the commands of a step of the
writer. **The step has done all of these actions, each with success, or the store is as it was**
(`Database.Does`), whichever calls fail: `advance_does`, `stepWorker_does`, `stepUpdater_does` and
`stepReaper_does`. The actions read the clock as it was when the step began.

Inside a transaction that a caller holds, what was done stays where a call fails. There, what each
action keeps is kept by the step (`insertHeld_both`, `notifyHeld_both`).
-/

namespace Resumption

namespace Database

/-- The database went on by a step that has done these actions in order, or has left the store as it
was. -/
structure Does (d : Database) (xs : List Action) (d' : Database) : Prop where
  clock : d'.clock = d.clock
  held : d'.held = d.held
  store : d'.store = d.store ∨ d.store.Performs xs d'.store

variable {d d' d'' : Database} {xs : List Action}

theorem Told.does (h : d.Told d') (xs : List Action) : d.Does xs d' := by
  obtain ⟨j, rfl⟩ := h
  exact ⟨rfl, rfl, .inl rfl⟩

theorem Does.told (h : d.Does xs d') (ht : d'.Told d'') : d.Does xs d'' := by
  obtain ⟨j, rfl⟩ := ht
  exact ⟨h.clock, h.held, h.store⟩

theorem Told.both {P : Store → Prop} (h : d.Told d') (hd : d.Both P) : d'.Both P := by
  obtain ⟨j, rfl⟩ := h
  exact hd

theorem Does.both {P : Store → Prop} (h : d.Does xs d')
    (step : ∀ x ∈ xs, ∀ t, P t → P (t.act x).2) (hd : d.Both P) : d'.Both P := by
  refine ⟨?_, fun b hb => hd.2 b (h.held ▸ hb)⟩
  rcases h.store with hs | hs
  · exact hs ▸ hd.1
  · exact hs.holds step hd.1

end Database

/-! ## Transactions -/

namespace Work

variable {α : Type} {w : Work α} {d : Database} {xs : List Action}

/-- A transaction has done the actions that its work does when it goes well, or it leaves the store
alone. -/
theorem transact_does (hw : Discreet w)
    (h : ∀ {d₀ a d₁}, w.on d₀ = (.ok a, d₁) → d₀.clock = d.clock → d₀.store.Performs xs d₁.store) :
    d.Does xs ((transact w).on d).2 := by
  have ha := discreet_transact hw d
  refine ⟨ha.clock, ha.held, ?_⟩
  rcases transact_cases w d with ⟨e, d₀, h₀, ht⟩ | ⟨d₀, h₀, ⟨e, d₁, -, ht⟩ | ⟨a, d₁, h₁, ht⟩⟩
  · rw [ht]
    exact .inl (openTransaction_store h₀)
  · rw [ht]
    exact .inl (abandon_store rfl)
  · have hd := discreet_openTransaction d
    rw [h₀] at hd
    have hp := h h₁ hd.clock
    rw [openTransaction_store h₀] at hp
    rw [ht]
    rcases commit_cases d.store d₁ with ⟨d₂, hc, hs⟩ | ⟨e, d₂, hc, hs | ⟨hs, -⟩⟩ <;> rw [hc]
    · exact .inr (hs ▸ hp)
    · exact .inl hs
    · exact .inr (hs ▸ hp)

/-- A transaction that goes well has done the actions of its work. -/
theorem transact_performs {a : α} {d' : Database}
    (h : ∀ {d₀ a d₁}, w.on d₀ = (.ok a, d₁) → d₀.clock = d.clock → d₀.store.Performs xs d₁.store)
    (ht : (transact w).on d = (.ok a, d')) : d.store.Performs xs d'.store := by
  obtain ⟨d₀, d₁, ha, hs, hw, hs'⟩ := transact_ok ht
  rw [← hs, hs']
  exact h hw ha.clock

/-- What a transaction answers whose work is one call that is never refused. -/
theorem transact_callTotal {m : Method} {o : Store → α × Store} {a : α} {d' : Database}
    (h : (transact (callTotal m o)).on d = (.ok a, d')) : o d.store = (a, d'.store) := by
  obtain ⟨d₀, d₁, -, hs, hw, hs'⟩ := transact_ok h
  rw [← hs, hs']
  exact callTotal_ok hw

/-- Work that reads the clock first reads the clock from before its transaction. -/
theorem transact_clock (f : Instant → Work α) (d : Database) :
    (transact (get >>= fun d => f d.clock)).on d = (transact (f d.clock)).on d := by
  have ha := (discreet_openTransaction d).clock
  simp only [transact, on_bind, on_tryCatch, on_get]
  rcases h : openTransaction.on d with ⟨_ | before, d₀⟩
  · rfl
  · replace ha : d₀.clock = d.clock := by rw [← ha, h]
    simp only [ha]

theorem insert_does (ws : List Workflow) :
    d.Does (ws.map .insert) ((transact (insert ws)).on d).2 := by
  refine transact_does (discreet_call _ _) fun {d₀ a d₁} h _ => ?_
  refine Store.performs_of_actAll (l := .done) (o := .done) ?_
  rw [Store.actAll_insert, Store.plainly, call_ok h]
  rfl

theorem notify_performs {rs : List Response} {d' : Database} {a : Unit}
    (h : (notify rs).on d = (.ok a, d')) :
    d.store.Performs (rs.map .deliver) d'.store := by
  refine Store.performs_of_actAll (l := .done) (o := .done) ?_
  rw [Store.actAll_deliver]
  exact congrArg (Prod.mk _) (congrArg Prod.snd (callTotal_ok (o := fun s => ((), s.notify rs)) h))

theorem notify_does (rs : List Response) :
    d.Does (rs.map .deliver) ((transact (notify rs)).on d).2 :=
  transact_does (discreet_callTotal _ _) fun h _ => notify_performs h

theorem executeAll_does (a : Access) (cs : List Command) :
    d.Does (cs.map (Command.action a.removeFinished)) ((transact (executeAll a cs)).on d).2 :=
  transact_does (discreet_executeAll a cs) fun h _ =>
    Store.performs_of_actAll (executeAll_serves a cs h)

theorem call_does {m : Method} {o : Store → Except StoreError Unit × Store} {x : Action}
    (hx : ∀ s, s.act x = Store.plainly (o s)) : d.Does [x] ((transact (call m o)).on d).2 := by
  refine transact_does (discreet_call _ _) fun {d₀ a d₁} h _ => ?_
  refine Store.performs_one (o := .done) ?_
  rw [hx, call_ok h]
  rfl

/-- A call whose operation is an action that is never refused. -/
theorem callTotal_does {m : Method} {o : Store → α × Store} {x : Action} {g : α → Outcome}
    (hx : ∀ s, s.act x = (.ok (g (o s).1), (o s).2)) :
    d.Does [x] ((transact (callTotal m o)).on d).2 := by
  refine transact_does (discreet_callTotal _ _) fun {d₀ a d₁} h _ => ?_
  refine Store.performs_one (o := g a) ?_
  rw [hx, callTotal_ok h]

theorem claim_does (a : Access) (pool : String) (most : Nat) :
    d.Does [.claim a.engine pool most] ((transact (claim a pool most)).on d).2 :=
  callTotal_does (o := fun s => s.claim a.engine pool most) (g := .claimed) fun _ => rfl

theorem load_does (id : Uuid) : d.Does [.load id] ((transact (load id)).on d).2 :=
  callTotal_does (o := fun s => (s.load id, s)) (g := .loaded) fun _ => rfl

theorem restart_does (id : Uuid) : d.Does [.restart id] ((transact (restart id)).on d).2 :=
  call_does fun _ => rfl

theorem restartAll_does : d.Does [.restartAll] ((transact restartAll).on d).2 :=
  callTotal_does (g := .counted) fun _ => rfl

theorem recover_does (a : Access) :
    d.Does [.recover a.engine] ((transact (recover a)).on d).2 :=
  callTotal_does (o := fun s => s.recover a.engine) (g := .counted) fun _ => rfl

theorem sweep_does (most : Nat) :
    d.Does [.sweep d.clock most] ((transact (sweep most)).on d).2 := by
  rw [sweep, transact_clock fun now => callTotal .sweep fun s => s.sweep now most]
  exact callTotal_does (g := .counted) fun _ => rfl

theorem sweep_ok {most n : Nat} {d' : Database}
    (h : (transact (sweep most)).on d = (.ok n, d')) :
    d.store.sweep d.clock most = (n, d'.store) := by
  rw [sweep, transact_clock fun now => callTotal .sweep fun s => s.sweep now most] at h
  exact transact_callTotal h

theorem promote_does (most : Nat) :
    d.Does [.promote d.clock most] ((transact (promote most)).on d).2 := by
  rw [promote, transact_clock fun now => callTotal .promote fun s => s.promote now most]
  exact callTotal_does (g := .counted) fun _ => rfl

theorem promote_ok {most n : Nat} {d' : Database}
    (h : (transact (promote most)).on d = (.ok n, d')) :
    d.store.promote d.clock most = (n, d'.store) := by
  rw [promote, transact_clock fun now => callTotal .promote fun s => s.promote now most] at h
  exact transact_callTotal h

theorem discreet_perform (a : Access) (q : Operation) : Discreet (perform a q) := by
  have done : ∀ {β : Type} {w : Work β} {f : β → Outcome}, Discreet w →
      Discreet (w >>= fun a => pure (f a)) := fun hw =>
    discreet_bind hw fun _ => discreet_pure _
  cases q with
  | insert ws => exact done (discreet_call _ _)
  | notify rs => exact done (discreet_callTotal _ _)
  | execute cs => exact done (discreet_executeAll a cs)
  | claim pool most => exact done (discreet_callTotal _ _)
  | suspend c payload => exact done (discreet_call _ _)
  | finish id => exact done (discreet_call _ _)
  | fail id cause => exact done (discreet_call _ _)
  | restart id => exact done (discreet_call _ _)
  | restartAll => exact done (discreet_callTotal _ _)
  | sweep most =>
    exact done (discreet_clock (f := fun now => callTotal .sweep fun s => s.sweep now most)
      fun now => discreet_callTotal _ _)
  | promote most =>
    exact done (discreet_clock (f := fun now => callTotal .promote fun s => s.promote now most)
      fun now => discreet_callTotal _ _)
  | recover => exact done (discreet_callTotal _ _)
  | load id => exact done (discreet_callTotal _ _)

theorem perform_does (a : Access) (q : Operation) :
    d.Does (Store.Request.actions ⟨a, d.clock, q⟩) ((transact (perform a q)).on d).2 :=
  transact_does (discreet_perform a q) fun h hc => by
    have hs := perform_ok h
    rw [hc] at hs
    exact Store.performs_of_actAll hs

end Work

/-! ## Calls -/

namespace Storage

def Statement.actions (s : Storage) : Statement → List Action
  | .insert ws => ws.map .insert
  | .claim pool most => [.claim s.access.engine pool most]
  | .load id => [.load id]
  | .restart id => [.restart id]
  | .restartAll => [.restartAll]
  | .notify rs => rs.map .deliver

/-- The actions of a step from a phase, when the clock shows `now`. -/
def Phase.actions (s : Storage) (now : Instant) : Phase → List Action
  | .stating q => q.actions s
  | .writing _ (.alone c) => [c.action s.access.removeFinished]
  | .writing _ (.inLine _) => []
  | .sweeping => [.sweep now s.sweepBatch]
  | .recovering => [.recover s.access.engine]
  | .draining _ => []
  | .joining => []

variable {P : Store → Prop} {s : Storage} {d : Database}

/-- **A statement** does its actions. -/
theorem state_does (q : Statement) : d.Does (q.actions s) (s.state d q).2.2 := by
  cases q with
  | insert ws =>
    have hk := Work.insert_does (d := d) ws
    rw [state]
    split <;> rename_i he <;> rw [he] at hk
    · exact hk.told (s.report_told _ _)
    · exact hk
  | claim pool most =>
    have hk := Work.claim_does (d := d) s.access pool most
    have ht : ∀ (ws : List Workflow) (d : Database),
        d.Told (ws.foldl (fun d w => s.pass d .dequeued w) d) := by
      intro ws
      induction ws with
      | nil => exact fun d => .refl d
      | cons w ws ih => exact fun d => (s.pass_told d _ w).trans (ih _)
    rw [state]
    split <;> rename_i he <;> rw [he] at hk
    · exact (hk.told (s.report_told _ _)).told (ht _ _)
    · exact hk
  | load id =>
    have hk := Work.load_does (d := d) id
    rw [state]
    split <;> rename_i he <;> rw [he] at hk <;> exact hk
  | restart id =>
    have hk := Work.restart_does (d := d) id
    rw [state]
    split <;> rename_i he <;> rw [he] at hk <;> exact hk
  | restartAll =>
    have hk := Work.restartAll_does (d := d)
    rw [state]
    split <;> rename_i he <;> rw [he] at hk <;> exact hk
  | notify rs => exact Work.notify_does rs

theorem sweepOnce_does : d.Does [.sweep d.clock s.sweepBatch] (s.sweepOnce d).2 := by
  have hk := Work.sweep_does (d := d) s.sweepBatch
  unfold sweepOnce
  split <;> rename_i he <;> rw [he] at hk
  · exact hk.told (s.report_told _ _)
  · exact hk.told (Database.told_tell _ _)
  · exact hk

/-- **A step of a call** does the actions of its phase. -/
theorem advance_does (time : Nat) (p : Phase) :
    d.Does (p.actions s d.clock) (s.advance time d p).2.2 := by
  cases p with
  | stating q => exact state_does q
  | writing purpose passage =>
    cases passage with
    | alone c =>
      have hk := Work.executeAll_does (d := d) s.access [c]
      rw [advance, write]
      split <;> rename_i he <;> rw [he] at hk
      · exact hk
      · exact hk.told (s.acknowledge_told _ _ _)
      · exact hk.told (s.acknowledge_told _ _ _)
    | inLine ticket =>
      rw [advance, write]
      split
      · exact (acknowledge_told _ d _ _).does _
      · exact (Database.Told.refl d).does _
  | sweeping =>
    have hk := sweepOnce_does (s := s) (d := d)
    rw [advance]
    split <;> rename_i he <;> rw [he] at hk <;> exact hk
  | recovering =>
    have hk := Work.recover_does (d := d) s.access
    rw [advance]
    split <;> rename_i he <;> rw [he] at hk <;> exact hk
  | draining stopping =>
    refine Database.Told.does ?_ _
    rw [advance]
    split
    · exact .refl d
    · dsimp only
      split
      · exact d.told_tell _
      · exact .refl d
  | joining => exact (d.told_tellAll _).does _

theorem advance_both (time : Nat) {p : Phase}
    (h : ∀ x ∈ p.actions s d.clock, ∀ t, P t → P (t.act x).2) (hd : d.Both P) :
    (s.advance time d p).2.2.Both P := (advance_does time p).both h hd

/-! ## Loops -/

theorem stepUpdater_does (time : Nat) :
    d.Does [.promote d.clock s.ceiling] (s.stepUpdater time d).2 := by
  have hk := Work.promote_does (d := d) s.ceiling
  have still := (Database.Told.refl d).does [.promote d.clock s.ceiling]
  unfold stepUpdater
  split
  · split <;> rename_i he <;> rw [he] at hk
    · exact hk.told (s.report_told _ _)
    · exact hk.told (Database.told_tell _ _)
    · exact hk
  · exact still
  · split <;> exact still
  · exact still

theorem stepReaper_does (time : Nat) :
    d.Does [.sweep d.clock s.sweepBatch] (s.stepReaper time d).2 := by
  have hk := sweepOnce_does (s := s) (d := d)
  have still := (Database.Told.refl d).does [.sweep d.clock s.sweepBatch]
  unfold stepReaper
  split
  · split <;> exact still
  · split <;> rename_i he <;> rw [he] at hk <;> exact hk
  · exact still

/-! ## Inside a transaction that a caller holds -/

theorem insertHeld_both (ws : List Workflow) (h : ∀ w ∈ ws, ∀ t, P t → P (t.act (.insert w)).2)
    (hd : d.Both P) : (s.insertHeld d ws).2.2.Both P := by
  have hi : (Work.insert ws).Keeps P fun _ => True := Work.keeps_insert fun t w hw => h w hw t
  obtain ⟨hs, hh, -⟩ := hi d hd.1
  have hk : ((Work.insert ws).on d).2.Both P := ⟨hs, fun b hb => hd.2 b (hh ▸ hb)⟩
  unfold insertHeld
  split
  · exact hd
  · split <;> rename_i he <;> rw [he] at hk
    · exact (s.report_told _ _).both hk
    · exact hk

theorem notifyHeld_both (rs : List Response)
    (h : ∀ r ∈ rs.map s.settle, ∀ t, P t → P (t.act (.deliver r)).2) (hd : d.Both P) :
    (s.notifyHeld d rs).2.Both P := by
  obtain ⟨hs, hh, -⟩ := Work.keeps_notify (fun t r hr => h r hr t) d hd.1
  exact ⟨hs, fun b hb => hd.2 b (hh ▸ hb)⟩

end Storage

/-! ## The writer -/

/-- The commands that the next step of the writer executes. -/
def Batcher.underway (b : Batcher) : List Command :=
  match b.phase with
  | .flushing batch => batch.map (·.command)
  | .retrying (x :: _) => [x.command]
  | _ => []

/-- **A step of the writer** does what its commands say. -/
theorem Batcher.step_does (b : Batcher) (a : Access) (time : Nat) (d : Database) :
    d.Does (b.underway.map (Command.action a.removeFinished)) (b.step a time d).2 := by
  have still := fun xs => (Database.Told.refl d).does xs
  generalize hu : b.underway = cs
  have hk := Work.executeAll_does (d := d) a cs
  unfold underway at hu
  unfold step
  split <;> rename_i hphase <;> rw [hphase] at hu <;> dsimp only at hu <;> subst hu
  · split <;> exact still _
  · split <;> exact still _
  · split <;> rename_i he <;> rw [he] at hk
    · exact hk
    · exact hk.told (Database.told_tell _ _)
    · exact hk
  · exact still _
  · split <;> rename_i he <;> rw [he] at hk <;> exact hk
  · exact still _
  · exact still _

namespace Storage

def writerActions (s : Storage) : List Action :=
  (s.batcher.map fun b => b.underway.map (Command.action s.access.removeFinished)).getD []

theorem stepWorker_does (s : Storage) (time : Nat) (d : Database) :
    d.Does s.writerActions (Cluster.stepWorker time s d).2 := by
  unfold Cluster.stepWorker writerActions
  cases s.batcher with
  | none => exact (Database.Told.refl d).does _
  | some b => exact b.step_does s.access time d

end Storage

end Resumption
