import Resumption.Proofs.Storage.Conduct
import Resumption.Proofs.Storage.Writing
import Resumption.Proofs.Store.Exclusion

/-!
# What a transaction rules on runs

The run of an instance begins when a claim hands the instance out, and it ends when a command on the
instance is executed or when the storage of its engine starts anew. A transaction that does one of
these has a `Ruling`; all others are gentle. `Store.Ruled` says what the store is after a transaction
with a ruling or without one, and `Ruled.running` and `Ruled.ids` what is left alone by all of them:
an instance runs on until a ruling on its run, and it is stored until it is finished and removed.

A caller who holds a transaction open does not rule on runs, and so the store that counts is the one
that the database would go back to (`Database.committed`). `Steady.ruled` is the step of a database.

The rulings of a storage are read off what its callers are told (`Storage.ruling?`) and off the
commands that its worker has in hand (`Storage.workerRuling?`). **In each phase of each call, and in
each step of the worker, what becomes of the store is what the ruling says** (`advance_ruled`,
`stepWorker_ruled`).
-/

namespace Resumption

/-- What a transaction does to runs. -/
inductive Ruling where
  /-- Instances are handed out to an engine. -/
  | claims (engine : String) (ws : List Workflow)
  /-- Commands are executed, all of them; `remove` says whether finished instances are removed. -/
  | orders (remove : Bool) (cs : List Command)
  /-- The storage of an engine has started, and what ran for the engine is ready. -/
  | recovery (engine : String)
  deriving DecidableEq

namespace Ruling

/-- A command on the instance is executed. -/
def Settles (id : Uuid) : Ruling → Prop
  | orders _ cs => ∃ c ∈ cs, c.instanceId? = some id
  | _ => False

def Removes (id : Uuid) : Ruling → Prop
  | orders remove cs => remove = true ∧ .finish id ∈ cs
  | _ => False

end Ruling

namespace Store

/-- What the store becomes by a transaction with this ruling, or with none. -/
def Ruled (s : Store) : Option Ruling → Store → Prop
  | none, s' => s.Agree s'
  | some (.claims engine ws), s' => ∃ pool most, s.claim engine pool most = (ws, s')
  | some (.orders remove cs), s' => s.executeAll remove cs = (.ok (), s')
  | some (.recovery engine), s' => ∃ n, s.recover engine = (n, s')

variable {s s' : Store} {x : Option Ruling}

theorem executeAll_holds {P : Store → Prop} {remove : Bool} {r : Except StoreError Unit}
    (cs : List Command) (step : ∀ s, ∀ c ∈ cs, P s → P (s.act (c.action remove)).2) {s s' : Store}
    (hs : P s) (h : s.executeAll remove cs = (r, s')) : P s' := by
  induction cs generalizing s with
  | nil => cases h; exact hs
  | cons c cs ih =>
    have hc : P (s.execute remove c).2 := by
      have := step s c List.mem_cons_self hs
      cases c <;> exact this
    rw [executeAll] at h
    split at h <;> rename_i he <;> rw [he] at hc
    · exact ih (fun s c hm => step s c (List.mem_cons_of_mem _ hm)) hc h
    · cases h
      exact hc

/-! ## Recoveries -/

/-- A recovery makes ready what runs for the engine, and leaves everything else as it is. -/
theorem recover_store (s : Store) (engine : String) :
    (s.recover engine).2 =
      { s with records := s.records.map fun r =>
          if r.status = .running engine then { r with status := .ready } else r } := by
  simp only [recover, updateWhere, beq_iff_eq]

theorem recover_running (s : Store) (engine : String) :
    ∀ r ∈ (s.recover engine).2.records, r.status ≠ .running engine := by
  rw [recover_store]
  intro r hr
  obtain ⟨t, -, rfl⟩ := List.mem_map.1 hr
  split
  · exact fun h => nomatch h
  · assumption

/-- Where nothing runs for an engine, there is nothing to recover. -/
theorem recover_idle {engine : String} (h : ∀ r ∈ s.records, r.status ≠ .running engine) :
    s.recover engine = (0, s) := by
  have hmap : s.records.map (fun r =>
      if r.status = .running engine then { r with status := .ready } else r) = s.records :=
    (List.map_congr_left fun r hr => if_neg (h r hr)).trans (List.map_id s.records)
  refine Prod.ext ?_ ?_
  · exact List.countP_eq_zero.2 fun r hr => by simpa using h r hr
  · rw [recover_store, hmap]

/-- The runs of an engine are taken back: exactly what ran for it is ready, nothing else about it or
about anything else has changed, and there is nothing left to take back. -/
structure TakenBack (engine : String) (s s' : Store) : Prop where
  ready : s' = { s with records := s.records.map fun r =>
    if r.status = .running engine then { r with status := .ready } else r }
  idle : ∀ r ∈ s'.records, r.status ≠ .running engine
  again : s'.recover engine = (0, s')

/-- A start that went well has taken back what ran for its engine. -/
theorem Ruled.takenBack {engine : String} (h : s.Ruled (some (.recovery engine)) s') :
    TakenBack engine s s' := by
  obtain ⟨n, h⟩ := h
  obtain rfl : (s.recover engine).2 = s' := by rw [h]
  exact ⟨s.recover_store engine, s.recover_running engine, recover_idle (s.recover_running engine)⟩

theorem Ruled.handedOut {engine : String} {ws : List Workflow}
    (h : s.Ruled (some (.claims engine ws)) s') {w : Workflow} (hw : w ∈ ws) :
    ∃ r ∈ s'.records, some r.id = w.id ∧ r.status = .running engine := by
  obtain ⟨pool, most, h⟩ := h
  obtain ⟨r, -, hid, -, r', hr', hid', hst⟩ := claim_runs h (List.mem_map_of_mem hw)
  exact ⟨r', hr', by rw [hid', hid], hst⟩

/-! ## What every ruling leaves alone -/

theorem Ruled.unique (h : s.Ruled x s') (hu : s.Unique) : s'.Unique := by
  match x, h with
  | none, h => exact Agree.unique h hu
  | some (.claims engine ws), ⟨pool, most, h⟩ => exact (claim_spares h).unique hu
  | some (.orders remove cs), h =>
    exact executeAll_holds cs (fun s c _ hs => act_unique s _ hs) hu h
  | some (.recovery engine), ⟨n, h⟩ =>
    have := act_unique s (.recover engine) hu
    rwa [act, h] at this

/-- **An instance runs on** until a command on it is executed or its engine is recovered. -/
theorem Ruled.running (h : s.Ruled x s') (hu : s.Unique) {r : Record} (hr : r ∈ s.records)
    {engine : String} (hst : r.status = .running engine) :
    r ∈ s'.records ∨ ∃ y, x = some y ∧ (y.Settles r.id ∨ y = .recovery engine) := by
  match x, h with
  | none, h => exact .inl ((Agree.lasting h hu r (Record.lasting_running hst)).1 hr)
  | some (.claims other ws), ⟨pool, most, h⟩ =>
    exact .inl ((claim_spares h).spared hu r hr (by rw [hst]; exact fun h => nomatch h))
  | some (.orders remove cs), h =>
    by_cases hset : ∃ c ∈ cs, c.instanceId? = some r.id
    · exact .inr ⟨_, rfl, .inl hset⟩
    · left
      -- no command is on this instance, and a notification does not reach who runs
      have step : ∀ (t : Store), ∀ c ∈ cs, t.Unique ∧ r ∈ t.records →
          (t.act (c.action remove)).2.Unique ∧ r ∈ (t.act (c.action remove)).2.records := by
        intro t c hc ⟨hut, hrt⟩
        have hne : c.instanceId? ≠ some r.id := fun he => hset ⟨c, hc, he⟩
        refine ⟨act_unique t _ hut, act_spares hut hrt ?_⟩
        cases c with
        | notify y =>
          exact Action.Gentle.spares (a := .deliver y) trivial (Record.lasting_running hst)
        | suspend c payload => exact fun he => hne (congrArg some he.symm)
        | finish id => exact fun he => hne (congrArg some he.symm)
        | fail id cause => exact fun he => hne (congrArg some he.symm)
      exact (executeAll_holds (P := fun t => t.Unique ∧ r ∈ t.records) cs step ⟨hu, hr⟩ h).2
  | some (.recovery other), ⟨n, h⟩ =>
    by_cases he : engine = other
    · exact .inr ⟨_, rfl, .inr (by rw [he])⟩
    · left
      have := act_spares (a := .recover other) hu hr (by
        rw [Action.Spares, hst]
        exact fun h => he (Status.running.inj h))
      rwa [act, h] at this

/-- **An instance is stored** until it is finished and removed. -/
theorem Ruled.ids (h : s.Ruled x s') {id : Uuid} (hi : id ∈ s.ids) :
    id ∈ s'.ids ∨ ∃ y, x = some y ∧ y.Removes id := by
  match x, h with
  | none, h => exact .inl (Agree.ids h id hi)
  | some (.claims engine ws), ⟨pool, most, h⟩ =>
    left
    have := act_ids s (.claim engine pool most) hi (fun h => by cases h)
    rwa [act, h] at this
  | some (.orders remove cs), h =>
    by_cases hrem : remove = true ∧ .finish id ∈ cs
    · exact .inr ⟨_, rfl, hrem⟩
    · left
      apply executeAll_holds (P := (id ∈ ·.ids)) cs _ hi h
      intro t c hc ht
      apply act_ids t _ ht
      -- only a finish removes, and none of these is one of this instance
      intro he
      cases c with
      | finish other =>
        simp only [Command.action, Action.finish.injEq] at he
        exact hrem ⟨he.1, he.2 ▸ hc⟩
      | suspend c payload => cases he
      | notify y => cases he
      | fail other cause => cases he
  | some (.recovery engine), ⟨n, h⟩ =>
    left
    have := act_ids s (.recover engine) hi (fun h => by cases h)
    rwa [act, h] at this

end Store

/-! ## What a database comes to -/

namespace Database

/-- The store that counts: the one to go back to while a caller holds a transaction open. -/
def committed (d : Database) : Store := d.held.getD d.store

/-- The database went on by a transaction of its own with this ruling, or gently. -/
structure Ruled (d : Database) (x : Option Ruling) (d' : Database) : Prop where
  aside : d.Aside d'
  store : d.store.Ruled x d'.store
  free : x ≠ none → d.held = none

/-- No commit fails after it took effect, ids are told apart, and nobody began or ended to run since
a transaction was opened that a caller holds. -/
structure Steady (d : Database) : Prop where
  timely : d.Timely
  unique : d.store.Unique
  back : ∀ b, d.held = some b → b.Unique ∧ b.Agree d.store

variable {d d' d'' : Database} {x : Option Ruling}

theorem Mild.ruled (h : d.Mild d') : d.Ruled none d' := ⟨h.aside, h.agree, fun hn => absurd rfl hn⟩

theorem Told.ruled (h : d.Told d') : d.Ruled none d' := h.mild.ruled

theorem Ruled.told (h : d.Ruled x d') (ht : d'.Told d'') : d.Ruled x d'' :=
  ⟨h.aside.trans ht.mild.aside, ht.store ▸ h.store, h.free⟩

theorem committed_free (h : d.held = none) : d.committed = d.store := by rw [committed, h]; rfl

theorem committed_held {b : Store} (h : d.held = some b) : d.committed = b := by
  rw [committed, h]; rfl

theorem Steady.committed_unique (h : d.Steady) : d.committed.Unique := by
  cases hb : d.held with
  | none => exact committed_free hb ▸ h.unique
  | some b => exact committed_held hb ▸ (h.back b hb).1

theorem Steady.committed_agree (h : d.Steady) : d.committed.Agree d.store := by
  cases hb : d.held with
  | none => exact committed_free hb ▸ .refl d.store
  | some b => exact committed_held hb ▸ (h.back b hb).2

/-- **A step of a database** is a step of what is committed. -/
theorem Steady.ruled (h : d.Steady) (hr : d.Ruled x d') :
    d'.Steady ∧ d.committed.Ruled x d'.committed := by
  have hheld := hr.aside.held
  -- while a caller holds a transaction, nothing is ruled
  have gently : ∀ b, d.held = some b → x = none := by
    intro b hb
    by_contra hx
    rw [hr.free hx] at hb
    cases hb
  refine ⟨⟨hr.aside.timely h.timely, hr.store.unique h.unique, ?_⟩, ?_⟩
  · intro b hb
    rw [hheld] at hb
    obtain rfl := gently b hb
    obtain ⟨hu, ha⟩ := h.back b hb
    exact ⟨hu, ha.trans hr.store⟩
  · cases hb : d.held with
    | none =>
      rw [committed_free hb, committed_free (hheld.trans hb)]
      exact hr.store
    | some b =>
      obtain rfl := gently b hb
      rw [committed_held hb, committed_held (hheld.trans hb)]
      exact .refl b

theorem Steady.hold (h : d.Steady) :
    (Work.hold.on d).2.Steady ∧ d.committed.Ruled none (Work.hold.on d).2.committed := by
  obtain ⟨d₁, ha, hs, ⟨e, h'⟩ | h'⟩ := d.hold_cases <;> rw [h']
  · exact h.ruled (mild_of_store ha hs).ruled
  · refine ⟨⟨ha.timely h.timely, hs ▸ h.unique, fun b hb => ?_⟩, h.committed_agree⟩
    cases hb
    exact ⟨h.unique, hs ▸ .refl d.store⟩

/-- The transaction that a caller held has ended, in any way. -/
theorem Steady.ended (h : d.Steady) {f : Store → Work Unit} (hd : ∀ s, (f s).Discreet)
    (hf : ∀ {P : Store → Prop} s, P s → Work.Keeps P (f s) fun _ => True) :
    ((Work.release >>= f).on d).2.Steady ∧
      d.committed.Ruled none ((Work.release >>= f).on d).2.committed := by
  obtain ⟨hn, htimely⟩ := d.ended_free hd
  obtain ⟨⟨hu, hstore⟩, -⟩ := end_both (P := fun s => s.Unique ∧ d.committed.Agree s) (d := d) (f := f)
    ⟨⟨h.unique, h.committed_agree⟩, fun b hb => ⟨(h.back b hb).1, committed_held hb ▸ .refl b⟩⟩
    fun s hs => hf s hs
  refine ⟨⟨htimely h.timely, hu, fun b hb => ?_⟩, ?_⟩
  · rw [hn] at hb
    cases hb
  · rw [committed_free hn]
    exact hstore

end Database

/-! ## Rulings of a storage -/

namespace Storage

/-- The ruling of commands that are executed in one transaction, if it is committed. -/
def orders? (s : Storage) (d : Database) (cs : List Command) : Option Ruling :=
  match ((Work.transact (Work.executeAll s.access cs)).on d).1 with
  | .ok () => some (.orders s.access.removeFinished cs)
  | .error _ => none

/-- The ruling of a claim that is answered like this. -/
def claimed? (s : Storage) : Reply → Option Ruling
  | .claimed ws => some (.claims s.access.engine ws)
  | _ => none

/-- The ruling of a start that is over or goes on like this. -/
def started? (s : Storage) : Progress → Option Ruling
  | .over .done => some (.recovery s.access.engine)
  | _ => none

/-- The ruling of a step from a phase: instances are handed out, a command is committed, or the start
of the storage is over and went well. -/
def ruling? (s : Storage) (time : Nat) (d : Database) : Phase → Option Ruling
  | .stating (.claim pool most) => s.claimed? (s.state d (.claim pool most)).1
  | .writing _ (.alone c) => s.orders? d [c]
  | .sweeping => s.started? (s.advance time d .sweeping).1
  | .recovering => s.started? (s.advance time d .recovering).1
  | _ => none

def workerRuling? (s : Storage) (d : Database) : Option Ruling :=
  s.batcher.bind fun b =>
    match b.phase with
    | .flushing batch => s.orders? d (batch.map (·.command))
    | .retrying (x :: _) => s.orders? d [x.command]
    | _ => none

/-! ## What is only told -/

theorem beginFail_told (s : Storage) (d : Database) (w : Workflow) (cause : String) :
    d.Told (s.beginFail d w cause).2.2 := by
  unfold beginFail
  split
  · exact d.told_tell _
  · split
    · exact .refl d
    · rename_i s' _
      exact s'.failWritten_told d w (.error .writerClosed)

theorem acknowledge_told (s : Storage) (d : Database) (p : Purpose) (r : Except StoreError Unit) :
    d.Told (s.acknowledge d p r).2.2 := by
  unfold acknowledge
  split
  · exact .refl d
  · exact .refl d
  · exact s.pass_told d _ _
  · exact .refl d
  · exact s.failWritten_told d _ _
  · exact s.pass_told d _ _
  · exact (d.told_tell _).trans (beginFail_told s _ _ _)

theorem beginWrite_told (s : Storage) (d : Database) (p : Purpose) (c : Command) :
    d.Told (s.beginWrite d p c).2.2 := by
  unfold beginWrite
  split
  · exact .refl d
  · exact acknowledge_told _ d p _

theorem begin_told (s : Storage) (d : Database) (c : Call) : d.Told (s.begin d c).2.2 := by
  cases c with
  | start =>
    rw [Storage.begin]
    split
    · exact d.told_tell _
    · exact .refl d
  | stop => rw [Storage.begin]; split <;> exact .refl d
  | insert ws => cases ws <;> exact .refl d
  | claim pool most => rw [Storage.begin]; split <;> exact .refl d
  | suspend w =>
    rw [Storage.begin]
    split
    · exact .refl d
    · exact s.beginWrite_told d _ _
  | fail w cause => exact s.beginFail_told d w cause
  | finish w =>
    rw [Storage.begin]
    split
    · exact d.told_tell _
    · exact s.beginWrite_told d _ _
  | notify r => exact s.beginWrite_told d _ _
  | submit c => exact s.beginWrite_told d _ _
  | load id => exact .refl d
  | restart id => exact .refl d
  | restartAll => exact .refl d
  | notifyAll rs => exact .refl d
  | closeWriter => exact .refl d

/-! ## Steps -/

variable {s : Storage} {d : Database}

/-- Commands in one transaction: they are all executed, or nothing happened. -/
theorem orders_ruled (hd : d.Timely) (hf : d.held = none) (cs : List Command) :
    d.Ruled (s.orders? d cs) ((Work.transact (Work.executeAll s.access cs)).on d).2 := by
  have ha := Work.transactAll_aside s.access cs d
  rw [orders?]
  rcases he : (Work.transact (Work.executeAll s.access cs)).on d with ⟨r | r, d'⟩ <;> rw [he] at ha
  · exact (Database.mild_of_store ha (Work.transactAll_error hd he)).ruled
  · exact ⟨ha, Work.transactAll_ok he, fun _ => hf⟩

/-- **A step from a phase** makes of the store what its ruling says. -/
theorem advance_ruled (hd : d.Timely) (time : Nat) {p : Phase}
    (hr : s.ready d.held.isNone p = true) :
    d.Ruled (s.ruling? time d p) (s.advance time d p).2.2 := by
  have free : d.held.isNone = true → d.held = none := Option.isNone_iff_eq_none.1
  cases p with
  | stating q =>
    cases q with
    | claim pool most =>
      obtain ⟨-, aside, h⟩ := s.state_claim hd pool most
      rw [ruling?, advance]
      rcases hs : s.state d (.claim pool most) with ⟨reply, s', d'⟩
      rw [hs] at aside h
      rcases h with ⟨ws, rfl, hclaim⟩ | ⟨hno, hst⟩
      · have hstore : d.store.Ruled (some (.claims s.access.engine ws)) d'.store :=
          ⟨pool, most, hclaim⟩
        exact ⟨aside, hstore, fun _ => free hr⟩
      · have hm : d.Ruled none d' := (Database.mild_of_store aside hst).ruled
        cases reply with
        | claimed ws => exact absurd rfl (hno ws)
        | _ => exact hm
    | insert ws => exact (s.state_gentle d (q := .insert ws) trivial).1.ruled
    | load id => exact (s.state_gentle d (q := .load id) trivial).1.ruled
    | restart id => exact (s.state_gentle d (q := .restart id) trivial).1.ruled
    | restartAll => exact (s.state_gentle d (q := .restartAll) trivial).1.ruled
    | notify rs => exact (s.state_gentle d (q := .notify rs) trivial).1.ruled
  | writing purpose passage =>
    cases passage with
    | alone c =>
      have h := orders_ruled (s := s) hd (free hr) [c]
      rw [ruling?, advance, write]
      split <;> rename_i he <;> rw [he] at h
      · exact h
      · exact h.told (s.acknowledge_told _ _ _)
      · exact h.told (s.acknowledge_told _ _ _)
    | inLine ticket =>
      refine Database.Told.ruled ?_
      rw [advance, write]
      split
      · exact acknowledge_told _ d _ _
      · exact .refl d
  | sweeping =>
    have h := s.sweepOnce_mild d
    rw [ruling?, advance]
    split <;> rename_i he <;> rw [he] at h <;> exact h.ruled
  | recovering =>
    have hw : (Work.recover s.access).Discreet := Work.discreet_callTotal _ _
    have ha := Work.discreet_transact hw d
    rw [ruling?, advance]
    split <;> rename_i he <;> rw [he] at ha
    · rename_i n d'
      obtain ⟨d₀, d₁, -, hs₀, hcall, hs₁⟩ := Work.transact_ok he
      have hst := Work.callTotal_ok hcall
      rw [hs₀, ← hs₁] at hst
      exact ⟨ha, ⟨n, hst⟩, fun _ => free hr⟩
    · rename_i e d'
      have hm := (Database.mild_of_error hw hd he).ruled
      cases e <;> exact hm
  | draining stopping =>
    refine Database.Told.ruled ?_
    rw [advance]
    split
    · exact .refl d
    · dsimp only
      split
      · exact d.told_tell _
      · exact .refl d
  | joining => exact (d.told_tellAll _).ruled

/-- **A step of the worker** makes of the store what its ruling says. -/
theorem stepWorker_ruled (hd : d.Timely) (time : Nat)
    (hr : (s.batcher.map fun b => b.ready time d.held.isNone).getD false = true) :
    d.Ruled (s.workerRuling? d) (Cluster.stepWorker time s d).2 := by
  have told : ∀ {d'}, d.Told d' → d.Ruled none d' := fun h => h.ruled
  rw [workerRuling?, Cluster.stepWorker]
  cases hb : s.batcher with
  | none => exact told (.refl d)
  | some b =>
    rw [hb] at hr
    replace hr : b.ready time d.held.isNone = true := hr
    simp only [Option.bind_some, Batcher.step]
    unfold Batcher.ready at hr
    split at hr <;> rename_i hphase
    · rw [hphase]
      dsimp only
      split <;> exact told (.refl d)
    · rw [hphase]
      dsimp only
      split <;> exact told (.refl d)
    · rename_i batch
      have h := orders_ruled (s := s) hd (Option.isNone_iff_eq_none.1 hr) (batch.map (·.command))
      rw [hphase]
      dsimp only
      split <;> rename_i he <;> rw [he] at h
      · exact h
      · exact h.told (Database.told_tell _ _)
      · exact h
    · rename_i rest
      rw [hphase]
      cases rest with
      | nil => exact told (.refl d)
      | cons x rest =>
        have h := orders_ruled (s := s) hd (Option.isNone_iff_eq_none.1 hr) [x.command]
        dsimp only
        split <;> rename_i he <;> rw [he] at h <;> exact h
    · cases hr
    · cases hr

end Storage

end Resumption
