import Resumption.Proofs.Database.Atomicity

/-!
# Units of work

What a caller runs inside one transaction: it asks for an operation, sees what came of it, an error
too, and goes on from there (`Job`). Each operation runs on behalf of its own engine and at its own
reading of the clock, and a job may end well, with an error of its own, or on the spot.

The store that a whole job makes is the one that `Job.work` leaves behind when it succeeds. A job
that gives up at the first error (`Job.Strict`) makes what its operations make one after the other,
and no fault can come into it (`Job.work_strict`).

* `Work.transact_cases` takes any transaction apart: it never began, its work failed, or its work
  was done and the commit had the last word (`Work.commit_cases`).
* **`Job.all_or_nothing`**: whatever the job and whichever calls fail, the store afterwards is the
  one from before or the one that the whole job made, and the answer says which, up to a commit that
  fails after it took effect. A transaction that a caller holds goes back to where it began.
-/

namespace Resumption

/-- A unit of work that is made of operations. -/
inductive Job (α : Type) where
  /-- It is done. -/
  | done (a : α)
  /-- It gives up. -/
  | refuse (cause : StoreError)
  /-- The activity that does it ends on the spot. -/
  | crash (message : String)
  /-- It asks for an operation and goes on from the answer. -/
  | ask (q : Store.Request) (next : Except StoreError Outcome → Job α)

/-- The commit of this database takes effect, and then fails. -/
def Database.CommitsLate (d : Database) (e : Failure) : Prop :=
  ∃ d₁, (Work.meet .commit false).on (d.tell (.boundary .commit)) = (.ok (), d₁) ∧
    ((Work.meet .commit true).on d₁).1 = .error e

theorem Store.act_action (s : Store) (remove : Bool) (c : Command) :
    s.act (c.action remove) = plainly (s.execute remove c) := by cases c <;> rfl

namespace Work

variable {α β : Type} {d d' : Database}

/-! ## Operations that go well -/

theorem callDone_ok {m : Method} {o : Store → Except StoreError Unit × Store} {r : Outcome}
    (h : (do call m o; return Outcome.done : Work Outcome).on d = (.ok r, d')) :
    Store.plainly (o d.store) = (.ok r, d'.store) := by
  obtain ⟨_, d₁, h₁, h⟩ := bind_ok h
  cases h
  rw [call_ok h₁]
  rfl

theorem executeAll_serves (a : Access) (cs : List Command) :
    ∀ {d : Database}, (executeAll a cs).on d = (.ok (), d') →
      d.store.actAll .done (cs.map (Command.action a.removeFinished)) = (.ok .done, d'.store) := by
  induction cs with
  | nil => intro d h; cases h; rfl
  | cons c cs ih =>
    intro d h
    obtain ⟨_, d₁, h₁, h⟩ := bind_ok h
    rw [List.map_cons, Store.actAll, Store.act_action, execute_ok h₁]
    exact ih h

/-- **An operation that goes well** did to the store what `serve` says, and answers the same,
whatever faults are planned. -/
theorem perform_ok {a : Access} {op : Operation} {o : Outcome}
    (h : (perform a op).on d = (.ok o, d')) :
    d.store.serve ⟨a, d.clock, op⟩ = (.ok o, d'.store) := by
  have total : ∀ {β : Type} {w : Work β} {f : Store → β × Store} {g : β → Outcome},
      (∀ {b d₁}, w.on d = (.ok b, d₁) → f d.store = (b, d₁.store)) →
      (do return g (← w) : Work Outcome).on d = (.ok o, d') →
        (Except.ok (g (f d.store).1), (f d.store).2) =
          ((.ok o, d'.store) : Except StoreError Outcome × Store) := by
    intro β w f g hw h
    obtain ⟨b, d₁, h₁, h⟩ := bind_ok h
    cases h
    rw [hw h₁]
  cases op with
  | insert ws =>
    rw [Store.serve, Store.Request.actions, Store.actAll_insert]
    exact callDone_ok h
  | notify rs =>
    rw [Store.serve, Store.Request.actions, Store.actAll_deliver]
    exact callDone_ok (o := fun s => (.ok (), s.notify rs)) h
  | execute cs =>
    obtain ⟨_, d₁, h₁, h⟩ := bind_ok h
    cases h
    exact executeAll_serves a cs h₁
  | claim pool most =>
    rw [Store.serve, Store.Request.actions, Store.actAll_one]
    exact total callTotal_ok h
  | suspend c payload =>
    rw [Store.serve, Store.Request.actions, Store.actAll_one]
    exact callDone_ok h
  | finish id =>
    rw [Store.serve, Store.Request.actions, Store.actAll_one]
    exact callDone_ok h
  | fail id cause =>
    rw [Store.serve, Store.Request.actions, Store.actAll_one]
    exact callDone_ok h
  | restart id =>
    rw [Store.serve, Store.Request.actions, Store.actAll_one]
    exact callDone_ok h
  | restartAll =>
    rw [Store.serve, Store.Request.actions, Store.actAll_one]
    exact total callTotal_ok h
  | sweep most =>
    rw [Store.serve, Store.Request.actions, Store.actAll_one]
    refine total (f := fun s => s.sweep d.clock most) (fun {b d₁} h => ?_) h
    rw [sweep, on_bind, on_get] at h
    exact callTotal_ok h
  | promote most =>
    rw [Store.serve, Store.Request.actions, Store.actAll_one]
    refine total (f := fun s => s.promote d.clock most) (fun {b d₁} h => ?_) h
    rw [promote, on_bind, on_get] at h
    exact callTotal_ok h
  | recover =>
    rw [Store.serve, Store.Request.actions, Store.actAll_one]
    exact total callTotal_ok h
  | load id =>
    rw [Store.serve, Store.Request.actions, Store.actAll_one]
    exact total (w := load id) (callTotal_ok (o := fun s => (s.load id, s))) h

/-! ## How a transaction runs -/

/-- A commit goes well, or it fails and puts the store back, or it fails too late for that. -/
theorem commit_cases (before : Store) (d : Database) :
    (∃ d', (commit before).on d = (.ok (), d') ∧ d'.store = d.store) ∨
      ∃ e d', (commit before).on d = (.error e, d') ∧
        (d'.store = before ∨ d'.store = d.store ∧ d.CommitsLate e) := by
  have ht : (tell (.boundary .commit)).on d = (.ok ⟨⟩, d.tell (.boundary .commit)) := rfl
  rcases h : (commit before).on d with ⟨e | u, d'⟩
  · refine .inr ⟨e, d', rfl, ?_⟩
    rw [commit, on_bind, ht] at h
    rcases bind_error h with h | ⟨_, d₁, h₁, h⟩
    · obtain ⟨e₁, d₁, -, h⟩ := tryCatch_error h
      cases h
      exact .inl rfl
    · rcases tryCatch_ok h₁ with h₁ | ⟨e, d₂, -, h₁⟩
      · exact .inr ⟨(meet_store h).trans (meet_store (d := d.tell _) h₁), d₁, h₁, by rw [h]⟩
      · cases h₁
  · exact .inl ⟨d', rfl, commit_ok h⟩

/-- A transaction never begins, or its work fails and is abandoned, or its work is done and the
commit has the last word. -/
theorem transact_cases (w : Work α) (d : Database) :
    (∃ e d₀, openTransaction.on d = (.error e, d₀) ∧ (transact w).on d = (.error e, d₀)) ∨
      ∃ d₀, openTransaction.on d = (.ok d.store, d₀) ∧
        ((∃ e d₁, w.on d₀ = (.error e, d₁) ∧
            (transact w).on d = (abandon d.store e : Work α).on d₁) ∨
          ∃ a d₁, w.on d₀ = (.ok a, d₁) ∧
            (transact w).on d =
              ((((commit d.store).on d₁).1.map fun _ => a), ((commit d.store).on d₁).2)) := by
  rcases h₀ : openTransaction.on d with ⟨e | before, d₀⟩
  · refine .inl ⟨e, d₀, rfl, ?_⟩
    rw [transact, on_bind, h₀]
  · obtain rfl := openTransaction_ok h₀
    refine .inr ⟨d₀, rfl, ?_⟩
    rw [transact, on_bind, h₀]
    simp only [on_bind, on_tryCatch]
    rcases h₁ : w.on d₀ with ⟨e | a, d₁⟩
    · refine .inl ⟨e, d₁, rfl, ?_⟩
      rcases h₂ : (abandon d.store e : Work α).on d₁ with ⟨e₂ | a, d₂⟩
      · simp only [h₂]
      · exact absurd h₂ abandon_fails
    · refine .inr ⟨a, d₁, rfl, ?_⟩
      rcases h₂ : (commit d.store).on d₁ with ⟨e | u, d₂⟩ <;> simp only [h₂] <;> rfl

/-- Work that gives up has its own error passed on, whatever the rollback reports. -/
theorem abandon_own {before : Store} {cause : StoreError} {d : Database}
    (h : ∀ message, ((rollback before).on d).1 ≠ .error (.crashed message)) :
    ((abandon before (.refused cause) : Work α).on d).1 = .error (.refused cause) := by
  rw [abandon, on_bind, on_tryCatch]
  rcases hr : (rollback before).on d with ⟨e | u, d₁⟩
  · cases e with
    | refused c => rfl
    | crashed message => exact absurd (by rw [hr]) (h message)
  · rfl

/-! ## Jobs -/

/-- Performs an operation and gives its answer, an error too. A crash is no answer. -/
def attempt (q : Store.Request) : Work (Except StoreError Outcome) := do
  modify fun d => { d with clock := q.now }
  tryCatch (do return .ok (← perform q.access q.operation)) fun
    | .refused cause => return .error cause
    | .crashed message => throw (.crashed message)

end Work

namespace Job

variable {α : Type}

/-- The job as work inside a transaction. -/
def work : Job α → Work α
  | done a => return a
  | refuse cause => throw (.refused cause)
  | crash message => throw (.crashed message)
  | ask q next => do (next (← Work.attempt q)).work

def run : Job α → Store → Except Failure α × Store
  | done a, s => (.ok a, s)
  | refuse cause, s => (.error (.refused cause), s)
  | crash message, s => (.error (.crashed message), s)
  | ask q next, s => (next (s.serve q).1).run (s.serve q).2

/-- The job gives up at the first error and passes it on. -/
inductive Strict : Job α → Prop where
  | done (a : α) : Strict (done a)
  | refuse (cause : StoreError) : Strict (refuse cause)
  | crash (message : String) : Strict (crash message)
  | ask {q : Store.Request} {next : Except StoreError Outcome → Job α} :
      (∀ cause, next (.error cause) = .refuse cause) → (∀ o, Strict (next (.ok o))) →
        Strict (ask q next)

end Job

/-- An attempt that is answered well did to the store what `serve` says. -/
theorem Work.attempt_ok {q : Store.Request} {d d' : Database} {o : Outcome}
    (h : (attempt q).on d = (.ok (.ok o), d')) : d.store.serve q = (.ok o, d'.store) := by
  have hc : (modify fun d => { d with clock := q.now } : Work PUnit).on d =
      (.ok ⟨⟩, { d with clock := q.now }) := rfl
  rw [attempt, on_bind, hc] at h
  rcases tryCatch_ok h with h | ⟨e, d₁, -, h⟩
  · obtain ⟨o', d₁, h₁, h⟩ := bind_ok h
    cases h
    exact perform_ok h₁
  · rcases e with cause | message <;> cases h

namespace Job

variable {α : Type}

/-- **A strict job that is done** made of the store what its operations make of it, whatever faults
were planned. -/
theorem work_strict {j : Job α} (hj : j.Strict) :
    ∀ {d d' : Database} {a : α}, j.work.on d = (.ok a, d') → j.run d.store = (.ok a, d'.store) := by
  induction hj with
  | done a => intro d d' b h; cases h; rfl
  | refuse cause => intro d d' b h; cases h
  | crash message => intro d d' b h; cases h
  | @ask q next hstop _ ih =>
    intro d d' b h
    obtain ⟨r, d₁, h₁, h⟩ := Work.bind_ok h
    cases r with
    | error cause =>
      rw [hstop cause] at h
      cases h
    | ok o =>
      rw [run, Work.attempt_ok h₁]
      exact ih o h

end Job

/-! ## Transactions that a caller holds -/

/-- What a caller does inside the transaction that it holds, and what happens meanwhile. -/
def Move.Inside : Move → Prop
  | .perform _ _ | .weather _ _ => True
  | _ => False

namespace Database

/-- Whatever becomes of what is done inside it, a transaction stays the one that is held. -/
theorem after_inside {ms : List Move} (h : ∀ m ∈ ms, m.Inside) :
    ∀ d : Database, (d.after ms).held = d.held := by
  induction ms with
  | nil => intro d; rfl
  | cons m ms ih =>
    intro d
    have hn : (d.next m).held = d.held := by
      cases m with
      | perform a op =>
        have hk := Work.keeps_within (P := fun _ => True)
          (Work.keeps_perform a op fun _ _ _ _ _ => trivial)
        exact (hk d trivial).2.1
      | weather faults clock => rfl
      | hold | commit | rollback | forget => exact (h _ List.mem_cons_self).elim
    exact (ih (fun m hm => h m (List.mem_cons_of_mem _ hm)) (d.next m)).trans hn

/-- A rollback puts back the store that the transaction began with, even when it fails. -/
theorem rollback_held {d : Database} {before : Store} (h : d.held = some before) :
    (d.next .rollback).store = before := by
  rw [next, Work.rollbackHeld, Work.on_bind, release_on, h]
  exact Work.rollback_store rfl

theorem forget_held {d : Database} {before : Store} (h : d.held = some before) :
    (d.next .forget).store = before := by
  rw [next, Work.dropHeld, Work.on_bind, release_on, h]
  rfl

/-- A transaction is opened with the store as it is, or not at all. -/
theorem hold_store (d : Database) :
    (d.next .hold).store = d.store ∧
      ((Work.hold.on d).1 = .ok () → (d.next .hold).held = some d.store) := by
  obtain ⟨d₁, -, hs, ⟨e, h⟩ | h⟩ := d.hold_cases <;> rw [next, h]
  · exact ⟨hs, fun hk => by cases hk⟩
  · exact ⟨hs, fun _ => rfl⟩

/-! ## Transactions one after the other -/

/-- How a transaction that is held ends. -/
inductive Fate where
  | committed
  | rolledBack
  | forgotten
  deriving DecidableEq

/-- The move that ends it. -/
def Fate.move : Fate → Move
  | committed => .commit
  | rolledBack => .rollback
  | forgotten => .forget

/-- Opens a transaction, performs operations in it, even when some of them fail, and ends it. -/
def transaction (d : Database) (tx : List Store.Request × Fate) : Database :=
  ((d.next .hold).performAll tx.1).next tx.2.move

/-- The operations whose transactions were committed. -/
def lasting (txs : List (List Store.Request × Fate)) : List Store.Request :=
  (txs.filter fun tx => tx.2 = .committed).flatMap (·.1)

/-- Transactions, each ended before the next is opened, and the operations so far of one that is
still open. -/
def course (d : Database) (txs : List (List Store.Request × Fate)) (qs : List Store.Request) :
    Database :=
  ((txs.foldl transaction d).next .hold).performAll qs

theorem performAll_held (qs : List Store.Request) : ∀ d : Database, (d.performAll qs).held = d.held := by
  induction qs with
  | nil => intro d; rfl
  | cons q qs ih =>
    intro d
    have hm : ∀ m ∈ [Move.perform q.access q.operation], m.Inside := by simp [Move.Inside]
    exact (ih _).trans (after_inside hm { d with clock := q.now })

theorem rollback_faults {d : Database} (h : d.faults = []) : (d.next .rollback).faults = [] := by
  rw [next, Work.rollbackHeld, Work.on_bind, release_on]
  exact (Work.discreet_rollback _ { d with held := none }).quiet h

theorem transaction_store {d : Database} (h : d.faults = []) (tx : List Store.Request × Fate) :
    (d.transaction tx).store = d.store.serveAll (lasting [tx]) ∧ (d.transaction tx).faults = [] := by
  obtain ⟨qs, fate⟩ := tx
  have hf : (d.next .hold).faults = [] := by rw [hold_quiet h]; exact h
  have hh : (d.next .hold).held = some d.store := by rw [hold_quiet h]
  have hs : (d.next .hold).held.isSome = true := by rw [hh]; rfl
  have hheld : ((d.next .hold).performAll qs).held = some d.store := by
    rw [performAll_held, hh]
  have hquiet := (performAll_store qs (d.next .hold) hf hs).2
  cases fate with
  | committed =>
    have hl : lasting [(qs, .committed)] = qs := by simp [lasting]
    rw [hl]
    exact commitAll_store h qs
  | rolledBack => exact ⟨rollback_held hheld, rollback_faults hquiet⟩
  | forgotten => exact ⟨forget_held hheld, hquiet⟩

/-- **Transactions.** Without faults, transactions leave the store of the run of what was committed,
and of what was done so far in the one that is open. -/
theorem course_store {d : Database} (h : d.faults = [])
    (txs : List (List Store.Request × Fate)) (qs : List Store.Request) :
    (d.course txs qs).store = d.store.serveAll (lasting txs ++ qs) := by
  induction txs generalizing d with
  | nil =>
    have hf : (d.next .hold).faults = [] := by rw [hold_quiet h]; exact h
    have hs : (d.next .hold).held.isSome = true := by rw [hold_quiet h]; rfl
    obtain ⟨ht, -⟩ := performAll_store qs (d.next .hold) hf hs
    refine ht.trans ?_
    rw [hold_quiet h]
    rfl
  | cons tx txs ih =>
    obtain ⟨ht, hf⟩ := transaction_store h tx
    have hl : lasting (tx :: txs) = lasting [tx] ++ lasting txs := by
      rw [lasting, List.filter_cons, lasting, List.filter_cons]
      split <;> simp [lasting]
    rw [hl, List.append_assoc, Store.serveAll, List.foldl_append]
    refine (ih hf).trans ?_
    rw [ht]
    rfl

end Database

/-! ## All or nothing -/

/-- The database that work finds in a transaction of its own. -/
def Database.begun (d : Database) : Database := (Work.openTransaction.on d).2

theorem Database.begun_store (d : Database) : d.begun.store = d.store :=
  Work.openTransaction_store rfl

/-- The transaction of some work on a database is all or nothing. The whole work is `w.on d.begun`:
it finds the store from before. -/
structure Work.AllOrNothing {α : Type} (w : Work α) (d : Database) : Prop where
  /-- The store afterwards is the one from before or the one that the whole work made. -/
  store : ((transact w).on d).2.store = d.store ∨
    ∃ a d', w.on d.begun = (.ok a, d') ∧ ((transact w).on d).2.store = d'.store
  /-- An answer is that of the whole work, and comes with the store that it made. -/
  answered : ∀ {a}, ((transact w).on d).1 = .ok a →
    ∃ d', w.on d.begun = (.ok a, d') ∧ ((transact w).on d).2.store = d'.store
  /-- An error comes with the store from before, unless the commit took effect and then failed. -/
  failed : ∀ {e}, ((transact w).on d).1 = .error e → ((transact w).on d).2.store = d.store ∨
    ∃ a d', w.on d.begun = (.ok a, d') ∧ ((transact w).on d).2.store = d'.store ∧ d'.CommitsLate e
  /-- The error of work that gives up is returned whatever the rollback reports. -/
  own : ∀ {cause d'}, (openTransaction.on d).1 = .ok d.store →
    w.on d.begun = (.error (.refused cause), d') →
    (∀ message, ((rollback d.store).on d').1 ≠ .error (.crashed message)) →
      ((transact w).on d).1 = .error (.refused cause)

/-- Every transaction is all or nothing, whatever its work and whichever calls fail. -/
theorem Work.transact_whole {α : Type} (w : Work α) (d : Database) : w.AllOrNothing d := by
  rcases transact_cases w d with ⟨e, d₀, h₀, ht⟩ | ⟨d₀, h₀, ⟨e, d₁, h₁, ht⟩ | ⟨a, d₁, h₁, ht⟩⟩
  · -- It never began.
    have hs : ((transact w).on d).2.store = d.store := by rw [ht]; exact openTransaction_store h₀
    refine ⟨.inl hs, fun h => ?_, fun _ => .inl hs, fun hb => ?_⟩
    · rw [ht] at h; cases h
    · rw [h₀] at hb; cases hb
  · -- The work failed.
    have hd : d.begun = d₀ := by rw [Database.begun, h₀]
    rw [← hd] at h₁
    have hs : ((transact w).on d).2.store = d.store := by rw [ht]; exact abandon_store rfl
    refine ⟨.inl hs, fun {b} h => ?_, fun _ => .inl hs, fun _ hw hr => ?_⟩
    · have hb : (abandon d.store e : Work α).on d₁ = (.ok b, ((transact w).on d).2) :=
        ht.symm.trans (Prod.ext h rfl)
      exact absurd hb abandon_fails
    · rw [h₁] at hw
      cases hw
      rw [ht]
      exact abandon_own hr
  · -- The work was done.
    have hd : d.begun = d₀ := by rw [Database.begun, h₀]
    rw [← hd] at h₁
    have own : ∀ {cause d'}, w.on d.begun ≠ (.error (.refused cause), d') := by
      intro cause d' hw
      rw [h₁] at hw
      cases hw
    rcases commit_cases d.store d₁ with ⟨d₂, hc, hs⟩ | ⟨e, d₂, hc, hs⟩
    · rw [hc] at ht
      have hs : ((transact w).on d).2.store = d₁.store := by rw [ht]; exact hs
      refine ⟨.inr ⟨a, d₁, h₁, hs⟩, fun h => ?_, fun h => ?_, fun _ hw => absurd hw own⟩
      · rw [ht] at h; cases h; exact ⟨d₁, h₁, hs⟩
      · rw [ht] at h; cases h
    · rw [hc] at ht
      have hs : ((transact w).on d).2.store = d.store ∨
          ((transact w).on d).2.store = d₁.store ∧ d₁.CommitsLate e := by rw [ht]; exact hs
      refine ⟨hs.imp_right fun h => ⟨a, d₁, h₁, h.1⟩, fun h => ?_, fun h => ?_,
        fun _ hw => absurd hw own⟩
      · rw [ht] at h; cases h
      · rw [ht] at h; cases h; exact hs.imp_right fun h => ⟨a, d₁, h₁, h⟩

/-- **All or nothing.** Whatever the job and whichever calls fail, its transaction leaves the store
from before or the one that the whole job made, and says which (`Work.AllOrNothing`); the job finds
the store from before, and what a strict job makes of it is what its operations make one after the
other. A transaction that is held goes back to where it began, be it rolled back or forgotten,
whatever was done inside it and whether or not the rollback fails. -/
theorem Job.all_or_nothing {α : Type} (job : Job α) (d : Database) :
    job.work.AllOrNothing d ∧ d.begun.store = d.store ∧
      (job.Strict → ∀ a d', job.work.on d.begun = (.ok a, d') →
        job.run d.store = (.ok a, d'.store)) ∧
      ∀ ms, (∀ m ∈ ms, m.Inside) → (Work.hold.on d).1 = .ok () →
        (((d.next .hold).after ms).next .rollback).store = d.store ∧
          (((d.next .hold).after ms).next .forget).store = d.store := by
  refine ⟨Work.transact_whole job.work d, d.begun_store, fun hj a d' h => ?_, fun ms hms hh => ?_⟩
  · rw [← d.begun_store]
    exact work_strict hj h
  · have hd := (Database.after_inside hms (d.next .hold)).trans ((Database.hold_store d).2 hh)
    exact ⟨Database.rollback_held hd, Database.forget_held hd⟩

/-- Stores instances one by one, up to the first that cannot be stored. -/
def Job.insertAll : List Workflow → Job Unit
  | [] => .done ()
  | w :: ws => .ask ⟨⟨"engine", true⟩, .epoch, .insert [w]⟩ fun
    | .ok _ => insertAll ws
    | .error cause => .refuse cause

theorem Job.strict_insertAll (ws : List Workflow) : (insertAll ws).Strict := by
  induction ws with
  | nil => exact .done ()
  | cons w ws ih => exact .ask (fun _ => rfl) fun _ => ih

/-- A database on which rollbacks fail, and commits after they took effect. -/
def Database.shaky : Database :=
  { create .epoch with faults :=
      [⟨.rollback, false, 0, 1, .refuse "gone"⟩, ⟨.commit, true, 0, 1, .refuse "late"⟩] }

/-- On a database whose rollbacks and commits fail: of two equal instances neither is stored, and
the error is that of the store; one instance is stored although the commit reports an error, as its
insertion has it; inside a transaction that is held it is taken back. -/
theorem Job.insertAll_shaky :
    let w : Workflow := { Workflow.create "t" .null with id := some ⟨1⟩ }
    let twice := (Work.transact (insertAll [w, w]).work).on .shaky
    let once := (Work.transact (insertAll [w]).work).on .shaky
    let held := (Database.shaky.next .hold).after [.perform ⟨"engine", true⟩ (.insert [w, w])]
    twice.1 = .error (.refused (.invalidArgument
        "duplicate instance id 00000000-0000-0000-0000-000000000001")) ∧
      twice.2.store = .empty ∧ once.1 = .error (.refused (.database "late")) ∧
      once.2.store ≠ .empty ∧ (insertAll [w]).run .empty = (.ok (), once.2.store) ∧
      held.store ≠ .empty ∧ (held.next .rollback).store = .empty := by
  intro w twice once held
  have refused := all_or_nothing (insertAll [w, w]) .shaky
  have late := all_or_nothing (insertAll [w]) .shaky
  let gaveUp := ((insertAll [w, w]).work.on Database.shaky.begun).2
  let done := ((insertAll [w]).work.on Database.shaky.begun).2
  have hw : (insertAll [w, w]).work.on Database.shaky.begun = (.error (.refused (.invalidArgument
      "duplicate instance id 00000000-0000-0000-0000-000000000001")), gaveUp) := by rfl
  have hr : ((Work.rollback Database.shaky.store).on gaveUp).1 =
      .error (.refused (.database "gone")) := by rfl
  have hd : (insertAll [w]).work.on Database.shaky.begun = (.ok (), done) := by rfl
  have hs : once.2.store = done.store := by decide +kernel
  refine ⟨refused.1.own rfl hw fun message h => ?_, by decide +kernel, by rfl, by decide +kernel,
    ?_, by decide +kernel, (refused.2.2.2 _ ?_ rfl).1⟩
  · rw [hr] at h
    cases h
  · rw [hs]
    exact late.2.2.1 (strict_insertAll [w]) () done hd
  · intro m hm
    rw [List.mem_singleton.1 hm]
    trivial

end Resumption
