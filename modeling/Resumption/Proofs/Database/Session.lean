import Resumption.Proofs.Store.Action

/-!
# Sessions on a database

A session is what any number of callers do to one database, one after the other: they perform
operations, each in the transaction that is held open or else in one of its own, they open
transactions, commit them, roll them back or forget them. Between two moves anything may happen to
the clock and to the faults that are planned (`Move.weather`).

* `Work.perform_quiet`: without faults an operation does to the store what `Store.serve` says and
  answers the same.
* `Database.transactions_store`: transactions that are held, used for operations and committed leave
  the store of the run of these operations, whether or not some of them fail. So does one more that
  is still open (`Database.underway_store`).
* `Database.after_holds`: what the actions of a session keep holds of the store and of the store to
  go back to, whatever transactions and faults there are. So both are reachable
  (`Database.after_reachable`).
-/

namespace Resumption

namespace Work

variable {α β : Type}

/-! ## Running work -/

theorem on_pure (a : α) (d : Database) : (pure a : Work α).on d = (.ok a, d) := rfl

theorem on_bind (w : Work α) (f : α → Work β) (d : Database) :
    (w >>= f).on d =
      match w.on d with
      | (.ok a, d') => (f a).on d'
      | (.error e, d') => (.error e, d') := by
  simp only [on, ExceptT.run_bind, StateT.run_bind]
  rcases h : StateT.run (ExceptT.run w) d with ⟨r, d'⟩
  cases r <;> rfl

theorem on_tryCatch (w : Work α) (f : Failure → Work α) (d : Database) :
    (tryCatch w f).on d =
      match w.on d with
      | (.ok a, d') => (.ok a, d')
      | (.error e, d') => (f e).on d' := by
  simp only [on, ExceptT.run_tryCatch, StateT.run_bind]
  rcases h : StateT.run (ExceptT.run w) d with ⟨r, d'⟩
  cases r <;> rfl

theorem on_get (d : Database) : (get : Work Database).on d = (.ok d, d) := rfl

theorem on_set (d d' : Database) : (set d' : Work PUnit).on d = (.ok ⟨⟩, d') := rfl

/-! ## Without faults -/

theorem meet_quiet {d : Database} (h : d.faults = []) (m : Method) (after : Bool) :
    (meet m after).on d = (.ok (), d) := by
  have hd : { d with faults := [] } = d := by rw [← h]
  simp only [meet, on_bind, on_get, h, Fault.meet, on_set, hd, on_pure]

/-- The answer of a store operation, as work gives it. -/
def answer (r : Except StoreError α) : Except Failure α := r.mapError .refused

@[simp] theorem answer_ok (a : α) : answer (.ok a) = .ok a := rfl

@[simp] theorem answer_error (e : StoreError) :
    answer (.error e : Except StoreError α) = .error (.refused e) := rfl

theorem onStore_on (operation : Store → Except StoreError α × Store) (d : Database) :
    (onStore operation).on d =
      (answer (operation d.store).1, { d with store := (operation d.store).2 }) := by
  simp only [onStore, on_bind, on_get, on_set]
  rcases operation d.store with ⟨r, s⟩
  cases r <;> rfl

theorem call_quiet {d : Database} (h : d.faults = []) (m : Method)
    (operation : Store → Except StoreError α × Store) :
    (call m operation).on d =
      (answer (operation d.store).1, { d with store := (operation d.store).2 }) := by
  simp only [call, on_bind, meet_quiet h, onStore_on]
  cases hr : (operation d.store).1 with
  | error e => rfl
  | ok a =>
    have h' : ({ d with store := (operation d.store).2 } : Database).faults = [] := h
    simp only [answer_ok, meet_quiet h', on_pure]

theorem callTotal_quiet {d : Database} (h : d.faults = []) (m : Method)
    (operation : Store → α × Store) :
    (callTotal m operation).on d =
      (.ok (operation d.store).1, { d with store := (operation d.store).2 }) :=
  call_quiet h m _

end Work

namespace Store

theorem actAll_insert (ws : List Workflow) :
    ∀ s : Store, s.actAll .done (ws.map .insert) = plainly (s.insert ws) := by
  induction ws with
  | nil => intro s; rfl
  | cons w ws ih =>
    intro s
    rw [List.map_cons, actAll]
    simp only [act, insert]
    cases w.id with
    | none => rfl
    | some id =>
      cases hf : s.find? id with
      | some _ => simp only [hf]; rfl
      | none => simp only [hf]; exact ih (s.append id w)

theorem actAll_deliver (rs : List Response) :
    ∀ s : Store, s.actAll .done (rs.map .deliver) = (.ok .done, s.notify rs) := by
  induction rs with
  | nil => intro s; rfl
  | cons r rs ih => intro s; exact ih (s.deliver r)

theorem actAll_one (s : Store) (a : Action) : s.actAll .done [a] = s.act a := by
  rw [actAll]
  rcases s.act a with ⟨r, s'⟩
  cases r <;> rfl

end Store

namespace Work

/-- A call that answers no more than that it went well. -/
theorem callDone_quiet {d : Database} (h : d.faults = []) (m : Method)
    (operation : Store → Except StoreError Unit × Store) :
    (do call m operation; return Outcome.done : Work Outcome).on d =
      (answer (Store.plainly (operation d.store)).1,
        { d with store := (Store.plainly (operation d.store)).2 }) := by
  rw [on_bind, call_quiet h, Store.plainly]
  cases (operation d.store).1 <;> rfl

theorem executeOne_quiet {d : Database} (h : d.faults = []) (a : Access) (c : Command) :
    (do execute a c; return Outcome.done : Work Outcome).on d =
      (answer (d.store.act (c.action a.removeFinished)).1,
        { d with store := (d.store.act (c.action a.removeFinished)).2 }) := by
  cases c with
  | suspend c payload => exact callDone_quiet h _ _
  | notify r => exact callDone_quiet h _ fun s => (.ok (), s.notify [r])
  | finish id => exact callDone_quiet h _ _
  | fail id cause => exact callDone_quiet h _ _

theorem executeAll_quiet (a : Access) (cs : List Command) :
    ∀ {d : Database}, d.faults = [] →
      (do executeAll a cs; return Outcome.done : Work Outcome).on d =
        (answer (d.store.actAll .done (cs.map (Command.action a.removeFinished))).1,
          { d with
            store := (d.store.actAll .done (cs.map (Command.action a.removeFinished))).2 }) := by
  induction cs with
  | nil => intro d _; rfl
  | cons c cs ih =>
    intro d h
    have hc := executeOne_quiet h a c
    rw [on_bind] at hc ⊢
    rw [executeAll, on_bind]
    rw [List.map_cons, Store.actAll]
    rcases he : (execute a c).on d with ⟨r, d'⟩
    rw [he] at hc
    rcases ha : d.store.act (c.action a.removeFinished) with ⟨r', s'⟩
    rw [ha] at hc
    cases r with
    | error e =>
      cases r' with
      | error e' => simpa using hc
      | ok o => simp at hc
    | ok u =>
      cases r' with
      | error e' => simp [on_pure] at hc
      | ok o =>
        simp only [on_pure, answer_ok, Prod.mk.injEq, Except.ok.injEq] at hc
        obtain ⟨rfl, rfl⟩ := hc
        have := ih (d := { d with store := s' }) h
        rw [on_bind] at this
        exact this

/-- **Without faults** an operation does to the store what `serve` says and answers the same. -/
theorem perform_quiet {d : Database} (h : d.faults = []) (a : Access) (op : Operation) :
    (perform a op).on d =
      (answer (d.store.serve ⟨a, d.clock, op⟩).1,
        { d with store := (d.store.serve ⟨a, d.clock, op⟩).2 }) := by
  cases op with
  | insert ws =>
    rw [Store.serve, Store.Request.actions, Store.actAll_insert]
    exact callDone_quiet h _ _
  | claim pool most =>
    rw [Store.serve, Store.Request.actions, Store.actAll_one, perform, on_bind, claim,
      callTotal_quiet h]
    rfl
  | notify rs =>
    rw [Store.serve, Store.Request.actions, Store.actAll_deliver]
    exact callDone_quiet h _ fun s => (.ok (), s.notify rs)
  | suspend c payload =>
    rw [Store.serve, Store.Request.actions, Store.actAll_one]
    exact callDone_quiet h _ _
  | finish id =>
    rw [Store.serve, Store.Request.actions, Store.actAll_one]
    exact callDone_quiet h _ _
  | fail id cause =>
    rw [Store.serve, Store.Request.actions, Store.actAll_one]
    exact callDone_quiet h _ _
  | restart id =>
    rw [Store.serve, Store.Request.actions, Store.actAll_one]
    exact callDone_quiet h _ _
  | restartAll =>
    rw [Store.serve, Store.Request.actions, Store.actAll_one, perform, on_bind, restartAll,
      callTotal_quiet h]
    rfl
  | sweep most =>
    rw [Store.serve, Store.Request.actions, Store.actAll_one, perform, on_bind, sweep, on_bind,
      on_get]
    simp only [callTotal_quiet h]
    rfl
  | promote most =>
    rw [Store.serve, Store.Request.actions, Store.actAll_one, perform, on_bind, promote, on_bind,
      on_get]
    simp only [callTotal_quiet h]
    rfl
  | recover =>
    rw [Store.serve, Store.Request.actions, Store.actAll_one, perform, on_bind, recover,
      callTotal_quiet h]
    rfl
  | load id =>
    rw [Store.serve, Store.Request.actions, Store.actAll_one, perform, on_bind, load,
      callTotal_quiet h]
    rfl
  | execute cs => exact executeAll_quiet a cs h

/-! ## Whatever the faults -/

/-- Work that keeps `P` of the store, holds the same transaction as before, and whose result, if
there is one, satisfies `Q`. -/
def Keeps (P : Store → Prop) (w : Work α) (Q : α → Prop) : Prop :=
  ∀ d, P d.store → P (w.on d).2.store ∧ (w.on d).2.held = d.held ∧ ∀ a, (w.on d).1 = .ok a → Q a

section
variable {P : Store → Prop} {Q : α → Prop}

theorem keeps_bind {R : β → Prop} {w : Work α} {f : α → Work β} (hw : Keeps P w Q)
    (hf : ∀ a, Q a → Keeps P (f a) R) : Keeps P (w >>= f) R := by
  intro d h
  obtain ⟨h1, h2, h3⟩ := hw d h
  rw [on_bind]
  rcases hr : w.on d with ⟨r, d'⟩
  rw [hr] at h1 h2 h3
  cases r with
  | error e => exact ⟨h1, h2, fun a e => by cases e⟩
  | ok a =>
    obtain ⟨k1, k2, k3⟩ := hf a (h3 a rfl) d' h1
    exact ⟨k1, k2.trans h2, k3⟩

theorem keeps_tryCatch {w : Work α} {f : Failure → Work α} (hw : Keeps P w Q)
    (hf : ∀ e, Keeps P (f e) Q) : Keeps P (tryCatch w f) Q := by
  intro d h
  obtain ⟨h1, h2, h3⟩ := hw d h
  rw [on_tryCatch]
  rcases hr : w.on d with ⟨r, d'⟩
  rw [hr] at h1 h2 h3
  cases r with
  | ok a => exact ⟨h1, h2, h3⟩
  | error e =>
    obtain ⟨k1, k2, k3⟩ := hf e d' h1
    exact ⟨k1, k2.trans h2, k3⟩

theorem keeps_pure {a : α} (h : Q a) : Keeps P (pure a) Q :=
  fun _ hd => ⟨hd, rfl, fun b e => by cases e; exact h⟩

theorem keeps_throw (e : Failure) : Keeps P (throw e : Work α) Q :=
  fun _ hd => ⟨hd, rfl, fun b h => by cases h⟩

theorem keeps_tell (e : Event) : Keeps P (tell e) fun _ => True :=
  fun _ hd => ⟨hd, rfl, fun _ _ => trivial⟩

theorem keeps_restore {s : Store} (h : P s) : Keeps P (restore s) fun _ => True :=
  fun _ _ => ⟨h, rfl, fun _ _ => trivial⟩

theorem keeps_meet (m : Method) (after : Bool) : Keeps P (meet m after) fun _ => True := by
  intro d h
  simp only [meet, on_bind, on_get, on_set]
  rcases Fault.meet m after d.faults with ⟨blow, faults⟩
  rcases blow with _ | (_ | _) <;> exact ⟨h, rfl, fun _ _ => trivial⟩

theorem keeps_call {m : Method} {o : Store → Except StoreError α × Store}
    (h : ∀ s, P s → P (o s).2) : Keeps P (call m o) fun _ => True := by
  refine keeps_bind (keeps_meet m false) fun _ _ => keeps_bind (Q := fun _ => True) ?_ fun a _ =>
    keeps_bind (keeps_meet m true) fun _ _ => keeps_pure trivial
  intro d hd
  rw [onStore_on]
  exact ⟨h d.store hd, rfl, fun _ _ => trivial⟩

theorem keeps_callTotal {m : Method} {o : Store → α × Store} (h : ∀ s, P s → P (o s).2) :
    Keeps P (callTotal m o) fun _ => True := keeps_call h

theorem keeps_clock {f : Instant → Work α} (h : ∀ now, Keeps P (f now) Q) :
    Keeps P (get >>= fun d => f d.clock) Q := by
  intro d hd
  rw [on_bind, on_get]
  exact h d.clock d hd

theorem keeps_executeAll {a : Access} (cs : List Command)
    (h : ∀ s, ∀ c ∈ cs, P s → P (s.act (c.action a.removeFinished)).2) :
    Keeps P (executeAll a cs) fun _ => True := by
  induction cs with
  | nil => exact keeps_pure trivial
  | cons c cs ih =>
    have hc := fun s => h s c List.mem_cons_self
    refine keeps_bind (Q := fun _ => True) ?_ fun _ _ =>
      ih fun s c hc => h s c (List.mem_cons_of_mem _ hc)
    cases c with
    | suspend c payload => exact keeps_call (o := fun s => s.suspend c payload) hc
    | notify r => exact keeps_callTotal (o := fun s => ((), s.notify [r])) hc
    | finish id => exact keeps_call (o := fun s => s.finish a.removeFinished id) hc
    | fail id cause => exact keeps_call (o := fun s => s.fail id cause) hc

theorem keeps_insert {ws : List Workflow} (h : ∀ s, ∀ w ∈ ws, P s → P (s.act (.insert w)).2) :
    Keeps P (insert ws) fun _ => True := by
  refine keeps_call (o := fun s => s.insert ws) fun s hs => ?_
  have := Store.actAll_holds (ws.map .insert) (fun s x hx => ?_) s .done hs
  · rw [Store.actAll_insert] at this
    exact this
  · obtain ⟨w, hw, rfl⟩ := List.mem_map.1 hx
    exact h s w hw

theorem keeps_notify {rs : List Response} (h : ∀ s, ∀ r ∈ rs, P s → P (s.act (.deliver r)).2) :
    Keeps P (notify rs) fun _ => True := by
  refine keeps_callTotal (o := fun s => ((), s.notify rs)) fun s hs => ?_
  have := Store.actAll_holds (rs.map .deliver) (fun s x hx => ?_) s .done hs
  · rw [Store.actAll_deliver] at this
    exact this
  · obtain ⟨r, hr, rfl⟩ := List.mem_map.1 hx
    exact h s r hr

/-- An operation keeps what its actions keep, whichever calls fail. -/
theorem keeps_perform (a : Access) (op : Operation)
    (h : ∀ now s, ∀ x ∈ Store.Request.actions ⟨a, now, op⟩, P s → P (s.act x).2) :
    Keeps P (perform a op) fun _ => True := by
  have one : ∀ now x, Store.Request.actions ⟨a, now, op⟩ = [x] → ∀ s, P s → P (s.act x).2 :=
    fun now x e s => h now s x (by rw [e]; exact List.mem_singleton_self x)
  have done : ∀ {β : Type} {w : Work β} {f : β → Outcome}, Keeps P w (fun _ => True) →
      Keeps P (w >>= fun a => pure (f a)) fun _ => True :=
    fun hw => keeps_bind hw fun _ _ => keeps_pure trivial
  cases op with
  | insert ws => exact done (keeps_insert fun s w hw => h default s _ (List.mem_map_of_mem hw))
  | notify rs => exact done (keeps_notify fun s r hr => h default s _ (List.mem_map_of_mem hr))
  | execute cs =>
    exact done (keeps_executeAll cs fun s c hc => h default s _ (List.mem_map_of_mem hc))
  | claim pool most =>
    exact done (keeps_callTotal (o := fun s => s.claim a.engine pool most) (one default _ rfl))
  | suspend c payload =>
    exact done (keeps_call (o := fun s => s.suspend c payload) (one default _ rfl))
  | finish id =>
    exact done (keeps_call (o := fun s => s.finish a.removeFinished id) (one default _ rfl))
  | fail id cause => exact done (keeps_call (o := fun s => s.fail id cause) (one default _ rfl))
  | restart id => exact done (keeps_call (o := fun s => s.restart id) (one default _ rfl))
  | restartAll => exact done (keeps_callTotal (o := Store.restartAll) (one default _ rfl))
  | sweep most =>
    exact done (keeps_clock (f := fun now => callTotal .sweep fun s => s.sweep now most)
      fun now => keeps_callTotal (one now _ rfl))
  | promote most =>
    exact done (keeps_clock (f := fun now => callTotal .promote fun s => s.promote now most)
      fun now => keeps_callTotal (one now _ rfl))
  | recover =>
    exact done (keeps_callTotal (o := fun s => s.recover a.engine) (one default _ rfl))
  | load id => exact done (keeps_callTotal (o := fun s => (s.load id, s)) fun _ hs => hs)

theorem keeps_openTransaction : Keeps P openTransaction P := by
  refine keeps_bind (keeps_tell _) fun _ _ => keeps_bind (keeps_meet _ _) fun _ _ =>
    keeps_bind (keeps_meet _ _) fun _ _ => ?_
  intro d hd
  refine ⟨hd, rfl, fun s e => ?_⟩
  cases e
  exact hd

theorem keeps_commit {before : Store} (h : P before) : Keeps P (commit before) fun _ => True :=
  keeps_bind (keeps_tell _) fun _ _ => keeps_bind
    (keeps_tryCatch (keeps_meet _ _) fun e => keeps_bind (keeps_restore h) fun _ _ => keeps_throw e)
    fun _ _ => keeps_meet _ _

theorem keeps_rollback {before : Store} (h : P before) : Keeps P (rollback before) fun _ => True :=
  keeps_bind (keeps_tell _) fun _ _ => keeps_bind (keeps_restore h) fun _ _ =>
    keeps_bind (keeps_meet _ _) fun _ _ => keeps_meet _ _

theorem keeps_abandon {before : Store} (h : P before) (e : Failure) :
    Keeps P (abandon before e : Work α) Q := by
  cases e with
  | crashed message => exact keeps_bind (keeps_restore h) fun _ _ => keeps_throw _
  | refused cause =>
    refine keeps_bind (Q := fun _ => True) (keeps_tryCatch (keeps_rollback h) fun e => ?_)
      fun _ _ => keeps_throw _
    cases e with
    | refused cause => exact keeps_tell _
    | crashed message => exact keeps_throw _

theorem keeps_transact {w : Work α} (hw : Keeps P w Q) : Keeps P (transact w) Q :=
  keeps_bind keeps_openTransaction fun _ hb =>
    keeps_bind (keeps_tryCatch hw fun e => keeps_abandon hb e) fun _ ha =>
      keeps_bind (keeps_commit hb) fun _ _ => keeps_pure ha

theorem keeps_within {w : Work α} (hw : Keeps P w Q) : Keeps P (within w) Q := by
  intro d hd
  simp only [within, on_bind, on_get]
  split
  · exact hw d hd
  · exact keeps_transact hw d hd

end

end Work

/-! ## Moves -/

/-- What can happen next to a database. -/
inductive Move where
  /-- An operation is performed, in the transaction that is held or else in one of its own. -/
  | perform (a : Access) (op : Operation)
  /-- A transaction is opened and held. -/
  | hold
  /-- The transaction that is held is committed. -/
  | commit
  /-- The transaction that is held is rolled back. -/
  | rollback
  /-- The transaction that is held is forgotten. -/
  | forget
  /-- The clock is set, and other faults are planned. -/
  | weather (faults : List Fault) (clock : Instant)

namespace Database

def next (d : Database) : Move → Database
  | .perform a op => ((Work.within (Work.perform a op)).on d).2
  | .hold => (Work.hold.on d).2
  | .commit => (Work.commitHeld.on d).2
  | .rollback => (Work.rollbackHeld.on d).2
  | .forget => (Work.dropHeld.on d).2
  | .weather faults clock => { d with faults, clock }

def after (d : Database) (ms : List Move) : Database := ms.foldl next d

/-- `P` holds of the store and of the one that the transaction held open goes back to. -/
def Both (P : Store → Prop) (d : Database) : Prop :=
  P d.store ∧ ∀ before, d.held = some before → P before

/-- What ends the transaction that a caller holds gets the store to go back to. -/
theorem release_on (d : Database) :
    Work.release.on d = (.ok (d.held.getD d.store), { d with held := none }) := rfl

section
variable {P : Store → Prop}

theorem hold_both {d : Database} (h : d.Both P) : (d.next .hold).Both P := by
  obtain ⟨h1, h2, h3⟩ := Work.keeps_openTransaction (P := P) d h.1
  simp only [next, Work.hold, Work.on_bind]
  rcases hr : Work.openTransaction.on d with ⟨r, d'⟩
  rw [hr] at h1 h2 h3
  cases r with
  | error e => exact ⟨h1, fun b hb => h.2 b (h2 ▸ hb)⟩
  | ok s =>
    refine ⟨h1, fun b hb => ?_⟩
    cases hb
    exact h3 s rfl

/-- What ends the transaction that is held, given the store to go back to. -/
theorem end_both {d : Database} {f : Store → Work Unit} (h : d.Both P)
    (hf : ∀ s, P s → Work.Keeps P (f s) fun _ => True) :
    Both P ((Work.release >>= f).on d).2 := by
  have hb : P (d.held.getD d.store) := by
    cases hd : d.held with
    | none => exact h.1
    | some b => exact h.2 b hd
  obtain ⟨h1, h2, -⟩ := hf _ hb { d with held := none } h.1
  rw [Work.on_bind, release_on]
  refine ⟨h1, fun b hb => ?_⟩
  rw [h2] at hb
  cases hb

theorem next_both {d : Database} {m : Move} (h : d.Both P)
    (step : ∀ a op, m = .perform a op →
      ∀ now s, ∀ x ∈ Store.Request.actions ⟨a, now, op⟩, P s → P (s.act x).2) :
    (d.next m).Both P := by
  cases m with
  | perform a op =>
    obtain ⟨h1, h2, -⟩ := Work.keeps_within (Work.keeps_perform a op (step a op rfl)) d h.1
    exact ⟨h1, fun b hb => h.2 b (h2 ▸ hb)⟩
  | hold => exact hold_both h
  | commit => exact end_both h fun s hs => Work.keeps_commit hs
  | rollback => exact end_both h fun s hs => Work.keeps_rollback hs
  | forget => exact end_both h fun s hs => Work.keeps_restore hs
  | weather faults clock => exact h

/-- **Sessions.** What the actions of a session keep holds of the store after it, whatever
transactions and faults there are. -/
theorem after_holds (ms : List Move)
    (step : ∀ a op, .perform a op ∈ ms →
      ∀ now s, ∀ x ∈ Store.Request.actions ⟨a, now, op⟩, P s → P (s.act x).2) :
    ∀ d : Database, d.Both P → (d.after ms).Both P := by
  induction ms with
  | nil => intro d h; exact h
  | cons m ms ih =>
    intro d h
    refine ih (fun a op hm => step a op (List.mem_cons_of_mem _ hm)) _ (next_both h ?_)
    rintro a op rfl
    exact step a op List.mem_cons_self

end

/-- The store after a session on an empty database, and the one it may go back to, are reachable. -/
theorem after_reachable (clock : Instant) (ms : List Move) :
    ((create clock).after ms).Both Store.Reachable :=
  after_holds ms (fun _ _ _ _ _ x _ h => .act x h) _ ⟨.empty, fun _ h => by cases h⟩

/-! ## One committed transaction -/

/-- Operations in the transaction that is held, each at its own reading of the clock. -/
def performAll (d : Database) (qs : List Store.Request) : Database :=
  qs.foldl (fun d q => { d with clock := q.now }.next (.perform q.access q.operation)) d

/-- Opens a transaction, performs operations in it and commits it, even when some of them fail. -/
def commitAll (d : Database) (qs : List Store.Request) : Database :=
  ((d.next .hold).performAll qs).next .commit

theorem perform_held {d : Database} (h : d.faults = []) (hh : d.held.isSome = true) (a : Access)
    (op : Operation) :
    d.next (.perform a op) = { d with store := (d.store.serve ⟨a, d.clock, op⟩).2 } := by
  simp only [next, Work.within, Work.on_bind, Work.on_get, hh, if_true, Work.perform_quiet h]

theorem performAll_store (qs : List Store.Request) :
    ∀ d : Database, d.faults = [] → d.held.isSome = true →
      (d.performAll qs).store = d.store.serveAll qs ∧ (d.performAll qs).faults = [] := by
  induction qs with
  | nil => intro d h _; exact ⟨rfl, h⟩
  | cons q qs ih =>
    intro d h hh
    have hq := perform_held (d := { d with clock := q.now }) h hh q.access q.operation
    show (performAll (Database.next _ _) qs).store = _ ∧
      (performAll (Database.next _ _) qs).faults = []
    rw [hq]
    exact ih { d with clock := q.now, store := (d.store.serve q).2 } h hh

theorem hold_quiet {d : Database} (h : d.faults = []) :
    d.next .hold =
      { d with held := some d.store, journal := .boundary .begin :: d.journal } := by
  have h' : (d.tell (.boundary .begin)).faults = [] := h
  have ht : (Work.tell (.boundary .begin)).on d = (.ok ⟨⟩, d.tell (.boundary .begin)) := rfl
  simp only [next, Work.hold, Work.openTransaction, Work.on_bind, ht, Work.meet_quiet h']
  rfl

theorem commit_quiet {d : Database} (h : d.faults = []) :
    d.next .commit = { d with held := none, journal := .boundary .commit :: d.journal } := by
  have h' : (tell { d with held := none } (.boundary .commit)).faults = [] := h
  have ht : (Work.tell (.boundary .commit)).on { d with held := none } =
      (.ok ⟨⟩, tell { d with held := none } (.boundary .commit)) := rfl
  simp only [next, Work.commitHeld, Work.commit, Work.on_bind, Work.on_tryCatch, release_on, ht,
    Work.meet_quiet h']
  rfl

theorem commitAll_store {d : Database} (h : d.faults = []) (qs : List Store.Request) :
    (d.commitAll qs).store = d.store.serveAll qs ∧ (d.commitAll qs).faults = [] := by
  obtain ⟨hs, hf⟩ := performAll_store qs (d.next .hold) (by rw [hold_quiet h]; exact h)
    (by rw [hold_quiet h]; rfl)
  rw [commitAll, commit_quiet hf]
  refine ⟨?_, hf⟩
  rw [hs, hold_quiet h]

/-- Transactions, each committed before the next is opened. -/
def transactions (d : Database) (txs : List (List Store.Request)) : Database :=
  txs.foldl commitAll d

/-- **Committed transactions.** Without faults, the store after committed transactions is that of
the run of their operations. -/
theorem transactions_store (txs : List (List Store.Request)) :
    ∀ {d : Database}, d.faults = [] →
      (d.transactions txs).store = d.store.serveAll txs.flatten ∧
        (d.transactions txs).faults = [] := by
  induction txs with
  | nil => intro d h; exact ⟨rfl, h⟩
  | cons tx txs ih =>
    intro d h
    obtain ⟨hs, hf⟩ := commitAll_store h tx
    obtain ⟨ihs, ihf⟩ := ih hf
    refine ⟨?_, ihf⟩
    rw [List.flatten_cons, Store.serveAll, List.foldl_append]
    exact ihs.trans (by rw [hs]; rfl)

/-- Transactions, each committed, and the operations so far of one that is still open. -/
def underway (d : Database) (txs : List (List Store.Request)) (qs : List Store.Request) :
    Database :=
  ((d.transactions txs).next .hold).performAll qs

theorem underway_store {d : Database} (h : d.faults = []) (txs : List (List Store.Request))
    (qs : List Store.Request) :
    (d.underway txs qs).store = d.store.serveAll (txs.flatten ++ qs) ∧
      (d.underway txs qs).faults = [] := by
  obtain ⟨ht, hf⟩ := transactions_store txs h
  obtain ⟨hs, hf'⟩ := performAll_store qs ((d.transactions txs).next .hold)
    (by rw [hold_quiet hf]; exact hf) (by rw [hold_quiet hf]; rfl)
  refine ⟨?_, hf'⟩
  rw [underway, hs, hold_quiet hf, Store.serveAll, Store.serveAll, List.foldl_append]
  exact congrArg (List.foldl _ · qs) ht

end Database

end Resumption
