import Resumption.Proofs.Storage.Offering
import Resumption.Proofs.Store.Pending

/-!
# A storage in service

A storage with its database and the calls that are under way, and all that can happen to it
(`Occasion`): calls come, go on in any order and are given up, the worker and the loops go on,
workflows are stored and responses delivered inside a transaction that a caller holds, which is
committed, rolled back or forgotten, others who share the store do what they want in transactions of
their own, time passes, and the connection is given other faults and the clock another time.
`Service.Allows` is what is assumed: whoever needs a transaction waits until none is held open.

What counts is the store that is committed. **Each thing that happens does to it some actions in
order, each with success** (`Service.Step`): all that its transaction stands for
(`Service.actions`), or none, and a commit those that were done in the transaction that it ends.
Where the callers are told that it went well, it is all of them. A run has a history of such actions
(`Service.run_history`).
-/

namespace Resumption

/-- Something that happens to a storage. -/
inductive Occasion where
  | comes (c : Storage.Call)
  /-- The call at a place goes on. -/
  | goesOn (place : Nat)
  /-- The caller of the call at a place gives it up. -/
  | leaves (place : Nat)
  | works
  | promotes
  | reaps
  /-- Workflows are stored in the transaction that a caller holds. -/
  | inserts (ws : List Workflow)
  /-- Responses are delivered in the transaction that a caller holds. -/
  | notifies (rs : List Response)
  | holds
  | commits
  | rollsBack
  | forgets
  /-- Somebody else who shares the store does something in a transaction of its own. -/
  | others (a : Access) (q : Operation)
  | configures (remove : Bool)
  | passes (time : Nat)
  | weather (faults : List Fault) (clock : Instant)

/-- The responses that are offered to the storage. -/
def Occasion.offered : Occasion → List Response
  | .comes c => c.offered
  | .notifies rs => rs
  | _ => []

/-- A storage with its database, the time that has passed and the calls under way. -/
structure Service where
  storage : Storage
  database : Database
  time : Nat
  calls : List Storage.Phase

/-- The deliveries of responses that are offered to a storage. -/
def Storage.deliveries (s : Storage) (rs : List Response) : List Action :=
  rs.map fun r => .deliver (s.settle r)

/-- What is done in a transaction that a caller holds: workflows are stored, and responses are
delivered that were offered. -/
def Action.Drafted (s : Storage) (given : List Response) : Action → Prop
  | .insert _ => True
  | .deliver x => ∃ r ∈ given, x = s.settle r
  | _ => False

/-- The phase of a call that delivers responses. -/
def Storage.Phase.isNotification : Storage.Phase → Bool
  | .stating (.notify _) => true
  | .writing .plain (.alone _) => true
  | _ => false

/-- The submissions whose commands the next step of the writer executes. -/
def Batcher.turn (b : Batcher) : List Submitted :=
  match b.phase with
  | .flushing batch => batch
  | .retrying (x :: _) => [x]
  | _ => []

namespace Service

/-! ## What happens -/

def committed (k : Service) : Store := k.database.committed

def next (k : Service) : Occasion → Service
  | .comes c =>
    match k.storage.begin k.database c with
    | (.going p, storage, database) => { k with storage, database, calls := k.calls ++ [p] }
    | (.over _, storage, database) => { k with storage, database }
  | .goesOn place =>
    match k.calls[place]? with
    | none => k
    | some p =>
      match k.storage.advance k.time k.database p with
      | (.going q, storage, database) =>
        { k with storage, database, calls := k.calls.set place q }
      | (.over _, storage, database) =>
        { k with storage, database, calls := k.calls.eraseIdx place }
  | .leaves place => { k with calls := k.calls.eraseIdx place }
  | .works =>
    let (storage, database) := Cluster.stepWorker k.time k.storage k.database
    { k with storage, database }
  | .promotes =>
    let (storage, database) := k.storage.stepUpdater k.time k.database
    { k with storage, database }
  | .reaps =>
    let (storage, database) := k.storage.stepReaper k.time k.database
    { k with storage, database }
  | .inserts ws =>
    let (_, storage, database) := k.storage.insertHeld k.database ws
    { k with storage, database }
  | .notifies rs => { k with database := (k.storage.notifyHeld k.database rs).2 }
  | .holds => { k with database := (Work.hold.on k.database).2 }
  | .commits => { k with database := (Work.commitHeld.on k.database).2 }
  | .rollsBack => { k with database := (Work.rollbackHeld.on k.database).2 }
  | .forgets => { k with database := (Work.dropHeld.on k.database).2 }
  | .others a q => { k with database := ((Work.transact (Work.perform a q)).on k.database).2 }
  | .configures remove => { k with storage := k.storage.setRemove remove }
  | .passes time => { k with time }
  | .weather faults clock => { k with database := { k.database with faults, clock } }

def run (k : Service) (os : List Occasion) : Service := os.foldl next k

/-- This may happen. -/
def Allows (k : Service) : Occasion → Prop
  | .comes c => c.Proper
  | .goesOn place =>
    ∀ p ∈ k.calls[place]?, k.storage.ready k.database.held.isNone p = true
  | .works =>
    (k.storage.batcher.map fun b => b.ready k.time k.database.held.isNone).getD false = true
  | .promotes => k.storage.updaterReady k.time k.database.held.isNone = true
  | .reaps => k.storage.reaperReady k.time k.database.held.isNone = true
  | .inserts _ | .notifies _ => k.database.held.isSome = true
  | .holds | .others _ _ => k.database.held = none
  | _ => True

def Legal (k : Service) : List Occasion → Prop
  | [] => True
  | o :: os => k.Allows o ∧ (k.next o).Legal os

/-- The actions that the transaction of a step stands for, if there is one. -/
def actions (k : Service) : Occasion → List Action
  | .goesOn place =>
    ((k.calls[place]?).map fun p => p.actions k.storage k.database.clock).getD []
  | .works => k.storage.writerActions
  | .promotes => [.promote k.database.clock k.storage.ceiling]
  | .reaps => [.sweep k.database.clock k.storage.sweepBatch]
  | .others a q => Store.Request.actions ⟨a, k.database.clock, q⟩
  | _ => []

/-! ## What it does to the committed store -/

/-- The actions that take effect: those of the transaction or none, and of a held transaction that is
committed those that were done in it, or none. -/
def Done (k : Service) (given : List Response) (xs : List Action) : Occasion → Prop
  | .commits => ∀ x ∈ xs, x.Drafted k.storage given
  | o => xs = [] ∨ xs = k.actions o

/-- What the callers are told is so. A list of responses and a single one come down to the same
deliveries; they have taken effect when their callers, or the holders of their tickets, are told that
they went well; and what is delivered inside a held transaction takes effect with it. -/
def Honours (k : Service) (xs : List Action) : Occasion → Prop
  | .comes (.notify r) =>
    (k.storage.batcher = none → ∃ p, (k.next (.comes (.notify r))).calls = k.calls ++ [p] ∧
      ∀ now, p.actions k.storage now = k.storage.deliveries [r]) ∧
    ∀ b, k.storage.batcher = some b → b.closed = false → b.phase ≠ .broken →
      ∃ b', (k.next (.comes (.notify r))).storage.batcher = some b' ∧ ∃ x,
        b'.queue = b.queue ++ [x] ∧ ∀ remove, [x.command.action remove] = k.storage.deliveries [r]
  | .comes (.notifyAll rs) =>
    ∃ p, (k.next (.comes (.notifyAll rs))).calls = k.calls ++ [p] ∧
      ∀ now, p.actions k.storage now = k.storage.deliveries rs
  | .goesOn place =>
    ∀ p ∈ k.calls[place]?, p.isNotification = true →
      (k.storage.advance k.time k.database p).1 = .over .done → xs = k.actions (.goesOn place)
  | .works =>
    ∀ b ∈ k.storage.batcher, (b.step k.storage.access k.time k.database).1.answers =
      b.answers ++ b.turn.map (fun x => (x.ticket, .ok ())) → xs = k.actions .works
  | .notifies rs =>
    (k.storage.notifyHeld k.database rs).1 = .done →
      (k.next (.notifies rs)).database.store =
        k.database.store.afterAll (k.storage.deliveries rs)
  | .commits =>
    (Work.commitHeld.on k.database).1 = .ok () → (k.next .commits).committed = k.database.store
  | _ => True

/-- **A step of a service.** These actions are done to the committed store, in order and each with
success. What is delivered, unless by others, was offered to the storage and has its lifetime
settled. -/
structure Step (k : Service) (given : List Response) (o : Occasion) (xs : List Action) : Prop where
  effect : k.committed.Performs xs (k.next o).committed
  done : k.Done given xs o
  honours : k.Honours xs o
  settled : (∀ a q, o ≠ .others a q) → ∀ x, .deliver x ∈ xs → ∃ r ∈ given, x = k.storage.settle r
  settings : (k.next o).storage.settings = k.storage.settings

/-- The actions that take effect in a run, step by step; `given` was offered before. -/
inductive History : Service → List Response → List Occasion → List (List Action) → Prop where
  | nil (k : Service) (given : List Response) : History k given [] []
  | cons {k : Service} {given : List Response} {o : Occasion} {xs : List Action}
      {os : List Occasion} {log : List (List Action)} (step : k.Step (given ++ o.offered) o xs)
      (later : History (k.next o) (given ++ o.offered) os log) :
      History k given (o :: os) (xs :: log)

/-! ## The responses on their way -/

/-- Whatever the storage is about to deliver was offered to it and has its lifetime settled. What was
done in a transaction that a caller holds is known. -/
structure Sound (k : Service) (given : List Response) : Prop where
  calls : ∀ p ∈ k.calls, ∀ x ∈ p.notified, ∃ r ∈ given, x = k.storage.settle r
  line : ∀ x ∈ k.storage.notified, ∃ r ∈ given, x = k.storage.settle r
  draft : ∀ before, k.database.held = some before →
    ∃ xs, before.Performs xs k.database.store ∧ ∀ x ∈ xs, x.Drafted k.storage given

/-- A service that begins: no call is under way, the writer has nothing in hand, and nobody holds a
transaction open. -/
structure Fresh (k : Service) : Prop where
  calls : k.calls = []
  line : k.storage.notified = []
  free : k.database.held = none

/-! ## The database of a step -/

/-- A step that has done these actions in a transaction of its own, or has left the store alone. -/
structure Moves (k : Service) (xs : List Action) (k' : Service) : Prop where
  does : k.database.Does xs k'.database
  free : k.database.held = none ∨ k'.database.store = k.database.store

variable {k k' : Service} {xs : List Action} {given new : List Response}

/-- A step that stands for no actions leaves the store alone. -/
theorem moves_of_none (h : k.database.Does [] k'.database) : k.Moves [] k' :=
  ⟨h, .inr (h.store.elim id fun hp => hp.afterAll)⟩

theorem Moves.committed (h : k.Moves xs k') :
    ∃ ys, (ys = [] ∨ ys = xs) ∧ k.committed.Performs ys k'.committed := by
  unfold Service.committed
  rcases h.free with hf | hs
  · rw [Database.committed_free hf, Database.committed_free (h.does.held.trans hf)]
    rcases h.does.store with hs | hp
    · exact ⟨[], .inl rfl, hs ▸ .nil _⟩
    · exact ⟨xs, .inr rfl, hp⟩
  · refine ⟨[], .inl rfl, ?_⟩
    rw [Database.committed, Database.committed, h.does.held, hs]
    exact .nil _

/-- A step that has done its actions in a transaction of its own. -/
theorem Moves.performs (h : k.Moves xs k') (free : k.database.held = none)
    (hp : k.database.store.Performs xs k'.database.store) :
    k.committed.Performs xs k'.committed := by
  unfold Service.committed
  rwa [Database.committed_free free, Database.committed_free (h.does.held.trans free)]

theorem Drafted.mono {s s' : Storage} {x : Action} (hs : s'.settings = s.settings)
    (h : x.Drafted s given) : x.Drafted s' (given ++ new) := by
  cases x with
  | insert w => trivial
  | deliver x =>
    obtain ⟨r, hr, hx⟩ := h
    exact ⟨r, List.mem_append_left _ hr, by rw [Storage.settle_eq hs]; exact hx⟩
  | _ => exact h.elim

/-- **What keeps a service sound**: a step that brings only what is offered to it. -/
theorem Sound.moves (hk : k.Sound given) (hm : k.Moves xs k')
    (settings : k'.storage.settings = k.storage.settings)
    (line : ∀ x ∈ k'.storage.notified, x ∈ k.storage.notified ∨ x ∈ new.map k.storage.settle)
    (calls : ∀ p ∈ k'.calls, p ∈ k.calls ∨ ∀ x ∈ p.notified, x ∈ new.map k.storage.settle) :
    k'.Sound (given ++ new) := by
  have he := Storage.settle_eq settings
  have old : ∀ {x}, (∃ r ∈ given, x = k.storage.settle r) →
      ∃ r ∈ given ++ new, x = k'.storage.settle r := fun ⟨r, hr, hx⟩ =>
    ⟨r, List.mem_append_left _ hr, by rw [he]; exact hx⟩
  have fresh : ∀ {x}, x ∈ new.map k.storage.settle →
      ∃ r ∈ given ++ new, x = k'.storage.settle r := fun hx => by
    obtain ⟨r, hr, rfl⟩ := List.mem_map.1 hx
    exact ⟨r, List.mem_append_right _ hr, by rw [he]⟩
  refine ⟨fun p hp x hx => ?_, fun x hx => (line x hx).elim (fun h => old (hk.line x h)) fresh,
    fun before hb => ?_⟩
  · exact (calls p hp).elim (fun h => old (hk.calls p h x hx)) fun h => fresh (h x hx)
  · rw [hm.does.held] at hb
    obtain ⟨ys, hp, hd⟩ := hk.draft before hb
    rcases hm.free with hf | hs
    · rw [hf] at hb
      cases hb
    · exact ⟨ys, hs ▸ hp, fun y hy => Drafted.mono settings (hd y hy)⟩

theorem Sound.stays (hk : k.Sound given) (hm : k.Moves xs k')
    (settings : k'.storage.settings = k.storage.settings)
    (line : ∀ x ∈ k'.storage.notified, x ∈ k.storage.notified)
    (calls : ∀ p ∈ k'.calls, p ∈ k.calls ∨ p.notified = []) : k'.Sound given := by
  have h : k'.Sound (given ++ []) := hk.moves hm settings (fun x hx => .inl (line x hx))
    fun p hp => (calls p hp).imp_right fun hn x hx => by rw [hn] at hx; cases hx
  rwa [List.append_nil] at h

/-! ## Calls -/

theorem next_comes (k : Service) (c : Storage.Call) :
    (k.next (.comes c)).storage = (k.storage.begin k.database c).2.1 ∧
      (k.next (.comes c)).database = (k.storage.begin k.database c).2.2 ∧
        ∀ p ∈ (k.next (.comes c)).calls, p ∈ k.calls ∨
          (k.storage.begin k.database c).1 = .going p := by
  simp only [next]
  split <;> rename_i he <;> rw [he]
  · refine ⟨rfl, rfl, fun q hq => ?_⟩
    rcases List.mem_append.1 hq with hq | hq
    · exact .inl hq
    · exact .inr (by rw [List.mem_singleton.1 hq])
  · exact ⟨rfl, rfl, fun q hq => .inl hq⟩

/-- However responses are offered by a call, they wait as the same deliveries. -/
theorem comes_honours (k : Service) (c : Storage.Call) (xs : List Action) :
    k.Honours xs (.comes c) := by
  cases c with
  | notify r =>
    refine ⟨fun hn => ⟨.writing .plain (.alone (.notify (k.storage.settle r))), ?_, fun _ => rfl⟩,
      fun b hs hcl hp => ?_⟩
    · simp only [next, Storage.begin, Storage.beginWrite_sync hn]
    · obtain ⟨b', hb, hq⟩ : ∃ b', b.submit (.notify (k.storage.settle r)) = (some b.issued, b') ∧
          b'.queue = b.queue ++ [⟨b.issued, .notify (k.storage.settle r)⟩] := by
        simp [Batcher.submit, hcl, hp]
      refine ⟨b', ?_, ⟨b.issued, .notify (k.storage.settle r)⟩, hq, fun _ => rfl⟩
      simp only [next, Storage.begin, Storage.beginWrite, Storage.enter, hs, hb, Option.map_some]
  | notifyAll rs =>
    refine ⟨.stating (.notify (rs.map k.storage.settle)), rfl, fun now => ?_⟩
    simp only [Storage.Phase.actions, Storage.Statement.actions, Storage.deliveries, List.map_map]
    rfl
  | _ => trivial

theorem Sound.comes (hk : k.Sound given) {c : Storage.Call} (hc : c.Proper) :
    ∃ xs, k.Step (given ++ c.offered) (.comes c) xs ∧
      (k.next (.comes c)).Sound (given ++ c.offered) := by
  have hb := k.storage.begin_brings k.database hc
  obtain ⟨hs, hd, hp⟩ := k.next_comes c
  have hm : k.Moves [] (k.next (.comes c)) :=
    moves_of_none (hd ▸ (k.storage.begin_told k.database c).does [])
  obtain ⟨ys, hys, hperf⟩ := hm.committed
  obtain rfl : ys = [] := hys.elim id id
  refine ⟨[], ⟨hperf, .inl rfl, k.comes_honours c [], fun _ x hx => (nomatch hx),
    hs ▸ hb.settings⟩, hk.moves hm (hs ▸ hb.settings) (hs ▸ hb.line) fun q hq => ?_⟩
  exact (hp q hq).imp_right fun hg => hb.phase q hg

theorem next_goesOn {k : Service} {place : Nat} {p : Storage.Phase}
    (h : k.calls[place]? = some p) :
    (k.next (.goesOn place)).storage = (k.storage.advance k.time k.database p).2.1 ∧
      (k.next (.goesOn place)).database = (k.storage.advance k.time k.database p).2.2 ∧
        ∀ q ∈ (k.next (.goesOn place)).calls, q ∈ k.calls ∨
          (k.storage.advance k.time k.database p).1 = .going q := by
  simp only [next, h]
  split <;> rename_i he <;> rw [he]
  · refine ⟨rfl, rfl, fun q hq => ?_⟩
    rcases List.mem_or_eq_of_mem_set hq with hq | rfl
    · exact .inl hq
    · exact .inr rfl
  · exact ⟨rfl, rfl, fun q hq => .inl (List.mem_of_mem_eraseIdx hq)⟩

/-- Nobody else holds a transaction open when a call goes on from a phase that needs one. -/
theorem ready_free {s : Storage} {free : Bool} {p : Storage.Phase} (h : s.ready free p = true)
    (now : Instant) : free = true ∨ p.actions s now = [] := by
  cases p with
  | writing purpose passage =>
    cases passage with
    | alone c => exact .inl h
    | inLine ticket => exact .inr rfl
  | draining stopping => exact .inr rfl
  | joining => exact .inr rfl
  | _ => exact .inl h

/-- The caller of a delivery that went well is told so only then. -/
theorem notification_done {s : Storage} {time : Nat} {d : Database} {p : Storage.Phase}
    (hp : p.isNotification = true) (h : (s.advance time d p).1 = .over .done) :
    d.store.Performs (p.actions s d.clock) (s.advance time d p).2.2.store := by
  unfold Storage.Phase.isNotification at hp
  split at hp
  · rename_i rs
    rw [Storage.advance, Storage.state] at h ⊢
    rcases ht : (Work.transact (Work.notify rs)).on d with ⟨e | u, d'⟩
    · rw [ht] at h
      cases e <;> cases h
    · exact Work.transact_performs (fun h _ => Work.notify_performs h) ht
  · rename_i c
    rw [Storage.advance, Storage.write] at h ⊢
    rcases ht : (Work.transact (Work.executeAll s.access [c])).on d with ⟨(e | m) | u, d'⟩ <;>
      rw [ht] at h
    · cases h
    · cases h
    · refine Work.transact_performs (fun h _ => ?_) ht
      exact Store.performs_of_actAll (Work.executeAll_serves s.access [c] h)
  · cases hp

theorem Sound.goesOn (hk : k.Sound given) {place : Nat} (h : k.Allows (.goesOn place)) :
    ∃ xs, k.Step given (.goesOn place) xs ∧ (k.next (.goesOn place)).Sound given := by
  cases hp : k.calls[place]? with
  | none =>
    have hn : k.next (.goesOn place) = k := by simp only [next, hp]
    refine ⟨[], ⟨?_, .inl rfl, fun p h => ?_, fun _ x hx => (nomatch hx), by rw [hn]⟩,
      by rw [hn]; exact hk⟩
    · rw [hn]
      exact .nil _
    · rw [hp] at h
      cases h
  | some p =>
    have hb := k.storage.advance_brings k.time k.database p
    obtain ⟨hs, hd, hq⟩ := next_goesOn hp
    have hdoes := Storage.advance_does (s := k.storage) (d := k.database) k.time p
    rw [← hd] at hdoes
    have hact : k.actions (.goesOn place) = p.actions k.storage k.database.clock := by
      simp only [actions, hp, Option.map_some, Option.getD_some]
    have hm : k.Moves (p.actions k.storage k.database.clock) (k.next (.goesOn place)) := by
      rcases ready_free (h p hp) k.database.clock with hf | hnone
      · exact ⟨hdoes, .inl (Option.isNone_iff_eq_none.1 hf)⟩
      · rw [hnone] at hdoes ⊢
        exact moves_of_none hdoes
    have hsound : (k.next (.goesOn place)).Sound given :=
      hk.stays hm (hs ▸ hb.settings)
        (fun x hx => (hb.line x (hs ▸ hx)).resolve_right List.not_mem_nil)
        fun q hmem => (hq q hmem).imp_right fun hg =>
          List.eq_nil_iff_forall_not_mem.2 fun x hx => List.not_mem_nil (hb.phase q hg x hx)
    have settled : ∀ x, .deliver x ∈ p.actions k.storage k.database.clock →
        ∃ r ∈ given, x = k.storage.settle r := fun x hx =>
      hk.calls p (List.mem_of_getElem? hp) x (Storage.Phase.deliver_notified hx)
    by_cases hdone : p.isNotification = true ∧
        (k.storage.advance k.time k.database p).1 = .over .done
    · have hperf := notification_done hdone.1 hdone.2
      rw [← hd] at hperf
      have hfree : k.database.held = none := by
        have hr := h p hp
        have hn := hdone.1
        unfold Storage.Phase.isNotification at hn
        split at hn
        · exact Option.isNone_iff_eq_none.1 hr
        · exact Option.isNone_iff_eq_none.1 hr
        · cases hn
      exact ⟨_, ⟨hm.performs hfree hperf, .inr hact.symm, fun _ _ _ _ => hact.symm,
        fun _ x hx => settled x hx, hs ▸ hb.settings⟩, hsound⟩
    · obtain ⟨ys, hys, hperf⟩ := hm.committed
      refine ⟨ys, ⟨hperf, hys.imp_right fun h => h.trans hact.symm, fun q hmem hn ho => ?_,
        fun _ x hx => ?_, hs ▸ hb.settings⟩, hsound⟩
      · rw [hp] at hmem
        cases hmem
        exact absurd ⟨hn, ho⟩ hdone
      · rcases hys with rfl | rfl
        · cases hx
        · exact settled x hx

/-! ## The worker and the loops -/

/-- A step that offers nothing, and for which callers are told nothing. -/
theorem Sound.stepped (hk : k.Sound given) {o : Occasion} (hm : k.Moves xs (k.next o))
    (hn : k.storage.Narrows (k.next o).storage) (hc : (k.next o).calls = k.calls)
    (done : ∀ ys, ys = [] ∨ ys = xs → k.Done given ys o) (honours : ∀ ys, k.Honours ys o)
    (settled : ∀ x, .deliver x ∈ xs → (∃ a q, o = .others a q) ∨ x ∈ k.storage.notified) :
    ∃ ys, k.Step given o ys ∧ (k.next o).Sound given := by
  have hsound := hk.stays hm hn.settings hn.line fun q hq => .inl (hc ▸ hq)
  obtain ⟨ys, hys, hperf⟩ := hm.committed
  refine ⟨ys, ⟨hperf, done ys hys, honours ys, fun ho x hx => ?_, hn.settings⟩, hsound⟩
  rcases hys with rfl | rfl
  · cases hx
  · rcases settled x hx with ⟨a, q, rfl⟩ | hx
    · exact absurd rfl (ho a q)
    · exact hk.line x hx

/-- The worker settles what it executes with success only when that took effect. -/
theorem turn_granted {b : Batcher} {a : Access} {time : Nat} {d : Database}
    (h : (b.step a time d).1.answers = b.answers ++ b.turn.map fun x => (x.ticket, .ok ())) :
    d.store.Performs (b.underway.map (Command.action a.removeFinished))
      (b.step a time d).2.store := by
  have hdoes := b.step_does a time d
  -- where nothing is executed, nothing has happened
  have idle : b.underway = [] → d.store.Performs (b.underway.map (Command.action a.removeFinished))
      (b.step a time d).2.store := by
    intro hu
    rcases hdoes.store with hs | hp
    · rw [hu, hs]
      exact .nil _
    · exact hp
  have hx : ∀ cs {d'}, (Work.transact (Work.executeAll a cs)).on d = (.ok (), d') →
      d.store.Performs (cs.map (Command.action a.removeFinished)) d'.store := fun cs _ ht =>
    Work.transact_performs (fun h _ => Store.performs_of_actAll (Work.executeAll_serves a cs h)) ht
  cases hp : b.phase with
  | flushing batch =>
    have none : batch = [] → b.underway = [] := fun hb => by rw [Batcher.underway, hp, hb]; rfl
    simp only [Batcher.turn, Batcher.step, hp] at h
    rcases ht : (Work.transact (Work.executeAll a (batch.map (·.command)))).on d with
      ⟨(e | m) | u, d'⟩ <;> rw [ht] at h
    · exact idle (none (by simpa using h))
    · cases batch with
      | nil => exact idle (none rfl)
      | cons x batch => simp [Batcher.crash, Batcher.acknowledge] at h
    · simp only [Batcher.step, Batcher.underway, hp, ht]
      exact hx _ ht
  | retrying rest =>
    cases rest with
    | nil => exact idle (by rw [Batcher.underway, hp])
    | cons x rest =>
      simp only [Batcher.turn, Batcher.step, hp] at h
      rcases ht : (Work.transact (Work.executeAll a [x.command])).on d with ⟨(e | m) | u, d'⟩ <;>
        rw [ht] at h
      · simp [Batcher.acknowledge] at h
      · simp [Batcher.crash, Batcher.acknowledge] at h
      · simp only [Batcher.step, Batcher.underway, hp, ht]
        exact hx _ ht
  | _ => exact idle (by rw [Batcher.underway, hp])

theorem turn_free {b : Batcher} {time : Nat} {free : Bool} (h : b.ready time free = true) :
    free = true ∨ b.underway = [] := by
  unfold Batcher.ready at h
  unfold Batcher.underway
  split at h <;> rename_i hp <;> rw [hp]
  · exact .inr rfl
  · exact .inr rfl
  · exact .inl h
  · exact .inl h
  · cases h
  · cases h

theorem Sound.works (hk : k.Sound given) (h : k.Allows .works) :
    ∃ xs, k.Step given .works xs ∧ (k.next .works).Sound given := by
  have hdoes := k.storage.stepWorker_does k.time k.database
  have hn := k.storage.stepWorker_narrows k.time k.database
  cases hb : k.storage.batcher with
  | none =>
    rw [Allows, hb] at h
    cases h
  | some b =>
    rw [Allows, hb] at h
    have hact : k.storage.writerActions =
        b.underway.map (Command.action k.storage.access.removeFinished) := by
      rw [Storage.writerActions, hb]
      rfl
    have hfree : k.database.held = none ∨ k.storage.writerActions = [] := by
      refine (turn_free h).imp Option.isNone_iff_eq_none.1 fun hu => ?_
      rw [hact, hu]
      rfl
    have hm : k.Moves k.storage.writerActions (k.next .works) := by
      rcases hfree with hf | hu
      · exact ⟨hdoes, .inl hf⟩
      · rw [hu] at hdoes ⊢
        exact moves_of_none hdoes
    have hsound := hk.stays hm hn.settings hn.line fun q hq => .inl hq
    have settled : ∀ x, .deliver x ∈ k.storage.writerActions → ∃ r ∈ given,
        x = k.storage.settle r := fun x hx => hk.line x (Storage.writer_deliver_notified hx)
    have hstep : (Cluster.stepWorker k.time k.storage k.database).2 =
        (b.step k.storage.access k.time k.database).2 := by rw [Cluster.stepWorker, hb]
    by_cases hg : (b.step k.storage.access k.time k.database).1.answers =
        b.answers ++ b.turn.map fun x => (x.ticket, .ok ())
    · have hperf := turn_granted hg
      rw [← hact, ← hstep] at hperf
      have hcom : k.committed.Performs k.storage.writerActions (k.next .works).committed := by
        rcases hfree with hf | hu
        · exact hm.performs hf hperf
        · obtain ⟨ys, hys, hp⟩ := hm.committed
          rw [hu] at hys ⊢
          rcases hys with rfl | rfl <;> exact hp
      exact ⟨_, ⟨hcom, .inr rfl, fun _ _ _ => rfl, fun _ => settled, hn.settings⟩, hsound⟩
    · obtain ⟨ys, hys, hperf⟩ := hm.committed
      refine ⟨ys, ⟨hperf, hys, fun b' hb' ha => ?_, fun _ x hx => ?_, hn.settings⟩, hsound⟩
      · rw [hb] at hb'
        cases hb'
        exact absurd ha hg
      · rcases hys with rfl | rfl
        · cases hx
        · exact settled x hx

theorem Sound.promotes (hk : k.Sound given) (h : k.Allows .promotes) :
    ∃ xs, k.Step given .promotes xs ∧ (k.next .promotes).Sound given := by
  have hdoes := Storage.stepUpdater_does (s := k.storage) (d := k.database) k.time
  have hm : k.database.held = none ∨ (k.next .promotes).database.store = k.database.store →
      k.Moves [.promote k.database.clock k.storage.ceiling] (k.next .promotes) := .mk hdoes
  refine hk.stepped (hm ?_)
    (k.storage.stepUpdater_narrows k.time k.database) rfl (fun _ => id) (fun _ => trivial)
    fun x hx => nomatch List.mem_singleton.1 hx
  show k.database.held = none ∨ (k.storage.stepUpdater k.time k.database).2.store = _
  rw [Allows, Storage.updaterReady] at h
  rw [Storage.stepUpdater]
  split at h
  · exact .inl (Option.isNone_iff_eq_none.1 h)
  · exact .inr rfl
  · split <;> exact .inr rfl
  · cases h

theorem Sound.reaps (hk : k.Sound given) (h : k.Allows .reaps) :
    ∃ xs, k.Step given .reaps xs ∧ (k.next .reaps).Sound given := by
  have hdoes := Storage.stepReaper_does (s := k.storage) (d := k.database) k.time
  have hm : k.database.held = none ∨ (k.next .reaps).database.store = k.database.store →
      k.Moves [.sweep k.database.clock k.storage.sweepBatch] (k.next .reaps) := .mk hdoes
  refine hk.stepped (hm ?_)
    (k.storage.stepReaper_narrows k.time k.database) rfl (fun _ => id) (fun _ => trivial)
    fun x hx => nomatch List.mem_singleton.1 hx
  show k.database.held = none ∨ (k.storage.stepReaper k.time k.database).2.store = _
  rw [Allows, Storage.reaperReady] at h
  rw [Storage.stepReaper]
  split at h
  · split <;> exact .inr rfl
  · exact .inl (Option.isNone_iff_eq_none.1 h)
  · cases h

/-! ## Transactions that a caller holds -/

/-- What is done in a held transaction is a list of drafted actions so far. -/
def Draft (s : Storage) (given : List Response) (before t : Store) : Prop :=
  ∃ xs, before.Performs xs t ∧ ∀ x ∈ xs, x.Drafted s given

theorem draft_insert {s : Storage} {before t : Store} (w : Workflow)
    (h : Draft s given before t) : Draft s given before (t.act (.insert w)).2 := by
  obtain ⟨xs, hp, hd⟩ := h
  rcases hi : t.act (.insert w) with ⟨e | o, t'⟩
  · -- an instance that cannot be stored leaves everything as it is
    have hsame : t' = t := by
      rcases Store.insert_one t w with hs | ⟨id, hid, hf, hs⟩
      · rw [Store.act, Store.plainly, hs] at hi
        exact (congrArg Prod.snd hi).symm
      · have : t.act (.insert w) = (.ok .done, t.append id w) := by
          simp only [Store.act, Store.plainly, Store.insert, hid, hf]
          rfl
        rw [this] at hi
        cases hi
    rw [hsame]
    exact ⟨xs, hp, hd⟩
  · refine ⟨xs ++ [.insert w], hp.append (Store.performs_one hi), fun x hx => ?_⟩
    rcases List.mem_append.1 hx with hx | hx
    · exact hd x hx
    · rw [List.mem_singleton.1 hx]
      trivial

theorem draft_deliver {s : Storage} {before t : Store} {r : Response} (hr : r ∈ given)
    (h : Draft s given before t) : Draft s given before (t.act (.deliver (s.settle r))).2 := by
  obtain ⟨xs, hp, hd⟩ := h
  refine ⟨xs ++ [.deliver (s.settle r)], hp.append (Store.performs_one rfl), fun x hx => ?_⟩
  rcases List.mem_append.1 hx with hx | hx
  · exact hd x hx
  · rw [List.mem_singleton.1 hx]
    exact ⟨r, hr, rfl⟩

theorem Sound.mono (hk : k.Sound given) (new : List Response) : k.Sound (given ++ new) := by
  have old : ∀ {x}, (∃ r ∈ given, x = k.storage.settle r) →
      ∃ r ∈ given ++ new, x = k.storage.settle r := fun ⟨r, hr, hx⟩ =>
    ⟨r, List.mem_append_left _ hr, hx⟩
  refine ⟨fun p hp x hx => old (hk.calls p hp x hx), fun x hx => old (hk.line x hx), fun b hb => ?_⟩
  obtain ⟨xs, hp, hd⟩ := hk.draft b hb
  exact ⟨xs, hp, fun x hx => Drafted.mono rfl (hd x hx)⟩

/-- A step of a held transaction, which leaves the committed store alone. -/
theorem Sound.drafted (hk : k.Sound given) {o : Occasion} (h : k.database.held.isSome = true)
    (hh : (k.next o).database.held = k.database.held)
    (hb : ∀ before, k.database.held = some before →
      Draft k.storage given before k.database.store →
      Draft k.storage given before (k.next o).database.store)
    (hn : k.storage.Narrows (k.next o).storage) (hc : (k.next o).calls = k.calls)
    (done : k.Done given [] o) (honours : k.Honours [] o) :
    ∃ xs, k.Step given o xs ∧ (k.next o).Sound given := by
  have hcom : (k.next o).committed = k.committed := by
    obtain ⟨b, hb⟩ := Option.isSome_iff_exists.1 h
    rw [committed, committed, Database.committed_held hb, Database.committed_held (hh.trans hb)]
  have he := Storage.settle_eq hn.settings
  refine ⟨[], ⟨hcom ▸ .nil _, done, honours, fun _ x hx => (nomatch hx), hn.settings⟩, ?_, ?_, ?_⟩
  · rw [hc, he]
    exact hk.calls
  · rw [he]
    exact fun x hx => hk.line x (hn.line x hx)
  · intro before hbefore
    rw [hh] at hbefore
    obtain ⟨xs, hp, hd⟩ := hb before hbefore (hk.draft before hbefore)
    refine ⟨xs, hp, fun x hx => ?_⟩
    have h : x.Drafted (k.next o).storage (given ++ []) := Drafted.mono hn.settings (hd x hx)
    rwa [List.append_nil] at h

theorem insertHeld_held (s : Storage) (d : Database) (ws : List Workflow) :
    (s.insertHeld d ws).2.2.held = d.held := by
  have hd := (Work.discreet_call .insert (fun s : Store => s.insert ws) d).held
  have ht : ∀ es (d : Database), (s.report d es).held = d.held := fun es d => by
    obtain ⟨j, hj⟩ := s.report_told d es
    rw [hj]
  unfold Storage.insertHeld
  split
  · rfl
  · split <;> rename_i he
    · rw [Work.insert] at he
      rw [he] at hd
      exact (ht _ _).trans hd
    · rw [Work.insert] at he
      rw [he] at hd
      exact hd

theorem Sound.inserts (hk : k.Sound given) {ws : List Workflow} (h : k.Allows (.inserts ws)) :
    ∃ xs, k.Step given (.inserts ws) xs ∧ (k.next (.inserts ws)).Sound given := by
  refine hk.drafted h (insertHeld_held k.storage k.database ws) (fun before hb hd => ?_)
    (k.storage.insertHeld_narrows k.database ws) rfl (.inl rfl) trivial
  have := Storage.insertHeld_both (s := k.storage) (d := k.database)
    (P := Draft k.storage given before) ws (fun w _ t => draft_insert w)
    ⟨hd, fun b' hb' => by rw [hb] at hb'; cases hb'; exact ⟨[], .nil _, fun _ h => nomatch h⟩⟩
  exact this.1

theorem Sound.notifies (hk : k.Sound given) {rs : List Response} (h : k.Allows (.notifies rs)) :
    ∃ xs, k.Step (given ++ rs) (.notifies rs) xs ∧
      (k.next (.notifies rs)).Sound (given ++ rs) := by
  have hheld : (k.next (.notifies rs)).database.held = k.database.held :=
    (Work.discreet_callTotal .notify (fun s : Store => ((), s.notify (rs.map k.storage.settle)))
      k.database).held
  refine (hk.mono rs).drafted h hheld (fun before hb hd => ?_) (Storage.narrows_of_eq rfl rfl) rfl
    (.inl rfl) fun hdone => ?_
  · have := Storage.notifyHeld_both (s := k.storage) (d := k.database)
      (P := Draft k.storage (given ++ rs) before) rs (fun x hx t ht => ?_)
      ⟨hd, fun b' hb' => by rw [hb] at hb'; cases hb'; exact ⟨[], .nil _, fun _ h => nomatch h⟩⟩
    · exact this.1
    · obtain ⟨r, hr, rfl⟩ := List.mem_map.1 hx
      exact draft_deliver (List.mem_append_right _ hr) ht
  · rcases hw : (Work.notify (rs.map k.storage.settle)).on k.database with ⟨e | u, d'⟩
    · rw [Storage.notifyHeld, hw] at hdone
      cases e <;> cases hdone
    · have hp := (Work.notify_performs hw).afterAll
      rw [List.map_map] at hp
      show (k.storage.notifyHeld k.database rs).2.store = _
      rw [Storage.notifyHeld, hw]
      exact hp

/-- A step after which nobody holds a transaction open. -/
theorem Sound.settled (hk : k.Sound given) {o : Occasion} {ys : List Action}
    (hf : (k.next o).database.held = none) (hs : (k.next o).storage = k.storage)
    (hc : (k.next o).calls = k.calls) (hperf : k.committed.Performs ys (k.next o).committed)
    (done : k.Done given ys o) (honours : k.Honours ys o)
    (settled : ∀ x, .deliver x ∈ ys → ∃ r ∈ given, x = k.storage.settle r) :
    ∃ xs, k.Step given o xs ∧ (k.next o).Sound given :=
  ⟨ys, ⟨hperf, done, honours, fun _ => settled, by rw [hs]⟩, by rw [hc, hs]; exact hk.calls,
    by rw [hs]; exact hk.line, fun b hb => by rw [hf] at hb; cases hb⟩

theorem Sound.commits (hk : k.Sound given) :
    ∃ xs, k.Step given .commits xs ∧ (k.next .commits).Sound given := by
  have hf : (k.next .commits).database.held = none :=
    (Database.ended_free Work.discreet_commit k.database).1
  have hc : (k.next .commits).committed = (k.next .commits).database.store :=
    Database.committed_free hf
  have hon : Work.commitHeld.on k.database =
      (Work.commit k.committed).on { k.database with held := none } := by
    rw [Work.commitHeld, Work.on_bind, Database.release_on]
    rfl
  have hstore : (k.next .commits).database.store = (Work.commitHeld.on k.database).2.store := rfl
  -- what was done in the transaction, whether or not it takes effect
  obtain ⟨ys, hp, hd⟩ : Draft k.storage given k.committed k.database.store := by
    cases hb : k.database.held with
    | none =>
      rw [committed, Database.committed_free hb]
      exact ⟨[], .nil _, fun _ h => by cases h⟩
    | some b =>
      rw [committed, Database.committed_held hb]
      exact hk.draft b hb
  have settled : ∀ x, .deliver x ∈ ys → ∃ r ∈ given, x = k.storage.settle r :=
    fun x hx => hd _ hx
  have took : (k.next .commits).database.store = k.database.store →
      ∃ xs, k.Step given .commits xs ∧ (k.next .commits).Sound given := fun h =>
    hk.settled hf rfl rfl (by rw [hc, h]; exact hp) hd (fun _ => hc.trans h) settled
  rcases Work.commit_cases k.committed { k.database with held := none } with
    ⟨d', h, hs⟩ | ⟨e, d', h, hs | ⟨hs, -⟩⟩ <;> rw [hon, h] at hstore
  · exact took (hstore.trans hs)
  · refine hk.settled hf rfl rfl (?_ : Store.Performs _ [] _) (fun _ h => by cases h) (fun hok => ?_)
      fun x hx => by cases hx
    · rw [hc, hstore, hs]
      exact .nil _
    · rw [hon, h] at hok
      cases hok
  · exact took (hstore.trans hs)

/-- The transaction that is held ends, and the committed store is as it was. -/
theorem Sound.returns (hk : k.Sound given) {o : Occasion} {f : Store → Work Unit}
    (hd : ∀ s, (f s).Discreet) (hr : ∀ s d, ((f s).on d).2.store = s)
    (hdb : (k.next o).database = ((Work.release >>= f).on k.database).2)
    (hs : (k.next o).storage = k.storage) (hc : (k.next o).calls = k.calls)
    (done : k.Done given [] o) (honours : k.Honours [] o) :
    ∃ xs, k.Step given o xs ∧ (k.next o).Sound given := by
  have hf : (k.next o).database.held = none := hdb ▸ (Database.ended_free hd k.database).1
  refine hk.settled hf hs hc (?_ : Store.Performs _ [] _) done honours fun x hx => nomatch hx
  rw [committed, committed, Database.committed_free hf, hdb, Work.on_bind, Database.release_on]
  show Store.Performs _ [] ((f k.database.committed).on _).2.store
  rw [hr]
  exact .nil _

theorem Sound.holds (hk : k.Sound given) (h : k.Allows .holds) :
    ∃ xs, k.Step given .holds xs ∧ (k.next .holds).Sound given := by
  obtain ⟨d₁, ha, hs, ⟨e, h'⟩ | h'⟩ := k.database.hold_cases
  · have hdb : (k.next .holds).database = d₁ := congrArg Prod.snd h'
    have hf : (k.next .holds).database.held = none := hdb ▸ ha.held.trans h
    refine hk.settled hf rfl rfl (?_ : Store.Performs _ [] _) (.inl rfl) trivial fun x hx => nomatch hx
    rw [committed, committed, Database.committed_free hf, Database.committed_free h, hdb, hs]
    exact .nil _
  · have hdb : (k.next .holds).database = { d₁ with held := some k.database.store } :=
      congrArg Prod.snd h'
    refine ⟨[], ⟨?_, .inl rfl, trivial, fun _ x hx => (nomatch hx), rfl⟩, hk.calls, hk.line,
      fun b hb => ?_⟩
    · rw [committed, committed, Database.committed_free h,
        Database.committed_held (b := k.database.store) (by rw [hdb])]
      exact .nil _
    · rw [hdb] at hb ⊢
      cases hb
      exact ⟨[], hs ▸ .nil _, fun _ h => nomatch h⟩

/-! ## All steps -/

/-- **A step of a service** does to the committed store what it stands for. -/
theorem Sound.step (hk : k.Sound given) {o : Occasion} (h : k.Allows o) :
    ∃ xs, k.Step (given ++ o.offered) o xs ∧ (k.next o).Sound (given ++ o.offered) := by
  cases o with
  | comes c => exact hk.comes h
  | notifies rs => exact hk.notifies h
  | goesOn place => simpa [Occasion.offered] using hk.goesOn h
  | works => simpa [Occasion.offered] using hk.works h
  | promotes => simpa [Occasion.offered] using hk.promotes h
  | reaps => simpa [Occasion.offered] using hk.reaps h
  | inserts ws => simpa [Occasion.offered] using hk.inserts h
  | holds => simpa [Occasion.offered] using hk.holds h
  | commits => simpa [Occasion.offered] using hk.commits
  | rollsBack =>
    simpa [Occasion.offered] using hk.returns (o := .rollsBack) Work.discreet_rollback
      (fun s d => Work.rollback_store rfl) rfl rfl rfl (.inl rfl) trivial
  | forgets =>
    simpa [Occasion.offered] using hk.returns (o := .forgets) Work.discreet_restore
      (fun s d => rfl) rfl rfl rfl (.inl rfl) trivial
  | others a q =>
    have hs := hk.stepped (o := .others a q) ⟨Work.perform_does a q, .inl h⟩
      (Storage.narrows_of_eq rfl rfl) rfl (fun _ => id) (fun _ => trivial)
      fun x _ => .inl ⟨a, q, rfl⟩
    simpa [Occasion.offered] using hs
  | leaves place =>
    refine ⟨[], ⟨.nil _, .inl rfl, trivial, fun _ x hx => (nomatch hx), rfl⟩, ?_⟩
    have := hk.mono []
    exact ⟨fun p hp => this.calls p (List.mem_of_mem_eraseIdx hp), this.line, this.draft⟩
  | configures remove =>
    have := hk.mono []
    exact ⟨[], ⟨.nil _, .inl rfl, trivial, fun _ x hx => (nomatch hx), rfl⟩, this.calls, this.line,
      this.draft⟩
  | passes time =>
    have := hk.mono []
    exact ⟨[], ⟨.nil _, .inl rfl, trivial, fun _ x hx => (nomatch hx), rfl⟩, this.calls, this.line,
      this.draft⟩
  | weather faults clock =>
    have := hk.mono []
    exact ⟨[], ⟨.nil _, .inl rfl, trivial, fun _ x hx => (nomatch hx), rfl⟩, this.calls, this.line,
      this.draft⟩

/-- **A run of a service** has a history. -/
theorem run_history (os : List Occasion) :
    ∀ {k : Service} {given : List Response}, k.Sound given → k.Legal os →
      ∃ log, k.History given os log := by
  induction os with
  | nil => exact fun _ _ => ⟨[], .nil _ _⟩
  | cons o os ih =>
    intro k given hk h
    obtain ⟨xs, hstep, hsound⟩ := hk.step h.1
    obtain ⟨log, hlog⟩ := ih hsound h.2
    exact ⟨xs :: log, .cons hstep hlog⟩

/-- The actions of a history lead from the first committed store to the last. -/
theorem History.performs {os : List Occasion} {log : List (List Action)}
    (h : k.History given os log) : k.committed.Performs log.flatten (k.run os).committed := by
  induction h with
  | nil k given => exact .nil _
  | cons step _ ih => exact step.effect.append ih

end Service

end Resumption
