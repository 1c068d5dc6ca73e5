import Resumption.Cluster.Basic
import Resumption.Proofs.Database.Atomicity

/-!
# Writing through a storage

Callers bring commands to the writer of a storage, and each waits for the answer to its own. A
`Writing` is the storage with its database and with all the submissions so far, in the order in which
they came. Its moves are those of the callers, of the worker of a batching writer, and of whoever
closes the writer, sets whether finished instances are removed, or plans faults; they come in any
order.

* `Writing.record` says for each command what its submitter was told, or is about to be told.
* `Store.Takes` is the yardstick for the store: commands executed one after the other, each with
  success. `Store.obeyAll` is the one for the answers: each command takes effect or none.
* A storage without a batching writer, asked one command after the other (`Writing.inTurn`), answers
  as `Store.obeyAll` does when nothing fails, and whatever fails its store is the one that the
  commands it granted make of the store before (`Writing.Plain.run`).
-/

namespace Resumption

/-! ## Commands on a store -/

namespace Store

/-- Executes commands in order, up to the first that fails. -/
def executeAll (s : Store) (remove : Bool) : List Command → Except StoreError Unit × Store
  | [] => (.ok (), s)
  | c :: cs =>
    match s.execute remove c with
    | (.ok (), s) => s.executeAll remove cs
    | (.error e, s) => (.error e, s)

/-- Executing commands one after the other, each under one of some settings for removal, goes well
and leads from one store to another. -/
inductive Takes (removal : Bool → Prop) : Store → List Command → Store → Prop where
  | nil (s : Store) : Takes removal s [] s
  | cons {s s₁ s₂ : Store} {remove : Bool} {c : Command} {cs : List Command} (hr : removal remove)
      (hc : s.execute remove c = (.ok (), s₁)) (hs : Takes removal s₁ cs s₂) :
      Takes removal s (c :: cs) s₂

/-- Executes one command, with all its effects or none. -/
def obey (s : Store) (remove : Bool) (c : Command) : Except StoreError Unit × Store :=
  match s.execute remove c with
  | (.ok (), s') => (.ok (), s')
  | (.error e, _) => (.error e, s)

/-- Executes commands in order, each with all its effects or none. -/
def obeyAll (s : Store) (remove : Bool) : List Command → List (Except StoreError Unit) × Store
  | [] => ([], s)
  | c :: cs =>
    let (r, s) := s.obey remove c
    let (rs, s) := s.obeyAll remove cs
    (r :: rs, s)

variable {removal : Bool → Prop} {remove : Bool} {s s₁ s₂ : Store} {cs ds : List Command}

theorem Takes.append (h : Takes removal s cs s₁) (h' : Takes removal s₁ ds s₂) :
    Takes removal s (cs ++ ds) s₂ := by
  induction h with
  | nil s => exact h'
  | cons hr hc _ ih => exact .cons hr hc (ih h')

theorem takes_of_executeAll (hr : removal remove) (h : s.executeAll remove cs = (.ok (), s₁)) :
    Takes removal s cs s₁ := by
  induction cs generalizing s with
  | nil => cases h; exact .nil _
  | cons c cs ih =>
    rw [executeAll] at h
    split at h
    · rename_i s' hc
      exact .cons hr hc (ih h)
    · cases h

theorem obeyAll_append (cs ds : List Command) (s : Store) :
    s.obeyAll remove (cs ++ ds) =
      ((s.obeyAll remove cs).1 ++ ((s.obeyAll remove cs).2.obeyAll remove ds).1,
        ((s.obeyAll remove cs).2.obeyAll remove ds).2) := by
  induction cs generalizing s with
  | nil => rfl
  | cons c cs ih => simp only [List.cons_append, obeyAll, ih]

theorem obeyAll_of_executeAll (h : s.executeAll remove cs = (.ok (), s₁)) :
    s.obeyAll remove cs = (cs.map fun _ => .ok (), s₁) := by
  induction cs generalizing s with
  | nil => cases h; rfl
  | cons c cs ih =>
    rw [executeAll] at h
    split at h
    · rename_i s' hc
      simp only [obeyAll, obey, hc, ih h, List.map_cons]
    · cases h

theorem obeyAll_of_error {c : Command} {e : StoreError} (h : (s.execute remove c).1 = .error e) :
    s.obeyAll remove [c] = ([.error e], s) := by
  rcases hc : s.execute remove c with ⟨r, s'⟩
  rw [hc] at h
  cases h
  simp only [obeyAll, obey, hc]

end Store

namespace Work

theorem executeAll_ok {a : Access} {cs : List Command} {d d' : Database}
    (h : (executeAll a cs).on d = (.ok (), d')) :
    d.store.executeAll a.removeFinished cs = (.ok (), d'.store) := by
  induction cs generalizing d with
  | nil => cases h; rfl
  | cons c cs ih =>
    obtain ⟨u, d₁, h₁, h⟩ := bind_ok h
    rw [Store.executeAll, execute_ok h₁]
    exact ih h

/-- Without faults a command answers as the store does. -/
theorem executeOne_answer {a : Access} {c : Command} {d : Database} (h : d.faults = []) :
    ((executeAll a [c]).on d).1 = answer (d.store.execute a.removeFinished c).1 := by
  have hc : ((execute a c).on d).1 = answer (d.store.execute a.removeFinished c).1 := by
    cases c with
    | suspend c payload =>
      exact congrArg Prod.fst (call_quiet h .suspend fun s => s.suspend c payload)
    | notify r => exact congrArg Prod.fst (call_quiet h .notify fun s => (.ok (), s.notify [r]))
    | finish id =>
      exact congrArg Prod.fst (call_quiet h .finish fun s => s.finish a.removeFinished id)
    | fail id cause => exact congrArg Prod.fst (call_quiet h .fail fun s => s.fail id cause)
  rw [executeAll, on_bind]
  rcases he : (execute a c).on d with ⟨r, d'⟩
  rw [he] at hc
  cases r with
  | error e => exact hc
  | ok u => exact hc

/-- Commands whose transaction goes well did to the store what they say. -/
theorem transactAll_ok {a : Access} {cs : List Command} {d d' : Database}
    (h : (transact (executeAll a cs)).on d = (.ok (), d')) :
    d.store.executeAll a.removeFinished cs = (.ok (), d'.store) := by
  obtain ⟨d₀, d₁, -, hs, hx, hs'⟩ := transact_ok h
  have := executeAll_ok hx
  rwa [hs, ← hs'] at this

/-- Commands whose transaction fails did nothing to the store. -/
theorem transactAll_error {a : Access} {cs : List Command} {d d' : Database} {e : Failure}
    (ht : d.Timely) (h : (transact (executeAll a cs)).on d = (.error e, d')) :
    d'.store = d.store := transact_error (discreet_executeAll a cs) ht h

theorem transactAll_aside (a : Access) (cs : List Command) (d : Database) :
    d.Aside ((transact (executeAll a cs)).on d).2 :=
  discreet_transact (discreet_executeAll a cs) d

/-- Nobody crashes over commands unless that is planned. -/
theorem transactAll_reports {a : Access} {cs : List Command} {d d' : Database} {m : String}
    (hg : d.Gentle) : (transact (executeAll a cs)).on d ≠ (.error (.crashed m), d') := by
  intro h
  obtain ⟨cause, hc⟩ :=
    reports_transact (discreet_executeAll a cs) (reports_executeAll a cs) d hg _ _ h
  cases hc

/-- Without faults the transaction of one command answers as the store does. -/
theorem transactOne_answer {a : Access} {c : Command} {d : Database} (h : d.faults = []) :
    ((transact (executeAll a [c])).on d).1 =
      answer (d.store.execute a.removeFinished c).1 := by
  obtain ⟨d₀, h₀, hs, ht⟩ := transact_quiet (discreet_executeAll a [c]) h
  rw [ht, executeOne_answer (h₀.quiet h), hs]

theorem answer_refused {α : Type} {r : Except StoreError α} {e : StoreError}
    (h : answer r = .error (.refused e)) : r = .error e := by
  cases r with
  | error e' => cases h; rfl
  | ok a => cases h

end Work

/-! ## Moves -/

namespace Writing

/-- A command that was brought, and how far its submission has got. -/
structure Entry where
  command : Command
  progress : Storage.Progress

/-- What can happen next. -/
inductive Move where
  /-- A command is brought. -/
  | bring (c : Command)
  /-- The submission at a place goes on if it can. -/
  | attend (place : Nat)
  /-- The worker of the writer goes on if it can. -/
  | work (time : Nat)
  /-- The writer is closed. -/
  | close
  /-- Finished instances are removed from now on, or are not. -/
  | configure (remove : Bool)
  /-- The clock is set, and other faults are planned. -/
  | weather (faults : List Fault) (clock : Instant)

/-- No commit is planned to fail after it took effect. -/
def Move.Timely : Move → Prop
  | .weather faults _ => ∀ f ∈ faults, f.method = .commit → f.after = false
  | _ => True

end Writing

/-- A storage with its database and the submissions so far. -/
structure Writing where
  storage : Storage
  database : Database
  entries : List Writing.Entry

namespace Writing

def create (s : Storage) (d : Database) : Writing := ⟨s, d, []⟩

def next (k : Writing) : Move → Writing
  | .bring c =>
    let (progress, storage, database) := k.storage.begin k.database (.submit c)
    ⟨storage, database, k.entries ++ [⟨c, progress⟩]⟩
  | .attend place =>
    match k.entries[place]? with
    | some ⟨c, .going p⟩ =>
      if k.storage.ready k.database.held.isNone p then
        let (progress, storage, database) := k.storage.advance 0 k.database p
        ⟨storage, database, k.entries.set place ⟨c, progress⟩⟩
      else k
    | _ => k
  | .work time =>
    if (k.storage.batcher.map fun b => b.ready time k.database.held.isNone).getD false then
      let (storage, database) := Cluster.stepWorker time k.storage k.database
      ⟨storage, database, k.entries⟩
    else k
  | .close =>
    let (_, storage, database) := k.storage.begin k.database .closeWriter
    ⟨storage, database, k.entries⟩
  | .configure remove => { k with storage := k.storage.setRemove remove }
  | .weather faults clock => { k with database := { k.database with faults, clock } }

def after (k : Writing) (ms : List Move) : Writing := ms.foldl next k

theorem after_append (k : Writing) (ms ms' : List Move) :
    k.after (ms ++ ms') = (k.after ms).after ms' := List.foldl_append

/-- The settings for removal that were in force at some time. -/
def Removal (k : Writing) (ms : List Move) (remove : Bool) : Prop :=
  remove = k.storage.access.removeFinished ∨ .configure remove ∈ ms

/-- What the submitter was told, or will be told when it goes on. -/
def told (s : Storage) : Storage.Progress → Option (Except StoreError Unit)
  | .over .done => some (.ok ())
  | .over (.refused e) => some (.error e)
  | .going (.writing .plain (.inLine ticket)) => s.batcher.bind fun b => b.answer? ticket
  | _ => none

def ending : Except StoreError Unit → Storage.Progress
  | .ok () => .over .done
  | .error e => .over (.refused e)

theorem told_ending (s : Storage) (r : Except StoreError Unit) : told s (ending r) = some r := by
  rcases r with e | _ <;> rfl

/-- What the submitters of some entries were told. -/
def report (s : Storage) (es : List Entry) : List (Command × Option (Except StoreError Unit)) :=
  es.map fun e => (e.command, told s e.progress)

def record (k : Writing) : List (Command × Option (Except StoreError Unit)) :=
  report k.storage k.entries

/-- The commands whose submitters were told that they went well. -/
def grantedIn (l : List (Command × Option (Except StoreError Unit))) : List Command :=
  l.filterMap fun
    | (c, some (.ok ())) => some c
    | _ => none

/-- The commands that were granted, in the order in which they came. -/
def granted (k : Writing) : List Command := grantedIn k.record

theorem grantedIn_append (l l' : List (Command × Option (Except StoreError Unit))) :
    grantedIn (l ++ l') = grantedIn l ++ grantedIn l' := List.filterMap_append

theorem grantedIn_ok (cs : List Command) :
    grantedIn (cs.map fun c => (c, some (.ok ()))) = cs := by
  induction cs with
  | nil => rfl
  | cons c cs ih => exact congrArg (c :: ·) ih

theorem grantedIn_nil {l : List (Command × Option (Except StoreError Unit))}
    (h : ∀ x ∈ l, x.2 ≠ some (.ok ())) : grantedIn l = [] := by
  refine List.filterMap_eq_nil_iff.2 ?_
  rintro ⟨c, r⟩ hx
  have := h _ hx
  rcases r with _ | _ | _ <;> first | rfl | exact absurd rfl this

theorem grantedIn_cons {x : Command × Option (Except StoreError Unit)}
    {l : List (Command × Option (Except StoreError Unit))} (h : x.2 ≠ some (.ok ())) :
    grantedIn (x :: l) = grantedIn l := by
  have hx : grantedIn [x] = [] := grantedIn_nil fun y hy => List.mem_singleton.1 hy ▸ h
  rw [← List.singleton_append, grantedIn_append, hx, List.nil_append]

/-! ## One command at a time -/

/-- Commands are brought to a storage, each when the one before has gone through; `n` were brought
before. -/
def inTurn (n : Nat) : List Command → List Move
  | [] => []
  | c :: cs => .bring c :: .attend n :: inTurn (n + 1) cs

/-- Commands that are brought to a storage without a batching writer, one after the other. -/
def oneByOne (engine : String) (settings : StorageSettings) (monitored : Bool) (d : Database)
    (cs : List Command) : Writing :=
  (create (.create engine settings none monitored) d).after (inTurn 0 cs)

/-- The storage has no batching writer, and nobody holds a transaction open. -/
structure Plain (k : Writing) : Prop where
  batcher : k.storage.batcher = none
  free : k.database.held = none

/-- One command is brought when the one before has gone through. -/
structure Served (k : Writing) (c : Command) (k' : Writing) (p : Storage.Progress) : Prop where
  storage : k'.storage = k.storage
  entries : k'.entries = k.entries ++ [⟨c, p⟩]
  aside : k.database.Aside k'.database
  granted : told k.storage p = some (.ok ()) →
    k.database.store.execute k.storage.access.removeFinished c = (.ok (), k'.database.store)
  denied : told k.storage p ≠ some (.ok ()) → k.database.Timely →
    k'.database.store = k.database.store
  heard : k.database.Gentle → ∃ r, p = ending r
  alone : k.database.faults = [] →
    told k.storage p = some (k.database.store.execute k.storage.access.removeFinished c).1

theorem Plain.served {k : Writing} (h : k.Plain) (c : Command) :
    ∃ p, k.Served c (k.after [.bring c, .attend k.entries.length]) p := by
  obtain ⟨s, d, es⟩ := k
  have hb : s.batcher = none := h.batcher
  have hh : d.held = none := h.free
  have he : (⟨s, d, es⟩ : Writing).after [.bring c, .attend es.length] =
      ⟨(s.write d .plain (.alone c)).2.1, (s.write d .plain (.alone c)).2.2,
        es ++ [⟨c, (s.write d .plain (.alone c)).1⟩]⟩ := by
    simp [after, next, Storage.begin, Storage.beginWrite, Storage.enter, hb, Storage.ready, hh,
      Storage.advance]
  rw [he]
  have ha := Work.transactAll_aside s.access [c] d
  have hq := fun hf => Work.transactOne_answer (a := s.access) (c := c) (d := d) hf
  rcases ht : (Work.transact (Work.executeAll s.access [c])).on d with ⟨(e | m) | u, d'⟩ <;>
    rw [ht] at ha hq
  · -- the command was refused, and the caller is told so
    have hw : s.write d .plain (.alone c) = (.over (.refused e), s, d') := by
      simp only [Storage.write, ht, Storage.acknowledge]
    rw [hw]
    exact ⟨_, rfl, rfl, ha, fun h => (nomatch h), fun _ hd => Work.transactAll_error hd ht,
      fun _ => ⟨.error e, rfl⟩, fun hf => congrArg some (Work.answer_refused (hq hf).symm).symm⟩
  · -- the caller crashed
    have hw : s.write d .plain (.alone c) = (.over (.crashed m), s, d') := by
      simp only [Storage.write, ht]
    rw [hw]
    have loud : ¬ d.Gentle := fun hg => Work.transactAll_reports hg ht
    exact ⟨_, rfl, rfl, ha, fun h => (nomatch h), fun _ hd => Work.transactAll_error hd ht,
      fun hg => absurd hg loud, fun hf => absurd (Database.gentle_of_quiet hf) loud⟩
  · have hw : s.write d .plain (.alone c) = (.over .done, s, d') := by
      simp only [Storage.write, ht, Storage.acknowledge]
    rw [hw]
    have hc := Work.transactOne_ok ht
    exact ⟨_, rfl, rfl, ha, fun _ => hc, fun h => absurd rfl h, fun _ => ⟨.ok (), rfl⟩,
      fun _ => congrArg some (congrArg Prod.fst hc).symm⟩

theorem Served.plain {k k' : Writing} {c : Command} {p : Storage.Progress} (h : k.Served c k' p)
    (hp : k.Plain) : k'.Plain :=
  ⟨by rw [h.storage]; exact hp.batcher, h.aside.held.trans hp.free⟩

/-- What one command after the other does without a batching writer. -/
structure Run (k : Writing) (cs : List Command) (k' : Writing) (added : List Entry) : Prop where
  storage : k'.storage = k.storage
  entries : k'.entries = k.entries ++ added
  commands : added.map (·.command) = cs
  truthful : k.database.Timely → k.database.store.Takes (· = k.storage.access.removeFinished)
    (grantedIn (report k.storage added)) k'.database.store
  heard : k.database.Gentle → ∀ e ∈ added, ∃ r, e.progress = ending r
  quiet : k.database.faults = [] →
    let r := k.database.store.obeyAll k.storage.access.removeFinished cs
    (added.map fun e => told k.storage e.progress) = r.1.map some ∧ k'.database.store = r.2

theorem Plain.run (cs : List Command) {k : Writing} (h : k.Plain) :
    ∃ added, k.Run cs (k.after (inTurn k.entries.length cs)) added := by
  induction cs generalizing k with
  | nil =>
    exact ⟨[], rfl, (List.append_nil _).symm, rfl, fun _ => .nil _, fun _ x hx => (nomatch hx),
      fun _ => ⟨rfl, rfl⟩⟩
  | cons c cs ih =>
    obtain ⟨p, hk⟩ := h.served c
    generalize hk' : k.after [.bring c, .attend k.entries.length] = k₁ at hk
    have hl : k₁.entries.length = k.entries.length + 1 := by rw [hk.entries]; simp
    obtain ⟨added, hr⟩ := ih (hk.plain h)
    rw [hl] at hr
    have ha : k.after (inTurn k.entries.length (c :: cs)) =
        k₁.after (inTurn (k.entries.length + 1) cs) := by
      rw [← hk', ← after_append]
      rfl
    rw [ha]
    refine ⟨⟨c, p⟩ :: added, hr.storage.trans hk.storage, ?_, ?_, fun ht => ?_, fun hg => ?_,
      fun hf => ?_⟩
    · rw [hr.entries, hk.entries, List.append_assoc, List.singleton_append]
    · rw [List.map_cons, hr.commands]
    · have hs := hr.truthful (hk.aside.timely ht)
      rw [hk.storage] at hs
      rw [report, List.map_cons]
      by_cases hp : told k.storage p = some (.ok ())
      · rw [hp]
        exact .cons rfl (hk.granted hp) hs
      · rw [hk.denied hp ht] at hs
        rwa [grantedIn_cons hp]
    · intro x hx
      rcases List.mem_cons.1 hx with rfl | hx
      · exact hk.heard hg
      · exact hr.heard (hk.aside.gentle hg) x hx
    · have ho : k.database.store.obey k.storage.access.removeFinished c =
          ((k.database.store.execute k.storage.access.removeFinished c).1, k₁.database.store) := by
        have ha := hk.alone hf
        rcases hx : k.database.store.execute k.storage.access.removeFinished c with ⟨e | u, s'⟩
        · rw [hx] at ha
          have := hk.denied (by rw [ha]; simp) (Database.timely_of_quiet hf)
          simp only [Store.obey, hx, this]
        · rw [hx] at ha
          have := hk.granted ha
          rw [hx] at this
          cases this
          simp only [Store.obey, hx]
      obtain ⟨h₁, h₂⟩ := hr.quiet (hk.aside.quiet hf)
      rw [hk.storage] at h₁ h₂
      simp only [Store.obeyAll, ho, List.map_cons, h₁, h₂, hk.alone hf, and_self]

theorem run_oneByOne (engine : String) (settings : StorageSettings) (monitored : Bool)
    {d : Database} (free : d.held = none) (cs : List Command) :
    ∃ added, Run (create (.create engine settings none monitored) d) cs
      (oneByOne engine settings monitored d cs) added :=
  Plain.run cs (k := create (.create engine settings none monitored) d) ⟨rfl, free⟩

end Writing

end Resumption
