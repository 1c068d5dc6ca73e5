import Resumption.Proofs.Database.Atomicity

/-!
# Notes

Of what is in the journal, errors and the history of instances are what somebody reads to learn what
became of an instance: the notes (`Database.notes`). Transactions take none, whichever calls fail:
they tell of their own begins, commits and rollbacks, and warn of rollbacks that fail
(`Work.Mute`). So errors and history stem from those who make the calls.
-/

namespace Resumption

/-- An error, or a step in the history of an instance. -/
def Event.isNote : Event → Bool
  | .fault _ => true
  | .passed _ _ _ => true
  | _ => false

namespace Database

/-- The errors and the history in the journal, latest first. -/
def notes (d : Database) : List Event := d.journal.filter Event.isNote

@[simp] theorem notes_tell (d : Database) {e : Event} (h : e.isNote = true) :
    (d.tell e).notes = e :: d.notes := List.filter_cons_of_pos h

@[simp] theorem notes_tell_other (d : Database) {e : Event} (h : e.isNote = false) :
    (d.tell e).notes = d.notes := List.filter_cons_of_neg (by simp [h])

theorem count_fault_notes (d : Database) (text : String) :
    d.notes.count (.fault text) = d.journal.count (.fault text) := List.count_filter rfl

end Database

namespace Work

variable {α β : Type}

/-- Work that takes no notes. -/
def Mute (w : Work α) : Prop := ∀ d : Database, (w.on d).2.notes = d.notes

theorem Mute.faults {w : Work α} (h : Mute w) (d : Database) (text : String) :
    (w.on d).2.journal.count (.fault text) = d.journal.count (.fault text) := by
  rw [← Database.count_fault_notes, h, Database.count_fault_notes]

theorem mute_pure (a : α) : Mute (pure a : Work α) := fun _ => rfl

theorem mute_throw (e : Failure) : Mute (throw e : Work α) := fun _ => rfl

theorem mute_restore (s : Store) : Mute (restore s) := fun _ => rfl

theorem mute_tell {e : Event} (h : e.isNote = false) : Mute (tell e) :=
  fun d => d.notes_tell_other h

theorem mute_bind {w : Work α} {f : α → Work β} (hw : Mute w) (hf : ∀ a, Mute (f a)) :
    Mute (w >>= f) := by
  intro d
  have h := hw d
  rw [on_bind]
  rcases hr : w.on d with ⟨r, d'⟩
  rw [hr] at h
  cases r with
  | error e => exact h
  | ok a => exact (hf a d').trans h

theorem mute_tryCatch {w : Work α} {f : Failure → Work α} (hw : Mute w) (hf : ∀ e, Mute (f e)) :
    Mute (tryCatch w f) := by
  intro d
  have h := hw d
  rw [on_tryCatch]
  rcases hr : w.on d with ⟨r, d'⟩
  rw [hr] at h
  cases r with
  | ok a => exact h
  | error e => exact (hf e d').trans h

theorem mute_meet (m : Method) (after : Bool) : Mute (meet m after) := by
  intro d
  rw [meet_on]
  rfl

theorem mute_call (m : Method) (o : Store → Except StoreError α × Store) : Mute (call m o) := by
  refine mute_bind (mute_meet _ _) fun _ => mute_bind (fun d => ?_) fun a =>
    mute_bind (mute_meet _ _) fun _ => mute_pure a
  rw [onStore_on]
  rfl

theorem mute_execute (a : Access) (c : Command) : Mute (execute a c) := by
  cases c with
  | suspend c payload => exact mute_call .suspend fun s => s.suspend c payload
  | notify r => exact mute_call .notify fun s => (.ok (), s.notify [r])
  | finish id => exact mute_call .finish fun s => s.finish a.removeFinished id
  | fail id cause => exact mute_call .fail fun s => s.fail id cause

theorem mute_executeAll (a : Access) (cs : List Command) : Mute (executeAll a cs) := by
  induction cs with
  | nil => exact mute_pure ()
  | cons c cs ih => exact mute_bind (mute_execute a c) fun _ => ih

theorem mute_openTransaction : Mute openTransaction := by
  have hg : Mute (do return (← get).store : Work Store) := fun _ => rfl
  exact mute_bind (mute_tell rfl) fun _ => mute_bind (mute_meet _ _) fun _ =>
    mute_bind (mute_meet _ _) fun _ => hg

theorem mute_commit (before : Store) : Mute (commit before) :=
  mute_bind (mute_tell rfl) fun _ => mute_bind
    (mute_tryCatch (mute_meet _ _) fun e =>
      mute_bind (mute_restore before) fun _ => mute_throw e)
    fun _ => mute_meet _ _

theorem mute_rollback (before : Store) : Mute (rollback before) :=
  mute_bind (mute_tell rfl) fun _ => mute_bind (mute_restore before) fun _ =>
    mute_bind (mute_meet _ _) fun _ => mute_meet _ _

theorem mute_abandon (before : Store) (e : Failure) : Mute (abandon before e : Work α) := by
  cases e with
  | crashed message => exact mute_bind (mute_restore before) fun _ => mute_throw _
  | refused cause =>
    refine mute_bind (mute_tryCatch (mute_rollback before) fun e => ?_) fun _ => mute_throw _
    cases e with
    | refused cause => exact mute_tell rfl
    | crashed message => exact mute_throw _

/-- A transaction takes no notes if what runs in it takes none. -/
theorem mute_transact {w : Work α} (hw : Mute w) : Mute (transact w) :=
  mute_bind mute_openTransaction fun b =>
    mute_bind (mute_tryCatch hw fun e => mute_abandon b e) fun a =>
      mute_bind (mute_commit b) fun _ => mute_pure a

theorem mute_transactAll (a : Access) (cs : List Command) :
    Mute (transact (executeAll a cs)) := mute_transact (mute_executeAll a cs)

end Work

end Resumption
