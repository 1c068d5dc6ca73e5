import Resumption.Proofs.Database.Atomicity

/-!
# What a transaction refuses with

A refusal names a cause. The causes of a transaction are those of its calls, or an error of the
database, whichever calls fail (`Work.blames_transact`); nothing on the way makes up another one. So
no command is refused because a writer is closed (`Work.transactAll_open`): that is something only a
writer can say.
-/

namespace Resumption

namespace Store

variable {s : Store} {id : Uuid} {cause : StoreError}

theorem modify_refused {f : Record → Record} (h : (s.modify id f).1 = .error cause) :
    cause = .instanceNotFound id := by
  unfold modify at h
  split at h
  · cases h
    rfl
  · cases h

/-- A command is refused for want of its instance only. -/
theorem execute_refused {remove : Bool} {c : Command} (h : (s.execute remove c).1 = .error cause) :
    ∃ id, cause = .instanceNotFound id := by
  cases c with
  | suspend c payload =>
    simp only [execute, suspend] at h
    split at h
    · cases h
      exact ⟨_, rfl⟩
    · cases h
  | notify r => cases h
  | finish id =>
    simp only [execute, finish] at h
    split at h
    · split at h
      · cases h
        exact ⟨_, rfl⟩
      · cases h
    · exact ⟨id, modify_refused h⟩
  | fail id reason => exact ⟨id, modify_refused h⟩

end Store

namespace Work

variable {α β : Type} {p : StoreError → Prop}

/-- Whatever the work refuses with satisfies `p`. -/
def Blames (p : StoreError → Prop) (w : Work α) : Prop :=
  ∀ d cause d', w.on d = (.error (.refused cause), d') → p cause

theorem blames_pure (a : α) : Blames p (pure a : Work α) := fun _ _ _ h => nomatch h

theorem blames_tell (e : Event) : Blames p (tell e) := fun _ _ _ h => nomatch h

theorem blames_bind {w : Work α} {f : α → Work β} (hw : Blames p w) (hf : ∀ a, Blames p (f a)) :
    Blames p (w >>= f) := by
  intro d cause d' h
  rcases bind_error h with h | ⟨a, d₁, -, h⟩
  · exact hw d cause d' h
  · exact hf a d₁ cause d' h

/-- Work that passes every failure on, with whatever it does before, blames what it blamed. -/
theorem blames_tryCatch {w : Work α} {f : Failure → Work α} (hw : Blames p w)
    (passes : ∀ e d cause d', (f e).on d = (.error (.refused cause), d') → e = .refused cause) :
    Blames p (tryCatch w f) := by
  intro d cause d' h
  obtain ⟨e, d₁, failed, h⟩ := tryCatch_error h
  obtain rfl := passes e d₁ cause d' h
  exact hw d cause d₁ failed

theorem blames_meet (database : ∀ reason, p (.database reason)) (m : Method) (after : Bool) :
    Blames p (meet m after) := by
  intro d cause d' h
  rw [meet_on] at h
  rcases hb : (Fault.meet m after d.faults).1 with _ | (reason | message)
  · rw [hb] at h
    cases h
  · rw [hb] at h
    cases h
    exact database reason
  · rw [hb] at h
    cases h

theorem blames_call (database : ∀ reason, p (.database reason)) (m : Method)
    {o : Store → Except StoreError α × Store}
    (refuses : ∀ s cause, (o s).1 = .error cause → p cause) : Blames p (call m o) := by
  have performed : Blames p (onStore o) := by
    intro d cause d' h
    rw [onStore_on] at h
    rcases hr : (o d.store).1 with e | a
    · rw [hr] at h
      cases h
      exact refuses d.store cause hr
    · rw [hr] at h
      cases h
  exact blames_bind (blames_meet database _ _) fun _ => blames_bind performed fun a =>
    blames_bind (blames_meet database _ _) fun _ => blames_pure a

theorem blames_openTransaction (database : ∀ reason, p (.database reason)) :
    Blames p openTransaction :=
  blames_bind (blames_tell _) fun _ => blames_bind (blames_meet database _ _) fun _ =>
    blames_bind (blames_meet database _ _) fun _ _ _ _ h => nomatch h

theorem blames_commit (database : ∀ reason, p (.database reason)) (before : Store) :
    Blames p (commit before) := by
  refine blames_bind (blames_tell _) fun _ => blames_bind ?_ fun _ => blames_meet database _ _
  refine blames_tryCatch (blames_meet database _ _) fun e d cause d' h => ?_
  rcases bind_error h with h | ⟨u, d₁, -, h⟩
  · cases h
  · cases h
    rfl

/-- Abandoned work passes its own failure on, or crashes. -/
theorem abandon_passes {before : Store} {e : Failure} {d d' : Database} {cause : StoreError}
    (h : (abandon before e : Work α).on d = (.error (.refused cause), d')) :
    e = .refused cause := by
  cases e with
  | crashed message => cases h
  | refused own =>
    rw [abandon] at h
    rcases bind_error h with h | ⟨u, d₁, -, h⟩
    · obtain ⟨e, d₁, -, h⟩ := tryCatch_error h
      cases e <;> cases h
    · cases h
      rfl

/-- **A transaction blames what its work blames,** or the database. -/
theorem blames_transact (database : ∀ reason, p (.database reason)) {w : Work α}
    (hw : Blames p w) : Blames p (transact w) :=
  blames_bind (blames_openTransaction database) fun _ =>
    blames_bind (blames_tryCatch hw fun _ _ _ _ h => abandon_passes h) fun a =>
      blames_bind (blames_commit database _) fun _ => blames_pure a

theorem transactAll_open {a : Access} {cs : List Command} {d d' : Database} :
    (transact (executeAll a cs)).on d ≠ (.error (.refused .writerClosed), d') := by
  have database : ∀ reason, StoreError.database reason ≠ .writerClosed := fun _ h => nomatch h
  have one : ∀ c, Blames (· ≠ .writerClosed) (execute a c) := by
    intro c
    have refuses : ∀ (s : Store) (cause : StoreError),
        (s.execute a.removeFinished c).1 = .error cause →
          cause ≠ .writerClosed := by
      intro s cause h
      obtain ⟨id, rfl⟩ := Store.execute_refused h
      exact fun h => nomatch h
    cases c with
    | suspend c payload => exact blames_call database .suspend refuses
    | notify r => exact blames_call database .notify refuses
    | finish id => exact blames_call database .finish refuses
    | fail id reason => exact blames_call database .fail refuses
  have all : Blames (· ≠ .writerClosed) (executeAll a cs) := by
    induction cs with
    | nil => exact blames_pure ()
    | cons c cs ih => exact blames_bind (one c) fun _ => ih
  intro h
  exact blames_transact database all d .writerClosed d' h rfl

end Work

end Resumption
