import Resumption.Proofs.Engine.Asking
import Resumption.Proofs.Storage.Recording

/-!
# What there is to record of a dispatch

A dispatch finds out what there is to record of its instance (`Upshot`): what its run has come to,
or that there is no run (`Engine.Yields`). In each case it hands one call to the storage
(`Engine.task?`), and goes on with what the storage makes of it (`Engine.proceed`). This is all that
a dispatch does at its storage (`advance_task`, `advance_settling`), apart from what its runner asks
for.
-/

namespace Resumption

/-! ## What there is to record -/

/-- What there is to record of an instance. -/
inductive Upshot where
  | finished
  /-- The instance is to wait. -/
  | suspended (c : Callback) (payload : Json)
  | failed (cause : String)

/-- The number of commands that are tried for it, one after the other. -/
def Upshot.attempts : Upshot → Nat
  | failed _ => 1
  | _ => 2

/-- What a run that is over has come to. -/
def Run.upshot? : Run → Option Upshot
  | finished _ => some .finished
  | suspended w =>
    some (match w.callback with
      | some c => .suspended c w.payload
      | none => .failed "suspended without a register call")
  | failed _ causes => some (.failed (String.intercalate ": " causes))
  | panicked _ message => some (.failed ("panic: " ++ message.getD "unknown panic"))
  | _ => none

/-- A run gets to another one by pausing, by counting visits and by answers to what it asks. One
that does not live to see an answer breaks down. -/
inductive Run.Reaches (claimed : Workflow) (r : Run) : Run → Prop where
  | here : Reaches claimed r r
  | resumes {d : Duration} {next : Run} (h : Reaches claimed r (.pause d next)) :
      Reaches claimed r next
  | counts {next : Nat → Run} (n : Nat) (h : Reaches claimed r (.visit next)) :
      Reaches claimed r (next n)
  | hears {a : Ask} {next : Answer → Run} (x : Answer) (h : Reaches claimed r (.ask a next)) :
      Reaches claimed r (next x)
  | crashes {a : Ask} {next : Answer → Run} (m : String) (h : Reaches claimed r (.ask a next)) :
      Reaches claimed r (.panicked claimed (some m))

theorem Run.Reaches.eq {claimed : Workflow} {r r' : Run} {u : Upshot} (hu : r.upshot? = some u)
    (h : Run.Reaches claimed r r') : r' = r := by
  induction h with
  | here => rfl
  | _ => rename_i ih; subst ih; cases hu

/-- What there may be to record of a claimed instance; `found` says that there is an engine. -/
inductive Engine.Yields (e : Engine) (found : Bool) (claimed : Workflow) : Upshot → Prop where
  | unavailable (hf : found = false) :
      Yields e found claimed (.failed "processing engine unavailable")
  | unregistered (hf : found = true) (hr : e.registry.runner? claimed.type = none) :
      Yields e found claimed (.failed ("no runner registered for workflow type " ++ claimed.type))
  | ran {runner : Runner} {now : Instant} {lifecycle : Lifecycle} {r : Run} {u : Upshot}
      (hf : found = true) (hr : e.registry.runner? claimed.type = some runner)
      (run : Run.Reaches claimed (runner ⟨now, e.id, lifecycle⟩ (e.inject claimed)) r)
      (hu : r.upshot? = some u) : Yields e found claimed u

/-! ## What a dispatch hands to the storage -/

/-- What is handed to the storage when a run is over. -/
def Run.task? : Run → Option (Storage.Call × Settlement)
  | finished w => some (.finish w, .plain)
  | suspended w =>
    some (match w.callback with
      | some _ => (.suspend w, .suspension w)
      | none => (.fail w "suspended without a register call", .plain))
  | failed w causes => some (.fail w (String.intercalate ": " causes), .plain)
  | panicked w message => some (.fail w ("panic: " ++ message.getD "unknown panic"), .plain)
  | _ => none

/-- What is heard at once when a call to the storage is over, or not. A callback that cannot be
written goes on as a failure. -/
def Settlement.hears : Settlement → Storage.Progress × Storage × Database →
    List (Except StoreError Unit)
  | suspension w, (.over (.refused cause), s, _) => s.heardFirst (.fail w cause.message)
  | _, _ => []

namespace Engine

/-- What a step of a dispatch hands to the storage. -/
def task? (e : Engine) (found : Bool) (w : Workflow) :
    DispatchPhase → Option (Storage.Call × Settlement)
  | .fresh =>
    if !found then some (.fail w "processing engine unavailable", .plain)
    else
      match e.registry.runner? w.type with
      | none => some (.fail w ("no runner registered for workflow type " ++ w.type), .plain)
      | some _ => none
  | .running r => r.task?
  | _ => none

/-- What is heard in a step of a dispatch. -/
def hears (e : Engine) (x : Site) (found : Bool) (w : Workflow) :
    DispatchPhase → List (Except StoreError Unit)
  | .settling p s => e.storage.heardNext x.db p ++ s.hears (e.storage.advance x.time x.db p)
  | phase =>
    match e.task? found w phase with
    | some (c, s) => e.storage.heardFirst c ++ s.hears (e.storage.begin x.db c)
    | none => []

/-- What a dispatch makes of a step at the storage. -/
def proceed (e : Engine) (x : Site) (s : Settlement) :
    Storage.Progress × Storage × Database → DispatchProgress × Engine × Site
  | (.going p, storage, db) => (.going (.settling p s), { e with storage }, { x with db })
  | (.over r, storage, db) => settled { e with storage } { x with db } s r

variable {e : Engine} {x : Site} {found : Bool} {w : Workflow} {c : Storage.Call}
  {s : Settlement}

theorem settle_eq (e : Engine) (x : Site) (c : Storage.Call) :
    e.settle x c = e.proceed x .plain (e.storage.begin x.db c) := by
  rw [settle]
  rcases e.storage.begin x.db c with ⟨p | r, storage, db⟩ <;> rfl

theorem settleSuspension_eq (e : Engine) (x : Site) (w : Workflow) :
    e.settleSuspension x w = e.proceed x (.suspension w) (e.storage.begin x.db (.suspend w)) := by
  rw [settleSuspension]
  rcases e.storage.begin x.db (.suspend w) with ⟨p | r, storage, db⟩ <;> rfl

theorem advance_settling (e : Engine) (x : Site) (found : Bool) (w : Workflow) (p : Storage.Phase)
    (s : Settlement) : e.advanceDispatch x found w (.settling p s) =
      e.proceed x s (e.storage.advance x.time x.db p) := by
  rw [advanceDispatch]
  rcases e.storage.advance x.time x.db p with ⟨p | r, storage, db⟩ <;> rfl

/-- A step that hands something to the storage does nothing else but tell. -/
theorem advance_task {phase : DispatchPhase} (h : e.task? found w phase = some (c, s)) :
    ∃ x', x.db.Told x'.db ∧ (s = .plain ∨ x' = x) ∧
      e.advanceDispatch x found w phase = e.proceed x' s (e.storage.begin x'.db c) := by
  cases phase with
  | fresh =>
    rw [advanceDispatch, beginRun]
    simp only [task?] at h
    split at h
    · rename_i hf
      cases h
      rw [if_pos hf]
      exact ⟨_, x.db.told_tell _, .inl rfl, settle_eq e _ _⟩
    · rename_i hf
      rw [if_neg hf]
      cases hr : e.registry.runner? w.type with
      | some runner =>
        rw [hr] at h
        cases h
      | none =>
        rw [hr] at h
        cases h
        exact ⟨x.tell (.fault "no runner registered for workflow type"), x.db.told_tell _,
          .inl rfl, settle_eq e _ _⟩
  | running r =>
    rw [advanceDispatch]
    cases r with
    | finished w =>
      cases h
      exact ⟨x, .refl _, .inl rfl, settle_eq e x _⟩
    | suspended w =>
      simp only [task?, Run.task?, Option.some.injEq] at h
      rw [continueRun]
      cases hc : w.callback with
      | some callback =>
        rw [hc] at h
        cases h
        exact ⟨x, .refl _, .inr rfl, settleSuspension_eq e x w⟩
      | none =>
        rw [hc] at h
        cases h
        exact ⟨_, x.db.told_tell _, .inl rfl, settle_eq e _ _⟩
    | failed w causes =>
      cases h
      exact ⟨_, x.db.told_tell _, .inl rfl, settle_eq e _ _⟩
    | panicked w message =>
      cases h
      exact ⟨_, x.db.told_tell _, .inl rfl, settle_eq e _ _⟩
    | _ => cases h
  | _ => cases h

end Engine

end Resumption
