import Resumption.Store.Basic

/-!
# Claiming instances and recording what became of them

A claim takes the ready instances of a pool by falling priority and, among equals, in the order of
their insertion. The outcome of a run is recorded on the instance whatever its stage.
-/

namespace Resumption

namespace Record

/-- Comes first in a claim: a higher priority, or an equal one and an earlier insertion. -/
def claimedBefore (a b : Record) : Bool :=
  b.priority < a.priority || (a.priority == b.priority && a.number ≤ b.number)

end Record

namespace Store

/-- The records that a claim of at most `most` instances takes, in order. -/
def claimList (s : Store) (pool : String) (most : Nat) : List Record :=
  ((s.records.filter fun r => r.claimable pool).mergeSort Record.claimedBefore).take most

/-- Claims up to `most` ready instances of a pool for an engine (`dequeue`). -/
def claim (s : Store) (engine pool : String) (most : Nat) : List Workflow × Store :=
  let chosen := s.claimList pool most
  let ids := chosen.map (·.id)
  (chosen.map fun r => r.handedOut engine,
    { s with records := s.records.map fun r => if r.id ∈ ids then r.claim engine else r })

/-- Finishes an instance: marks it, or removes it. -/
def finish (s : Store) (remove : Bool) (id : Uuid) : Except StoreError Unit × Store :=
  if remove then
    match s.find? id with
    | none => (.error (.instanceNotFound id), s)
    | some _ => (.ok (), { s with records := s.records.filter fun r => r.id ≠ id })
  else s.modify id Record.finish

/-- Marks an instance as failed (`record_error`). -/
def fail (s : Store) (id : Uuid) (cause : String) : Except StoreError Unit × Store :=
  s.modify id fun r => r.fail cause

def restart (s : Store) (id : Uuid) : Except StoreError Unit × Store :=
  match s.find? id with
  | none => (.error (.instanceNotFound id), s)
  | some r =>
    if r.status = .failed then (.ok (), s.update id Record.restart)
    else (.error (.notRestartable id), s)

/-- Makes every failed instance ready again, and counts them. -/
def restartAll (s : Store) : Nat × Store :=
  s.updateWhere (fun r => r.status == .failed) Record.restart

/-- Makes ready again what an engine left running when it ended, and counts it
(`resume_broken_business_processes`). -/
def recover (s : Store) (engine : String) : Nat × Store :=
  s.updateWhere (fun r => r.status == .running engine) fun r => { r with status := .ready }

end Store

end Resumption
