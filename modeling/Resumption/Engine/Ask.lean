import Resumption.Engine.Error
import Resumption.Storage.Call

/-!
# What is asked of an engine

Submitting work, registering callbacks, delivering responses and restarting failed instances, with
the answers that an engine gives and the phases in between. Callers ask, and so do runners.
-/

namespace Resumption

/-- What can be asked of an engine. -/
inductive Ask where
  | submit (batch : List Submission)
  | submitOne (x : Submission)
  /-- Submits a batch inside the transaction that the asker holds. -/
  | submitHeld (batch : List Submission)
  | register (w : Workflow) (quorum : Quorum) (timeout : Option Duration)
      (correlations : List String)
  | notify (r : Response)
  | notifyAll (rs : List Response)
  | restart (id : Uuid)
  | restartAll

def Ask.needsAdmission : Ask → Bool
  | restart _ => false
  | restartAll => false
  | _ => true

/-- What an engine answers. -/
inductive Answer where
  | done
  | submitted (ids : List Uuid)
  | submittedOne (id : Uuid)
  | registered (w : Workflow)
  | counted (n : Nat)
  | refused (e : EngineError)
  /-- The asker does not live to see an answer. -/
  | crashed (message : String)

/-- What remains to be done when the storage has answered. -/
inductive Errand where
  /-- Wake these pools and give these ids. -/
  | submission (ids : List Uuid) (pools : List String) (single : Bool)
  | notification
  /-- Look the restarted instance up. -/
  | restart (id : Uuid)
  /-- Wake the pool of the instance. -/
  | lookup
  /-- Wake all pools. -/
  | restartAll

/-- Where an ask is. -/
inductive AskPhase where
  /-- At the gate. -/
  | arriving (a : Ask)
  /-- With the storage. -/
  | storing (p : Storage.Phase) (e : Errand)
  /-- The answer is known, and these pools are to be woken, one after the other. -/
  | waking (a : Answer) (pools : List String)

/-- An ask either goes on in a phase or is over. -/
inductive AskProgress where
  | going (p : AskPhase)
  | over (a : Answer)

end Resumption
