import Resumption.Store.Command
import Resumption.Workflow.Wire

/-!
# Operations

What a backend can be asked, whatever it keeps its instances in, and what it answers. Each operation
is one unit of work inside a transaction.
-/

namespace Resumption

/-- Something that a backend is asked to do. -/
inductive Operation where
  /-- Store new instances. -/
  | insert (ws : List Workflow)
  /-- Claim ready instances of a pool. -/
  | claim (pool : String) (most : Nat)
  /-- Deliver responses. -/
  | notify (rs : List Response)
  /-- Suspend an instance on a callback, with its payload. -/
  | suspend (callback : Callback) (payload : Json)
  /-- Finish an instance. -/
  | finish (id : Uuid)
  /-- Mark an instance as failed. -/
  | fail (id : Uuid) (cause : String)
  /-- Make a failed instance ready again. -/
  | restart (id : Uuid)
  /-- Make every failed instance ready again. -/
  | restartAll
  /-- Discard expired responses. -/
  | sweep (most : Nat)
  /-- Make due instances ready. -/
  | promote (most : Nat)
  /-- Make ready again what an engine left running. -/
  | recover
  /-- Look an instance up. -/
  | load (id : Uuid)
  /-- Execute commands in order, up to the first that fails. -/
  | execute (commands : List Command)
  deriving Repr, Inhabited

/-- What a backend answers to an operation that succeeded. -/
inductive Outcome where
  | done
  | counted (n : Nat)
  | claimed (ws : List Workflow)
  | loaded (w : Option Workflow)
  deriving Repr, Inhabited

def Outcome.toJson : Outcome → Json
  | done => .null
  | counted n => .nat n
  | claimed ws => .ofList Workflow.toJson ws
  | loaded w => .ofOption Workflow.toJson w

end Resumption
