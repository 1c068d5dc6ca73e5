import Resumption.Store.Error

/-!
# Why a pool operation fails
-/

namespace Resumption

/-- Why a pool operation failed. -/
inductive PoolError where
  /-- The store failed. -/
  | store (cause : StoreError)
  /-- The pool runs already. -/
  | alreadyRunning
  /-- Dispatches were still running when the time for draining was over. -/
  | shutdownTimeout
  /-- A pool of this id is registered already. -/
  | duplicatePool (id : String)
  deriving DecidableEq, Repr, Inhabited

namespace PoolError

def message : PoolError → String
  | store cause => "store error: " ++ cause.message
  | alreadyRunning => "processor pool is already running"
  | shutdownTimeout => "graceful shutdown timed out"
  | duplicatePool id => "processor pool already registered: " ++ id

/-- The wordings of an error and of the errors that caused it, outermost first. -/
def chain (e : PoolError) : List String :=
  match e with
  | store cause => [e.message, cause.message]
  | _ => [e.message]

def kind : PoolError → String
  | store _ => "Store"
  | alreadyRunning => "AlreadyRunning"
  | shutdownTimeout => "ShutdownTimeout"
  | duplicatePool _ => "DuplicatePool"

end PoolError

end Resumption
