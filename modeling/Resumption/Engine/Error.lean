import Resumption.Engine.Lifecycle
import Resumption.Pool.Error

/-!
# Why an engine operation fails

An error of the engine keeps the error that caused it. `EngineError.chain` lists the wordings from
the outside in, and `EngineError.full` joins them.
-/

namespace Resumption

/-- Why an engine operation failed. -/
inductive EngineError where
  /-- The engine is not where the operation needs it. -/
  | illegalState (expected actual : Lifecycle)
  /-- A workflow of this type cannot be stored. -/
  | notPersistent (type : String)
  /-- A callback names no correlation id. -/
  | noCorrelationIds
  /-- The engine takes no more work. -/
  | shuttingDown
  /-- No pool has the default id. -/
  | missingDefaultPool
  /-- A component did not start. -/
  | startupFailed (reason : String)
  /-- The instances were not stored. -/
  | runFailed (cause : StoreError)
  /-- The store failed. -/
  | store (cause : StoreError)
  /-- A pool failed. -/
  | pool (cause : PoolError)
  deriving DecidableEq, Repr, Inhabited

namespace EngineError

def message : EngineError → String
  | illegalState expected actual => "engine is " ++ actual.name ++ ", expected " ++ expected.name
  | notPersistent type => "workflow instance of type " ++ type ++ " is not persistent"
  | noCorrelationIds => "at least one correlation id is required"
  | shuttingDown => "engine is shutting down"
  | missingDefaultPool => "default processor pool is not registered"
  | startupFailed reason => "engine startup failed: " ++ reason
  | runFailed cause => "failed to persist workflow instances: " ++ cause.message
  | store cause => "store error: " ++ cause.message
  | pool cause => "pool error: " ++ cause.message

/-- The wordings of an error and of the errors that caused it, outermost first. -/
def chain (e : EngineError) : List String :=
  e.message ::
    match e with
    | runFailed cause => [cause.message]
    | store cause => [cause.message]
    | pool cause => cause.chain
    | _ => []

def full (e : EngineError) : String := String.intercalate ": " e.chain

def kind : EngineError → String
  | illegalState _ _ => "IllegalState"
  | notPersistent _ => "NotPersistent"
  | noCorrelationIds => "NoCorrelationIds"
  | shuttingDown => "ShuttingDown"
  | missingDefaultPool => "MissingDefaultPool"
  | startupFailed _ => "StartupFailed"
  | runFailed _ => "RunFailed"
  | store _ => "Store"
  | pool _ => "Pool"

end EngineError

end Resumption
