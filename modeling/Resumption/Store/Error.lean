import Resumption.Uuid

/-!
# Why a store operation fails

The causes, and the one function that words them.
-/

namespace Resumption

/-- Why a store operation failed. -/
inductive StoreError where
  /-- No instance has this id. -/
  | instanceNotFound (id : Uuid)
  /-- The instance is not in the error state, so there is nothing to restart. -/
  | notRestartable (id : Uuid)
  /-- The request itself makes no sense. -/
  | invalidArgument (reason : String)
  /-- The database refused or was not reached. -/
  | database (reason : String)
  /-- A stored or received value has no meaning. -/
  | serialization (reason : String)
  /-- The command writer takes no more commands. -/
  | writerClosed
  deriving DecidableEq, Repr, Inhabited

namespace StoreError

def message : StoreError → String
  | instanceNotFound id => "workflow instance not found: " ++ id.text
  | notRestartable id => "workflow instance " ++ id.text ++ " is not in error state"
  | invalidArgument reason => "invalid argument: " ++ reason
  | database reason => "database error: " ++ reason
  | serialization reason => "serialization error: " ++ reason
  | writerClosed => "command writer is shut down"

def kind : StoreError → String
  | instanceNotFound _ => "InstanceNotFound"
  | notRestartable _ => "NotRestartable"
  | invalidArgument _ => "InvalidArgument"
  | database _ => "Database"
  | serialization _ => "Serialization"
  | writerClosed => "WriterClosed"

end StoreError

end Resumption
