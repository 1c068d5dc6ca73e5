import Resumption.Engine.Error
import Resumption.Registry
import Resumption.Relational.Error
import Resumption.Script.Notation

/-!
# A short notation for errors

An error is named by its kind, with an argument or an inner error where the kind has one. A kind
with a colon names, after the colon, a failure of a database client, which a store reports as its
own.
-/

namespace Resumption.Notation

def clientError (kind arg : String) : Relational.ClientError :=
  match kind with
  | "RowNotFound" => .rowNotFound
  | "PoolTimedOut" => .poolTimedOut
  | "PoolClosed" => .poolClosed
  | "WorkerCrashed" => .workerCrashed
  | "ColumnNotFound" => .columnNotFound arg
  | "TypeNotFound" => .typeNotFound arg
  | "Configuration" => .configuration arg
  | "Io" => .transport arg
  | "Tls" => .secureTransport arg
  | "Decode" => .decoding arg
  | "Encode" => .encoding arg
  | _ => .protocol arg

def storeError (j : Json) : StoreError :=
  let arg := textD j "arg" ""
  let kind := textD j "kind" ""
  match kind with
  | "InstanceNotFound" => .instanceNotFound (uuidD j "arg")
  | "NotRestartable" => .notRestartable (uuidD j "arg")
  | "InvalidArgument" => .invalidArgument arg
  | "Serialization" => .serialization arg
  | "WriterClosed" => .writerClosed
  | _ =>
    match kind.splitOn ":" with
    | [_, client] => (clientError client arg).toStoreError
    | _ => .database arg

def poolError (j : Json) : PoolError :=
  match textD j "kind" "" with
  | "Store" => .store (storeError (member j "inner"))
  | "AlreadyRunning" => .alreadyRunning
  | "ShutdownTimeout" => .shutdownTimeout
  | _ => .duplicatePool (textD j "arg" "")

/-- A phase of an engine, raw if left out. -/
def lifecycle (j : Json) (name : String) : Lifecycle :=
  ((text? j name).bind Lifecycle.ofName?).getD .raw

def engineError (j : Json) : EngineError :=
  let arg := textD j "arg" ""
  match textD j "kind" "" with
  | "IllegalState" => .illegalState (lifecycle j "expected") (lifecycle j "actual")
  | "NotPersistent" => .notPersistent arg
  | "NoCorrelationIds" => .noCorrelationIds
  | "ShuttingDown" => .shuttingDown
  | "MissingDefaultPool" => .missingDefaultPool
  | "StartupFailed" => .startupFailed arg
  | "RunFailed" => .runFailed (storeError (member j "inner"))
  | "Store" => .store (storeError (member j "inner"))
  | _ => .pool (poolError (member j "inner"))

def registryError (j : Json) : RegistryError :=
  match textD j "kind" "" with
  | "Empty" => .empty
  | _ => .failed (textD j "arg" "")

/-- The texts of an error and of what caused it, by the layer that it arose in. -/
def errorChain (j : Json) : List String :=
  match textD j "layer" "" with
  | "store" => [(storeError j).message]
  | "pool" => (poolError j).chain
  | "engine" => (engineError j).chain
  | _ => [(registryError j).message]

end Resumption.Notation
