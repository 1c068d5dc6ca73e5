import Resumption.Store.Error

/-!
# What a relational database reports

The failures of a client (no connection, nothing found, a protocol broken) and those that the
server reports for a statement. All of them reach the caller as `StoreError.database` with their
wording.
-/

namespace Resumption.Relational

/-- Why the server refused a statement. -/
inductive ServerError where
  /-- A key that must be unique is taken. -/
  | duplicateKey (constraint : String)
  /-- An earlier statement of the transaction failed. -/
  | transactionAborted
  /-- A text holds the character zero. -/
  | zeroInText
  /-- A text inside a JSON value holds the character zero. -/
  | zeroInJson
  /-- A timestamp is outside the range of the server. -/
  | timestampOutOfRange
  deriving DecidableEq, Repr, Inhabited

def ServerError.message : ServerError → String
  | duplicateKey constraint =>
    "duplicate key value violates unique constraint \"" ++ constraint ++ "\""
  | transactionAborted =>
    "current transaction is aborted, commands ignored until end of transaction block"
  | zeroInText => "invalid byte sequence for encoding \"UTF8\": 0x00"
  | zeroInJson => "unsupported Unicode escape sequence"
  | timestampOutOfRange => "timestamp out of range"

/-- Why a statement did not succeed. -/
inductive ClientError where
  | server (cause : ServerError)
  | rowNotFound
  | poolTimedOut
  | poolClosed
  | workerCrashed
  | protocol (detail : String)
  | columnNotFound (name : String)
  | typeNotFound (name : String)
  | configuration (detail : String)
  | transport (detail : String)
  | secureTransport (detail : String)
  | decoding (detail : String)
  | encoding (detail : String)
  /-- A failure while the schema is being brought up to date. -/
  | migrating (cause : ClientError)
  deriving DecidableEq, Repr, Inhabited

namespace ClientError

def message : ClientError → String
  | server cause => "error returned from database: " ++ cause.message
  | rowNotFound => "no rows returned by a query that expected to return at least one row"
  | poolTimedOut => "pool timed out while waiting for an open connection"
  | poolClosed => "attempted to acquire a connection on a closed pool"
  | workerCrashed => "attempted to communicate with a crashed background worker"
  | protocol detail => "encountered unexpected or invalid data: " ++ detail
  | columnNotFound name => "no column found for name: " ++ name
  | typeNotFound name => "type named " ++ name ++ " not found"
  | configuration detail => "error with configuration: " ++ detail
  | transport detail => "error communicating with database: " ++ detail
  | secureTransport detail =>
    "error occurred while attempting to establish a TLS connection: " ++ detail
  | decoding detail => "error occurred while decoding: " ++ detail
  | encoding detail => "error occurred while encoding a value: " ++ detail
  | migrating cause => "while executing migrations: " ++ cause.message

def toStoreError (e : ClientError) : StoreError := .database e.message

end ClientError

end Resumption.Relational
