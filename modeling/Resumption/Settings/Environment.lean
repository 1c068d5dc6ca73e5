import Resumption.Settings.Basic
import Resumption.Text.Digits

/-!
# Settings from the environment

A variable that is missing or has no readable value leaves its setting as it is. A number is one
ASCII digit or more, with an optional plus sign, and fits in a 64-bit word; a truth value is
`true` or `false`.
-/

namespace Resumption

open Resumption.Text

abbrev Environment := List (String × String)

namespace Environment

def word? (text : String) : Option Nat :=
  let digits :=
    match text.toList with
    | '+' :: rest => rest
    | cs => cs
  (decimal? digits).bind fun n => if n < 18446744073709551616 then some n else none

def truth? : String → Option Bool
  | "true" => some true
  | "false" => some false
  | _ => none

/-- The number that a variable holds, or another one. -/
def word (env : Environment) (name : String) (default : UInt64) : UInt64 :=
  (((env.lookup name).bind word?).map UInt64.ofNat).getD default

/-- The milliseconds that a variable holds, or another duration. -/
def millis (env : Environment) (name : String) (default : Duration) : Duration :=
  (((env.lookup name).bind word?).map Duration.ofMillis).getD default

/-- The truth value that a variable holds, or another one. -/
def truth (env : Environment) (name : String) (default : Bool) : Bool :=
  ((env.lookup name).bind truth?).getD default

end Environment

/-- The settings that the variables of an environment make (`from_env`). -/
def StorageSettings.ofEnvironment (env : Environment) : StorageSettings :=
  let s := StorageSettings.standard
  { s with
    responseLifetime := env.millis "DISPATCH_STALE_RESPONSE_TIMEOUT_MS" s.responseLifetime
    reaperInterval :=
      (env.millis "DISPATCH_STALE_RESPONSE_INTERVAL_MS" s.reaperInterval).max leastReaperInterval
    promotionBatch := env.word "DISPATCH_QUEUE_UPDATE_BATCH" s.promotionBatch
    reaperBatch := env.word "DISPATCH_STALE_RESPONSE_DELETE_BATCH" s.reaperBatch
    removeFinished := env.truth "DISPATCH_REMOVE_WHEN_FINISHED" s.removeFinished }

def PoolSettings.ofEnvironment (id : String) (env : Environment) : PoolSettings :=
  let s := PoolSettings.standard id
  { s with
    concurrency := max (env.word "DISPATCH_POOL_MAX_CONCURRENCY" s.concurrency) 1
    claimBatch := max (env.word "DISPATCH_POOL_DEQUEUE_BATCH" s.claimBatch) 1
    pollInterval := env.millis "DISPATCH_POOL_POLL_INTERVAL_MS" s.pollInterval
    pollJitter := env.millis "DISPATCH_POOL_POLL_JITTER_MS" s.pollJitter
    drainTimeout := env.millis "DISPATCH_POOL_SHUTDOWN_TIMEOUT_MS" s.drainTimeout }

end Resumption
