import Resumption.Script.Notation
import Resumption.Settings.Basic

/-!
# Settings in the short notation

Settings as a person writes them: whatever is left out has its standard value, and nothing is
raised to a least value.
-/

namespace Resumption.Notation

def durationD (j : Json) (name : String) (default : Duration) : Duration :=
  (duration? j name).getD default

def wordD (j : Json) (name : String) (default : UInt64) : UInt64 :=
  ((member j name).word?).getD default

def backoff (j : Json) : Backoff :=
  let b := Backoff.standard
  ⟨durationD j "empty" b.empty, durationD j "partial" b.partly, durationD j "full" b.full⟩

def storageSettings (j : Json) : StorageSettings :=
  let b := StorageSettings.standard
  { responseLifetime := durationD j "stale_response_removal_timeout" b.responseLifetime
    reaperInterval := durationD j "delete_stale_responses_interval" b.reaperInterval
    promotionBatch := wordD j "queue_update_batch" b.promotionBatch
    reaperBatch := wordD j "stale_response_delete_batch" b.reaperBatch
    removeFinished := ((member j "remove_when_finished").bool?).getD b.removeFinished
    backoff := backoff (member j "queue_backoff") }

def batchSettings (j : Json) : BatchSettings :=
  let b := BatchSettings.standard
  ⟨wordD j "max_batch_size" b.maxBatch, durationD j "flush_interval" b.flushInterval,
    wordD j "queue_capacity" b.capacity⟩

/-- Settings of a pool, which waits without a random part unless told otherwise. -/
def poolSettings (j : Json) : PoolSettings :=
  let b := PoolSettings.standard (textD j "id" Workflow.defaultPool)
  { b with
    concurrency := wordD j "max_concurrency" b.concurrency
    claimBatch := wordD j "dequeue_batch" b.claimBatch
    pollInterval := durationD j "poll_interval" b.pollInterval
    pollJitter := durationD j "poll_jitter" .zero
    drainTimeout := durationD j "shutdown_timeout" b.drainTimeout }

end Resumption.Notation
