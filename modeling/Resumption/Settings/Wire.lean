import Resumption.Json.Fields
import Resumption.Settings.Basic

/-!
# Settings on the wire

The JSON form of settings. A size is one word and a duration its whole milliseconds modulo
`2 ^ 64`, so writing and reading settings gives them back exactly when every duration is a whole
number of milliseconds below `2 ^ 64`. Readers raise no size: a zero stays a zero.
-/

namespace Resumption

namespace Backoff

def toJson (b : Backoff) : Json :=
  .object [("empty", .ofDuration b.empty), ("partial", .ofDuration b.partly),
    ("full", .ofDuration b.full)]

def fieldNames : List String := ["empty", "partial", "full"]

def ofJson? (j : Json) : Option Backoff := do
  let f ← j.fields? fieldNames
  let empty ← f.required "empty" Json.duration?
  let partly ← f.required "partial" Json.duration?
  let full ← f.required "full" Json.duration?
  return { empty, partly, full }

end Backoff

namespace StorageSettings

def toJson (s : StorageSettings) : Json :=
  .object [("stale_response_removal_timeout", .ofDuration s.responseLifetime),
    ("delete_stale_responses_interval", .ofDuration s.reaperInterval),
    ("queue_update_batch", .ofWord s.promotionBatch),
    ("stale_response_delete_batch", .ofWord s.reaperBatch),
    ("remove_when_finished", .bool s.removeFinished), ("queue_backoff", s.backoff.toJson)]

def fieldNames : List String :=
  ["stale_response_removal_timeout", "delete_stale_responses_interval", "queue_update_batch",
    "stale_response_delete_batch", "remove_when_finished", "queue_backoff"]

def ofJson? (j : Json) : Option StorageSettings := do
  let f ← j.fields? fieldNames
  let responseLifetime ← f.required "stale_response_removal_timeout" Json.duration?
  let reaperInterval ← f.required "delete_stale_responses_interval" Json.duration?
  let promotionBatch ← f.required "queue_update_batch" Json.word?
  let reaperBatch ← f.required "stale_response_delete_batch" Json.word?
  let removeFinished ← f.required "remove_when_finished" Json.bool?
  let backoff ← f.required "queue_backoff" Backoff.ofJson?
  return { responseLifetime, reaperInterval, promotionBatch, reaperBatch, removeFinished, backoff }

end StorageSettings

namespace BatchSettings

def toJson (s : BatchSettings) : Json :=
  .object [("max_batch_size", .ofWord s.maxBatch), ("flush_interval", .ofDuration s.flushInterval),
    ("queue_capacity", .ofWord s.capacity)]

def fieldNames : List String := ["max_batch_size", "flush_interval", "queue_capacity"]

def ofJson? (j : Json) : Option BatchSettings := do
  let f ← j.fields? fieldNames
  let maxBatch ← f.required "max_batch_size" Json.word?
  let flushInterval ← f.required "flush_interval" Json.duration?
  let capacity ← f.required "queue_capacity" Json.word?
  return { maxBatch, flushInterval, capacity }

end BatchSettings

namespace PoolSettings

def toJson (s : PoolSettings) : Json :=
  .object [("pool_id", .string s.id), ("max_concurrency", .ofWord s.concurrency),
    ("dequeue_batch", .ofWord s.claimBatch), ("poll_interval", .ofDuration s.pollInterval),
    ("poll_jitter", .ofDuration s.pollJitter), ("shutdown_timeout", .ofDuration s.drainTimeout)]

def fieldNames : List String :=
  ["pool_id", "max_concurrency", "dequeue_batch", "poll_interval", "poll_jitter",
    "shutdown_timeout"]

def ofJson? (j : Json) : Option PoolSettings := do
  let f ← j.fields? fieldNames
  let id ← f.required "pool_id" Json.string?
  let concurrency ← f.required "max_concurrency" Json.word?
  let claimBatch ← f.required "dequeue_batch" Json.word?
  let pollInterval ← f.required "poll_interval" Json.duration?
  let pollJitter ← f.required "poll_jitter" Json.duration?
  let drainTimeout ← f.required "shutdown_timeout" Json.duration?
  return { id, concurrency, claimBatch, pollInterval, pollJitter, drainTimeout }

end PoolSettings

end Resumption
