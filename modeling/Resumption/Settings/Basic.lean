import Resumption.Time.Duration

/-!
# Settings

What a storage, a batching writer and a pool can be told. Sizes are 64-bit words. The `with`
functions keep every size that a loop divides its work by at one or more, and the interval of the
reaper at a millisecond or more, for a period of zero cannot drive a clock.
-/

namespace Resumption

/-- How long the queue updater rests after a pass (`QueueBackoff`). -/
structure Backoff where
  empty : Duration
  partly : Duration
  full : Duration
  deriving DecidableEq, Repr

namespace Backoff

/-- Two seconds after an empty pass, one after a partial one, none after a full one. -/
def standard : Backoff := ⟨.ofSecs 2, .ofSecs 1, .zero⟩

instance : Inhabited Backoff := ⟨standard⟩

/-- The rest after a pass that promoted so many of at most `ceiling` instances (`delay_for`). -/
def delayFor (b : Backoff) (promoted ceiling : Nat) : Duration :=
  if promoted = 0 then b.empty else if ceiling ≤ promoted then b.full else b.partly

end Backoff

structure StorageSettings where
  responseLifetime : Duration
  reaperInterval : Duration
  promotionBatch : UInt64
  reaperBatch : UInt64
  removeFinished : Bool
  backoff : Backoff
  deriving DecidableEq, Repr

namespace StorageSettings

/-- The shortest period of the reaper. -/
def leastReaperInterval : Duration := .ofMillis 1

/-- The settings of a storage that is told nothing. -/
def standard : StorageSettings :=
  { responseLifetime := .ofSecs 3600, reaperInterval := .ofSecs 3600, promotionBatch := 5000
    reaperBatch := 20000, removeFinished := false, backoff := .standard }

instance : Inhabited StorageSettings := ⟨standard⟩

def withResponseLifetime (s : StorageSettings) (d : Duration) : StorageSettings :=
  { s with responseLifetime := d }

/-- Sets the period of the reaper, at least a millisecond. -/
def withReaperInterval (s : StorageSettings) (d : Duration) : StorageSettings :=
  { s with reaperInterval := d.max leastReaperInterval }

/-- Sets how many instances one pass promotes, at least one. -/
def withPromotionBatch (s : StorageSettings) (n : UInt64) : StorageSettings :=
  { s with promotionBatch := max n 1 }

def withRemoveFinished (s : StorageSettings) (remove : Bool) : StorageSettings :=
  { s with removeFinished := remove }

def withBackoff (s : StorageSettings) (b : Backoff) : StorageSettings := { s with backoff := b }

end StorageSettings

structure BatchSettings where
  maxBatch : UInt64
  flushInterval : Duration
  capacity : UInt64
  deriving DecidableEq, Repr

namespace BatchSettings

/-- The settings of a writer that is told nothing. -/
def standard : BatchSettings := ⟨100, .ofMillis 10, 10000⟩

instance : Inhabited BatchSettings := ⟨standard⟩

def withMaxBatch (s : BatchSettings) (n : UInt64) : BatchSettings := { s with maxBatch := max n 1 }

def withFlushInterval (s : BatchSettings) (d : Duration) : BatchSettings :=
  { s with flushInterval := d }

end BatchSettings

structure PoolSettings where
  id : String
  concurrency : UInt64
  claimBatch : UInt64
  pollInterval : Duration
  pollJitter : Duration
  drainTimeout : Duration
  deriving DecidableEq, Repr

namespace PoolSettings

/-- The settings of a pool that is told only its id. -/
def standard (id : String) : PoolSettings :=
  { id, concurrency := 10, claimBatch := 100, pollInterval := .ofSecs 1, pollJitter := .ofMillis 5
    drainTimeout := .ofSecs 30 }

instance : Inhabited PoolSettings := ⟨standard ""⟩

/-- Sets how many dispatches may run at once, at least one. -/
def withConcurrency (s : PoolSettings) (n : UInt64) : PoolSettings :=
  { s with concurrency := max n 1 }

/-- Sets how many instances one claim may take, at least one. -/
def withClaimBatch (s : PoolSettings) (n : UInt64) : PoolSettings :=
  { s with claimBatch := max n 1 }

def withPollInterval (s : PoolSettings) (d : Duration) : PoolSettings :=
  { s with pollInterval := d }

def withPollJitter (s : PoolSettings) (d : Duration) : PoolSettings := { s with pollJitter := d }

def withDrainTimeout (s : PoolSettings) (d : Duration) : PoolSettings :=
  { s with drainTimeout := d }

/-- The settings that a pool works with: both sizes are at least one. -/
def clamped (s : PoolSettings) : PoolSettings :=
  (s.withConcurrency s.concurrency).withClaimBatch s.claimBatch

end PoolSettings

end Resumption
