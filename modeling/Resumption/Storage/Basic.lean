import Resumption.Storage.Batcher

/-!
# Storage

The state of one engine's storage: on whose behalf it works, its settings and writer, and its two
background loops. The queue updater makes due instances ready, again and again, and rests between
two passes for as long as the last pass says; new work wakes it. The reaper discards expired
responses, pass after pass until one comes back short, once in each period.
-/

namespace Resumption

/-- What the queue updater is at. -/
inductive UpdaterPhase where
  | absent
  | passing
  /-- It rests no time at all and only lets others go first. -/
  | yielding
  | resting (due : Nat)
  | ended
  | broken
  deriving DecidableEq, Repr, Inhabited

/-- What the reaper is at. While it sweeps it knows when its next period starts. -/
inductive ReaperPhase where
  | absent
  | resting (due : Nat)
  | sweeping (next : Nat)
  | ended
  | broken
  deriving DecidableEq, Repr, Inhabited

/-- The storage of an engine (`PersistentStorage`). Without a batcher every command has a
transaction of its own. -/
structure Storage where
  access : Access
  settings : StorageSettings
  batcher : Option Batcher
  monitored : Bool
  started : Bool
  stopped : Bool
  woken : Bool
  updater : UpdaterPhase
  reaper : ReaperPhase

namespace Storage

def create (engine : String) (settings : StorageSettings) (batch : Option BatchSettings)
    (monitored : Bool) : Storage :=
  { access := ⟨engine, settings.removeFinished⟩, settings, batcher := batch.map .create, monitored
    started := false, stopped := false, woken := false, updater := .absent, reaper := .absent }

def setRemove (s : Storage) (remove : Bool) : Storage :=
  { s with access := { s.access with removeFinished := remove } }

/-- No loop runs. -/
def loopsOver (s : Storage) : Bool :=
  (s.updater == .absent || s.updater == .ended || s.updater == .broken) &&
    (s.reaper == .absent || s.reaper == .ended || s.reaper == .broken)

/-- Watches the storage from now on, which cannot be asked for while a loop runs. -/
def watch (s : Storage) (d : Database) : Storage × Database :=
  if s.loopsOver then ({ s with monitored := true }, d)
  else (s, d.tell (.warning "monitor ignored: storage already shared"))

def wake (s : Storage) : Storage := { s with woken := true }

/-- The most that one pass of the queue updater makes ready, at least one. -/
def ceiling (s : Storage) : Nat := max 1 s.settings.promotionBatch.toNat

/-- The most that one sweep discards, at least one. -/
def sweepBatch (s : Storage) : Nat := max 1 s.settings.reaperBatch.toNat

/-- The period of the reaper, at least a millisecond. -/
def period (s : Storage) : Nat :=
  (s.settings.reaperInterval.max StorageSettings.leastReaperInterval).nanos

def report (s : Storage) (d : Database) (events : List Event) : Database :=
  if s.monitored then d.tellAll events else d

/-- Tells a milestone of an instance that has an id. -/
def pass (s : Storage) (d : Database) (m : Milestone) (w : Workflow) : Database :=
  match w.id with
  | some id => s.report d [.passed m id w.type]
  | none => d

/-- Settles the lifetime of a response that sets none. -/
def settle (s : Storage) (r : Response) : Response := r.settle s.settings.responseLifetime

/-! ## Loops -/

/-- The queue updater can go on; `free` says that no transaction is held open. -/
def updaterReady (s : Storage) (time : Nat) (free : Bool) : Bool :=
  match s.updater with
  | .passing => free
  | .yielding => true
  | .resting due => s.stopped || s.woken || due ≤ time
  | _ => false

/-- What the queue updater does after a pass and the rest it asks for. -/
def afterPass (s : Storage) (time : Nat) (rest : Duration) : UpdaterPhase :=
  if rest.nanos = 0 then if s.stopped then .ended else .yielding else .resting (time + rest.nanos)

/-- A step of the queue updater (`spawn_queue_updater`). One that rests when the storage is stopped
ends here; if it is due or woken as well, it may just as well make one more pass first. -/
def stepUpdater (time : Nat) (s : Storage) (d : Database) : Storage × Database :=
  match s.updater with
  | .passing =>
    match (Work.transact (Work.promote s.ceiling)).on d with
    | (.ok n, d) =>
      ({ s with updater := s.afterPass time (s.settings.backoff.delayFor n s.ceiling) },
        s.report d [.measured "update_queue_state" n])
    | (.error (.refused _), d) =>
      ({ s with updater := s.afterPass time s.settings.backoff.empty },
        d.tell (.fault "queue update failed"))
    | (.error (.crashed _), d) => ({ s with updater := .broken }, d)
  | .yielding => ({ s with updater := .passing }, d)
  | .resting _ =>
    if s.stopped then ({ s with updater := .ended }, d)
    else ({ s with updater := .passing, woken := false }, d)
  | _ => (s, d)

/-- What a sweep came to. -/
inductive Sweep where
  | more
  | over
  | crashed (message : String)
  deriving DecidableEq, Repr

/-- One transaction of a sweep (`delete_stale_responses`). There is more to do when it found as much
as it may take and nobody stopped it. -/
def sweepOnce (s : Storage) (d : Database) : Sweep × Database :=
  match (Work.transact (Work.sweep s.sweepBatch)).on d with
  | (.ok n, d) =>
    (if n < s.sweepBatch || s.stopped then .over else .more,
      s.report d [.measured "delete_stale_responses" n])
  | (.error (.refused _), d) => (.over, d.tell (.fault "failed to delete stale responses"))
  | (.error (.crashed m), d) => (.crashed m, d)

/-- The reaper can go on; `free` says that no transaction is held open. -/
def reaperReady (s : Storage) (time : Nat) (free : Bool) : Bool :=
  match s.reaper with
  | .resting due => s.stopped || due ≤ time
  | .sweeping _ => free
  | _ => false

/-- A step of the reaper (`spawn_stale_response_reaper`). A period counts from the start of the
sweep. One that rests when the storage is stopped ends here; if it is due as well, it may just as
well sweep once more first. -/
def stepReaper (time : Nat) (s : Storage) (d : Database) : Storage × Database :=
  match s.reaper with
  | .resting _ =>
    if s.stopped then ({ s with reaper := .ended }, d)
    else ({ s with reaper := .sweeping (time + s.period) }, d)
  | .sweeping next =>
    match s.sweepOnce d with
    | (.more, d) => (s, d)
    | (.over, d) => ({ s with reaper := .resting next }, d)
    | (.crashed _, d) => ({ s with reaper := .broken }, d)
  | _ => (s, d)

/-- A period that a clock cannot count: `2 ^ 63` seconds. -/
def endless : Nat := 9223372036854775808000000000

/-- Starts both loops. A reaper with a period that a clock cannot count breaks down at once. -/
def spawnLoops (s : Storage) (time : Nat) : Storage :=
  { s with
    updater := .passing
    reaper := if endless ≤ s.period then .broken else .resting (time + s.period) }

/-- When a loop or the writer goes on at the latest, if a clock decides that. -/
def dues (s : Storage) : List Nat :=
  (match s.updater with
    | .resting due => [due]
    | _ => []) ++
  (match s.reaper with
    | .resting due => [due]
    | _ => []) ++
  (s.batcher.bind Batcher.due?).toList

end Storage

end Resumption
