import Resumption.Engine.Runner
import Resumption.Pool.Error

/-!
# Processor pools

A pool has as many slots as it may run instances at once. Its poll loop takes free slots, at most a
batch of them, claims as many instances, gives each claimed instance a slot and a dispatch, and
puts the other slots back. After a full claim it claims again as soon as a slot is free; otherwise
it rests until it is woken or its interval is over. A slot is free again when its dispatch ends.

Stopping a pool first ends its loop and then waits for the dispatches. Those that are not done when
the time for draining is over are cancelled where they stand; their instances stay claimed.
-/

namespace Resumption

/-- Where a pool stands in its life. -/
inductive PoolStatus where
  | idle
  | running
  | draining
  | stopped
  deriving DecidableEq, Repr, Inhabited

def PoolStatus.name : PoolStatus → String
  | idle => "Idle"
  | running => "Running"
  | draining => "Draining"
  | stopped => "Stopped"

/-- What the poll loop is at. -/
inductive PollPhase where
  | absent
  /-- It wants a free slot. -/
  | seeking
  /-- It holds slots and wants to claim as many instances. -/
  | claiming (slots : Nat)
  | resting (due : Nat)
  | ended
  | broken
  deriving DecidableEq, Repr, Inhabited

/-- What follows when the outcome of a dispatch is written. -/
inductive Settlement where
  | plain
  /-- A callback that cannot be written becomes a failure of the instance. -/
  | suspension (w : Workflow)

/-- Where a dispatch is. -/
inductive DispatchPhase where
  | fresh
  | running (r : Run)
  | pausing (due : Nat) (next : Run)
  | asking (p : AskPhase) (next : Answer → Run)
  | settling (p : Storage.Phase) (s : Settlement)

def DispatchPhase.isFresh : DispatchPhase → Bool
  | fresh => true
  | _ => false

/-- One claimed instance on its way, under a number of its own. -/
structure Dispatch where
  serial : Nat
  workflow : Workflow
  phase : DispatchPhase
  /-- It found an engine when it began, and holds it. -/
  engaged : Bool

/-- A processor pool (`PersistentProcessorPool`). -/
structure Pool where
  settings : PoolSettings
  /-- The pool knows its engine. -/
  attached : Bool
  status : PoolStatus
  free : Nat
  woken : Bool
  /-- The poll loop is to end. -/
  cancelled : Bool
  /-- The dispatches are to end. -/
  aborting : Bool
  poll : PollPhase
  issued : Nat
  dispatches : List Dispatch

namespace Pool

/-- A pool that is not started. No pool can have more than `2 ^ 61 - 1` slots; here one with more is
made all the same. -/
def create (settings : PoolSettings) : Pool :=
  let settings := settings.clamped
  { settings, attached := false, status := .idle, free := settings.concurrency.toNat, woken := false
    cancelled := false, aborting := false, poll := .absent, issued := 0, dispatches := [] }

def slots (p : Pool) : Nat := p.settings.concurrency.toNat

/-- The number of slots that are not free. -/
def load (p : Pool) : Nat := p.slots - p.free

/-- Tells the pool that there may be work (`do_notify`). -/
def wake (p : Pool) : Pool := { p with woken := true }

def start (p : Pool) : Except PoolError Pool :=
  if p.status = .running ∨ p.status = .draining then .error .alreadyRunning
  else .ok { p with status := .running, cancelled := false, aborting := false, poll := .seeking }

/-! ## The poll loop -/

/-- The poll loop can go on; `unlocked` says that no transaction is held open. -/
def pollReady (p : Pool) (time : Nat) (unlocked : Bool) : Bool :=
  match p.poll with
  | .seeking => p.cancelled || 0 < p.free
  | .claiming _ => unlocked
  | .resting due => p.cancelled || p.woken || due ≤ time
  | _ => false

/-- Takes free slots, at most a batch. -/
def takeSlots (p : Pool) : Pool :=
  let n := min p.free p.settings.claimBatch.toNat
  { p with free := p.free - n, poll := .claiming n }

/-- Gives claimed instances a slot and a dispatch each. -/
def dispatchAll (p : Pool) (ws : List Workflow) : Pool :=
  { p with
    issued := p.issued + ws.length
    dispatches := p.dispatches ++ ws.mapIdx fun i w => ⟨p.issued + i, w, .fresh, false⟩ }

/-- Goes on after a claim with this many slots. -/
def afterClaim (p : Pool) (time slots : Nat) (ws : List Workflow) : Pool :=
  let p := { p.dispatchAll ws with free := p.free + (slots - ws.length) }
  if ws.length = slots then { p with poll := .seeking }
  else { p with poll := .resting (time + p.settings.pollInterval.nanos) }

/-- A step of the poll loop (`poll_loop`). One that may choose between ending and going on, because it
is told to end while it has a slot or is woken or due, ends here; it may just as well go on first. -/
def stepPoll (time : Nat) (p : Pool) (s : Storage) (d : Database) : Pool × Storage × Database :=
  match p.poll with
  | .seeking => (if p.cancelled then { p with poll := .ended } else p.takeSlots, s, d)
  | .claiming n =>
    match s.state d (.claim p.settings.id n) with
    | (.claimed ws, s, d) => (p.afterClaim time n ws, s, d)
    | (.crashed _, s, d) => ({ p with free := p.free + n, poll := .broken }, s, d)
    | (_, s, d) => (p.afterClaim time n [], s, d.tell (.fault "dequeue failed"))
  | .resting _ =>
    if p.cancelled then ({ p with poll := .ended }, s, d)
    else ({ p with poll := .seeking, woken := false }, s, d)
  | _ => (p, s, d)

/-! ## Dispatches -/

def dispatch? (p : Pool) (serial : Nat) : Option Dispatch :=
  p.dispatches.find? fun d => d.serial == serial

/-- A dispatch goes on in another phase. When it begins it holds the engine, if one is found. -/
def setPhase (p : Pool) (serial : Nat) (found : Bool) (phase : DispatchPhase) : Pool :=
  { p with dispatches := p.dispatches.map fun d =>
      if d.serial = serial then
        { d with phase, engaged := d.engaged || (found && d.phase.isFresh) }
      else d }

def runs (p : Pool) : Bool := p.dispatches.any Dispatch.engaged

def endDispatch (p : Pool) (serial : Nat) : Pool :=
  { p with
    free := p.free + p.dispatches.countP fun d => d.serial == serial
    dispatches := p.dispatches.filter fun d => d.serial ≠ serial }

/-! ## Stopping -/

/-- Where the stopping of a pool is. -/
inductive Stopping where
  | awaitingPoll
  | awaitingDispatches (due : Nat)
  | awaitingAborted
  deriving DecidableEq, Repr

/-- Stopping either goes on or is over. -/
inductive StopProgress where
  | going (p : Stopping)
  | over (r : Except PoolError Unit)

/-- Begins to stop (`shutdown`). A pool that does not run is stopped as it is. -/
def beginStop (p : Pool) : StopProgress × Pool :=
  if p.status = .running then
    (.going .awaitingPoll, { p with status := .draining, cancelled := true })
  else (.over (.ok ()), p)

def stopReady (p : Pool) (time : Nat) : Stopping → Bool
  | .awaitingPoll => p.poll == .absent || p.poll == .ended || p.poll == .broken
  | .awaitingDispatches due => p.dispatches.isEmpty || due ≤ time
  | .awaitingAborted => p.dispatches.isEmpty

def advanceStop (time : Nat) (p : Pool) (d : Database) :
    Stopping → StopProgress × Pool × Database
  | .awaitingPoll =>
    (.going (.awaitingDispatches (time + p.settings.drainTimeout.nanos)),
      { p with poll := .absent },
      if p.poll = .broken then d.tell (.fault "poll loop terminated abnormally") else d)
  | .awaitingDispatches _ =>
    if p.dispatches.isEmpty then (.over (.ok ()), { p with status := .stopped }, d)
    else (.going .awaitingAborted, { p with aborting := true },
      d.tell (.warning "shutdown timeout reached, canceling running instances"))
  | .awaitingAborted => (.over (.error .shutdownTimeout), { p with status := .stopped }, d)

/-- When stopping goes on at the latest, if a clock decides that. -/
def Stopping.due? : Stopping → Option Nat
  | .awaitingDispatches due => some due
  | _ => none

/-- When the poll loop or a dispatch goes on at the latest, if a clock decides that. -/
def dues (p : Pool) : List Nat :=
  (match p.poll with
    | .resting due => [due]
    | _ => []) ++
  p.dispatches.filterMap fun d =>
    match d.phase with
    | .pausing due _ => some due
    | _ => none

end Pool

end Resumption
