import Resumption.Database.Operation
import Resumption.Settings.Basic

/-!
# The batching writer

Commands stand in line, each under the ticket that its submitter holds. A worker takes the first,
goes on collecting until the batch is full or its window is over, and executes the batch in one
transaction. When that fails it executes each command of the batch in a transaction of its own, so
that a bad command fails alone. Every answer is left under its ticket.

Closing the writer closes the line: what stands in it is still executed, and then the worker ends.
A worker that crashes takes the line with it, and whoever still waits finds the writer closed. A
worker makes room for a full batch before it begins, and crashes if there cannot be so much.

A step of the worker is one transaction or none, so that others can come in between.
-/

namespace Resumption

/-- A command in line (`Submission`). -/
structure Submitted where
  ticket : Nat
  command : Command
  deriving DecidableEq, Repr

/-- What the worker of a batching writer is at. -/
inductive WorkerPhase where
  /-- It waits for a first command. -/
  | idle
  /-- It waits for more commands until a point in time. -/
  | collecting (batch : List Submitted) (due : Nat)
  /-- It is about to execute a batch. -/
  | flushing (batch : List Submitted)
  /-- The batch failed, and these commands remain to be executed one by one. -/
  | retrying (rest : List Submitted)
  | ended
  | broken
  deriving DecidableEq, Repr

/-- A batching writer (`BatchingCommandWriter`). -/
structure Batcher where
  settings : BatchSettings
  closed : Bool
  joined : Bool
  issued : Nat
  queue : List Submitted
  phase : WorkerPhase
  answers : List (Nat × Except StoreError Unit)

namespace Batcher

/-- The size of a batch for which there cannot be room: `2 ^ 63` bytes hold so many entries of 128.
This is an estimate. Entries are somewhat smaller, so the exact limit is a little higher, but no
machine has room for what lies between. -/
def tooMany : Nat := 72057594037927936

/-- A writer that has been told nothing yet. There can be no line for more than `2 ^ 61 - 1`
commands; here one with a larger capacity is made all the same. -/
def create (settings : BatchSettings) : Batcher :=
  { settings, closed := false, joined := false, issued := 0, queue := []
    phase := if tooMany ≤ settings.maxBatch.toNat then .broken else .idle
    answers := [] }

/-- The size of a full batch, at least one. -/
def most (b : Batcher) : Nat := max 1 b.settings.maxBatch.toNat

/-- Puts a command in line and gives its ticket, unless the writer takes no more. -/
def submit (b : Batcher) (c : Command) : Option Nat × Batcher :=
  if b.closed || b.phase == .broken then (none, b)
  else (some b.issued,
    { b with issued := b.issued + 1, queue := b.queue ++ [⟨b.issued, c⟩] })

def close (b : Batcher) : Batcher := { b with closed := true }

/-- The worker is gone. -/
def isOver (b : Batcher) : Bool := b.phase == .ended || b.phase == .broken

def answer? (b : Batcher) (ticket : Nat) : Option (Except StoreError Unit) :=
  b.answers.lookup ticket

def acknowledge (b : Batcher) (batch : List Submitted) (answer : Except StoreError Unit) :
    Batcher :=
  { b with answers := b.answers ++ batch.map fun s => (s.ticket, answer) }

/-- Throws away an answer that was received. -/
def forget (b : Batcher) (ticket : Nat) : Batcher :=
  { b with answers := b.answers.filter fun a => a.1 ≠ ticket }

/-- Fills a batch from the line. -/
def fill (b : Batcher) (batch : List Submitted) (due : Nat) : Batcher :=
  let taken := batch ++ b.queue.take (b.most - batch.length)
  { b with
    queue := b.queue.drop (b.most - batch.length)
    phase := if b.most ≤ taken.length then .flushing taken else .collecting taken due }

/-- The worker crashed over a batch: those in it and those in line will not be executed. -/
def crash (b : Batcher) (batch : List Submitted) : Batcher :=
  { b.acknowledge (batch ++ b.queue) (.error .writerClosed) with queue := [], phase := .broken }

/-- The phase in which single commands remain to be executed. -/
def remaining : List Submitted → WorkerPhase
  | [] => .idle
  | rest => .retrying rest

/-- The worker can go on; `free` says that no transaction is held open. -/
def ready (b : Batcher) (time : Nat) (free : Bool) : Bool :=
  match b.phase with
  | .idle => !b.queue.isEmpty || b.closed
  | .collecting _ due => !b.queue.isEmpty || b.closed || due ≤ time
  | .flushing _ => free
  | .retrying _ => free
  | .ended => false
  | .broken => false

/-- When the worker goes on at the latest, if a clock decides that. -/
def due? (b : Batcher) : Option Nat :=
  match b.phase with
  | .collecting _ due => some due
  | _ => none

/-- A step of the worker (`flush_loop`), cut before each transaction of a batch (`flush`). -/
def step (a : Access) (time : Nat) (b : Batcher) (d : Database) : Batcher × Database :=
  match b.phase with
  | .idle =>
    if b.queue.isEmpty then ({ b with phase := .ended }, d)
    else (b.fill [] (time + b.settings.flushInterval.nanos), d)
  | .collecting batch due =>
    if b.queue.isEmpty then ({ b with phase := .flushing batch }, d)
    else (b.fill batch due, d)
  | .flushing batch =>
    match (Work.transact (Work.executeAll a (batch.map (·.command)))).on d with
    | (.ok (), d) => ({ b.acknowledge batch (.ok ()) with phase := .idle }, d)
    | (.error (.refused _), d) =>
      ({ b with phase := remaining batch },
        d.tell (.warning "command batch failed, retrying commands one by one"))
    | (.error (.crashed _), d) => (b.crash batch, d)
  | .retrying [] => ({ b with phase := .idle }, d)
  | .retrying (s :: rest) =>
    match (Work.transact (Work.executeAll a [s.command])).on d with
    | (.ok (), d) => ({ b.acknowledge [s] (.ok ()) with phase := remaining rest }, d)
    | (.error (.refused e), d) => ({ b.acknowledge [s] (.error e) with phase := remaining rest }, d)
    | (.error (.crashed _), d) => (b.crash (s :: rest), d)
  | .ended => (b, d)
  | .broken => (b, d)

end Batcher

end Resumption
