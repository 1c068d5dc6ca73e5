import Resumption.Storage.Basic

/-!
# Calls of a storage

A call comes to the storage, goes through phases and ends with a reply. What lies between two
phases happens at once; a phase is a place where the caller may have to wait, for the one
transaction that somebody holds open, for its answer from the writer, or for a loop to end. A
caller that gives up in a phase leaves the storage as it is then.

Finishing an instance and recording its failure never fail for the caller. What cannot be written
is told to the journal: a finish that cannot be written is recorded as a failure of the instance,
and a failure that cannot be recorded is left at that.
-/

namespace Resumption

namespace Storage

/-- What can be asked of a storage. -/
inductive Call where
  | start
  | stop
  | insert (ws : List Workflow)
  | claim (pool : String) (most : Nat)
  | load (id : Uuid)
  | suspend (w : Workflow)
  | fail (w : Workflow) (cause : String)
  | finish (w : Workflow)
  | restart (id : Uuid)
  | restartAll
  | notify (r : Response)
  | notifyAll (rs : List Response)
  /-- Hands a command to the writer. -/
  | submit (c : Command)
  /-- Closes the writer and waits until it is done. -/
  | closeWriter

/-- What a storage answers. -/
inductive Reply where
  | done
  | claimed (ws : List Workflow)
  | loaded (w : Option Workflow)
  | suspended (w : Workflow)
  | counted (n : Nat)
  | refused (e : StoreError)
  /-- The caller does not live to see an answer. -/
  | crashed (message : String)

/-- A statement that has a transaction of its own. -/
inductive Statement where
  | insert (ws : List Workflow)
  | claim (pool : String) (most : Nat)
  | load (id : Uuid)
  | restart (id : Uuid)
  | restartAll
  | notify (rs : List Response)

/-- What a command is written for. -/
inductive Purpose where
  | plain
  | suspend (w : Workflow)
  | fail (w : Workflow)
  | finish (w : Workflow)

/-- A command on its way through the writer. -/
inductive Passage where
  /-- It is to be executed in a transaction of its own. -/
  | alone (c : Command)
  /-- It stands in line or is being executed. -/
  | inLine (ticket : Nat)
  deriving DecidableEq

/-- Where a call is. -/
inductive Phase where
  | stating (s : Statement)
  | writing (p : Purpose) (c : Passage)
  /-- Discards expired responses before the start. -/
  | sweeping
  /-- Makes ready again what an earlier life of the engine left running. -/
  | recovering
  /-- Waits for the worker of the writer, for stopping or only for closing the writer. -/
  | draining (stopping : Bool)
  /-- Waits for the loops. -/
  | joining

/-- A call either goes on in a phase or is over. -/
inductive Progress where
  | going (p : Phase)
  | over (r : Reply)

def Reply.ofUnit : Except Failure Unit → Reply
  | .ok () => .done
  | .error (.refused e) => .refused e
  | .error (.crashed m) => .crashed m

def Reply.ofFailure : Failure → Reply
  | .refused e => .refused e
  | .crashed m => .crashed m

/-- Brings a command to the writer (`submit`), which may take no more. -/
def enter (s : Storage) (c : Command) : Option Passage × Storage :=
  match s.batcher with
  | none => (some (.alone c), s)
  | some b =>
    let (ticket, b) := b.submit c
    (ticket.map .inLine, { s with batcher := some b })

/-- What follows when a failure was recorded or not. -/
def failWritten (s : Storage) (d : Database) (w : Workflow) : Except StoreError Unit → Database
  | .ok () => s.pass d .error w
  | .error _ => d.tell (.fault "failed to record workflow error")

def beginFail (s : Storage) (d : Database) (w : Workflow) (cause : String) :
    Progress × Storage × Database :=
  match w.id with
  | none => (.over .done, s, d.tell (.fault "cannot record error: instance has no id"))
  | some id =>
    match s.enter (.fail id cause) with
    | (some passage, s) => (.going (.writing (.fail w) passage), s, d)
    | (none, s) => (.over .done, s, s.failWritten d w (.error .writerClosed))

/-- What follows on the answer to a command. -/
def acknowledge (s : Storage) (d : Database) :
    Purpose → Except StoreError Unit → Progress × Storage × Database
  | .plain, .ok () => (.over .done, s, d)
  | .plain, .error e => (.over (.refused e), s, d)
  | .suspend w, .ok () =>
    let w := { w with callback := none, stage := .waiting }
    (.over (.suspended w), s, s.pass d .waiting w)
  | .suspend _, .error e => (.over (.refused e), s, d)
  | .fail w, result => (.over .done, s, s.failWritten d w result)
  | .finish w, .ok () => (.over .done, s, s.pass d .finished w)
  | .finish w, .error e =>
    s.beginFail (d.tell (.fault "failed to finish workflow instance")) w
      ("finish failed: " ++ e.message)

def beginWrite (s : Storage) (d : Database) (p : Purpose) (c : Command) :
    Progress × Storage × Database :=
  match s.enter c with
  | (some passage, s) => (.going (.writing p passage), s, d)
  | (none, s) => s.acknowledge d p (.error .writerClosed)

/-- Takes a call in, up to where its caller may have to wait. -/
def begin (s : Storage) (d : Database) : Call → Progress × Storage × Database
  | .start =>
    if s.started then (.over .done, s, d.tell (.warning "storage already started"))
    else (.going .sweeping, { s with started := true }, d)
  | .stop =>
    if s.stopped then (.over .done, s, d)
    else (.going (.draining true),
      { s with stopped := true, batcher := s.batcher.map Batcher.close }, d)
  | .insert [] => (.over .done, s, d)
  | .insert ws => (.going (.stating (.insert ws)), s, d)
  | .claim pool most =>
    if most = 0 then (.over (.claimed []), s, d)
    else (.going (.stating (.claim pool most)), s, d)
  | .load id => (.going (.stating (.load id)), s, d)
  | .suspend w =>
    match w.callback with
    | none => (.over (.refused (.invalidArgument "instance has no register call")), s, d)
    | some c => s.beginWrite d (.suspend w) (.suspend c w.payload)
  | .fail w cause => s.beginFail d w cause
  | .finish w =>
    match w.id with
    | none => (.over .done, s, d.tell (.fault "cannot finish: instance has no id"))
    | some id => s.beginWrite d (.finish w) (.finish id)
  | .restart id => (.going (.stating (.restart id)), s, d)
  | .restartAll => (.going (.stating .restartAll), s, d)
  | .notify r => s.beginWrite d .plain (.notify (s.settle r))
  | .notifyAll rs => (.going (.stating (.notify (rs.map s.settle))), s, d)
  | .submit c => s.beginWrite d .plain c
  | .closeWriter =>
    (.going (.draining false), { s with batcher := s.batcher.map Batcher.close }, d)

/-- A call can go on from a phase; `free` says that no transaction is held open. -/
def ready (s : Storage) (free : Bool) : Phase → Bool
  | .stating _ => free
  | .writing _ (.alone _) => free
  | .writing _ (.inLine ticket) => (s.batcher.bind fun b => b.answer? ticket).isSome
  | .sweeping => free
  | .recovering => free
  | .draining _ => (s.batcher.map fun b => b.joined || b.isOver).getD true
  | .joining => s.loopsOver

def state (s : Storage) (d : Database) : Statement → Reply × Storage × Database
  | .insert ws =>
    match (Work.transact (Work.insert ws)).on d with
    | (.ok (), d) => (.done, s.wake, s.report d [.measured "insert" ws.length])
    | (.error e, d) => (.ofFailure e, s, d)
  | .claim pool most =>
    match (Work.transact (Work.claim s.access pool most)).on d with
    | (.ok ws, d) =>
      (.claimed ws, s, ws.foldl (fun d w => s.pass d .dequeued w)
        (s.report d [.measured "dequeue" ws.length]))
    | (.error e, d) => (.ofFailure e, s, d)
  | .load id =>
    match (Work.transact (Work.load id)).on d with
    | (.ok w, d) => (.loaded w, s, d)
    | (.error e, d) => (.ofFailure e, s, d)
  | .restart id =>
    match (Work.transact (Work.restart id)).on d with
    | (.ok (), d) => (.done, s.wake, d)
    | (.error e, d) => (.ofFailure e, s, d)
  | .restartAll =>
    match (Work.transact Work.restartAll).on d with
    | (.ok n, d) => (.counted n, s, d)
    | (.error e, d) => (.ofFailure e, s, d)
  | .notify rs =>
    let (r, d) := (Work.transact (Work.notify rs)).on d
    (.ofUnit r, s, d)

def write (s : Storage) (d : Database) (p : Purpose) : Passage → Progress × Storage × Database
  | .alone c =>
    match (Work.transact (Work.executeAll s.access [c])).on d with
    | (.error (.crashed m), d) => (.over (.crashed m), s, d)
    | (.error (.refused e), d) => s.acknowledge d p (.error e)
    | (.ok (), d) => s.acknowledge d p (.ok ())
  | .inLine ticket =>
    match s.batcher.bind fun b => (b.answer? ticket).map fun r => (b, r) with
    | some (b, r) => acknowledge { s with batcher := some (b.forget ticket) } d p r
    | none => (.going (.writing p (.inLine ticket)), s, d)

def advance (time : Nat) (s : Storage) (d : Database) : Phase → Progress × Storage × Database
  | .stating q =>
    let (r, s, d) := s.state d q
    (.over r, s, d)
  | .writing p c => s.write d p c
  | .sweeping =>
    match s.sweepOnce d with
    | (.more, d) => (.going .sweeping, s, d)
    | (.over, d) => (.going .recovering, s, d)
    | (.crashed m, d) => (.over (.crashed m), s, d)
  | .recovering =>
    match (Work.transact (Work.recover s.access)).on d with
    | (.ok _, d) => (.over .done, s.spawnLoops time, d)
    | (.error e, d) => (.over (.ofFailure e), s, d)
  | .draining stopping =>
    let next : Progress := if stopping then .going .joining else .over .done
    match s.batcher with
    | none => (next, s, d)
    | some b =>
      let d :=
        if b.phase = .broken ∧ !b.joined then
          d.tell (.warning "batch writer task ended abnormally")
        else d
      (next, { s with batcher := some { b with joined := true } }, d)
  | .joining =>
    let broken := (if s.updater = .broken then 1 else 0) + (if s.reaper = .broken then 1 else 0)
    (.over .done, s, d.tellAll (List.replicate broken (.warning "storage task ended abnormally")))

/-! ## Calls inside a transaction that the caller holds -/

def insertHeld (s : Storage) (d : Database) (ws : List Workflow) : Reply × Storage × Database :=
  if ws.isEmpty then (.done, s, d)
  else
    match (Work.insert ws).on d with
    | (.ok (), d) => (.done, s.wake, s.report d [.measured "insert" ws.length])
    | (.error e, d) => (.ofFailure e, s, d)

def notifyHeld (s : Storage) (d : Database) (rs : List Response) : Reply × Database :=
  let (r, d) := (Work.notify (rs.map s.settle)).on d
  (.ofUnit r, d)

end Storage

end Resumption
