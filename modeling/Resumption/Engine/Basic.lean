import Resumption.Engine.Site
import Resumption.Pool.Processor
import Resumption.Registry

/-!
# Engines

An engine with its storage, processors and registry. What is asked of it passes the gate, which
opens when the start is over, and is admitted only while the engine is started.

A batch is prepared as a whole before anything is stored: one transient workflow refuses the
batch, ids are made up where none is set, and a pool that is unset or unknown becomes the default
pool. Each pool that got work is woken once.

Processors do not keep their engine alive. It lives as long as its owner or a run holds it.
-/

namespace Resumption

/-- An engine (`PersistentEngine`). -/
structure Engine where
  id : String
  /-- Its owner has not let go of the engine. -/
  owned : Bool
  lifecycle : Lifecycle
  gate : Gate
  /-- A start or a stop is under way. -/
  changing : Bool
  registry : Registry Runner
  /-- What is done to a workflow before its runner gets it. -/
  inject : Workflow → Workflow
  /-- The injector knows its engine. -/
  injectorTold : Bool
  storage : Storage
  processors : Processors

namespace Engine

def create (id : String) (registry : Registry Runner) (inject : Workflow → Workflow)
    (storage : Storage) (processors : Processors) : Engine :=
  { id, owned := true, lifecycle := .raw, gate := .closed, changing := false, registry, inject
    injectorTold := false, storage, processors }

/-- The owner or a run still holds the engine. -/
def held (e : Engine) : Bool :=
  e.owned || e.processors.any fun p => (p.pool?.map Pool.runs).getD false

/-- Says whether the engine takes work now (`admit`). -/
def admission (e : Engine) : Except EngineError Unit :=
  match e.lifecycle with
  | .started => .ok ()
  | .shuttingDown => .error .shuttingDown
  | .stopped => .error .shuttingDown
  | actual => .error (.illegalState .started actual)

/-! ## Preparing work -/

/-- Gives a workflow a pool that the engine knows (`resolve_pool`). -/
def resolvePool (e : Engine) (d : Database) (w : Workflow) : Workflow × Database :=
  match w.pool with
  | none => ({ w with pool := some Workflow.defaultPool }, d)
  | some pool =>
    if e.processors.knows pool then (w, d)
    else ({ w with pool := some Workflow.defaultPool },
      d.tell (.fault "unknown processor pool, using the default pool"))

/-- Prepares one workflow: it gets an id and a pool. -/
def prepareOne (e : Engine) (x : Site) (w : Workflow) : (Uuid × Workflow) × Site :=
  let (id, x) :=
    match w.id with
    | some id => (id, x)
    | none => x.issue
  let (w, db) := e.resolvePool x.db { w with id := some id }
  ((id, w), { x with db })

/-- Prepares workflows in order, up to the first transient one (`prepare`). -/
def prepare (e : Engine) (x : Site) :
    List Submission → Except EngineError (List (Uuid × Workflow)) × Site
  | [] => (.ok [], x)
  | .transient t :: _ => (.error (.notPersistent t.type), x)
  | .durable w :: rest =>
    let (first, x) := e.prepareOne x w
    let (others, x) := e.prepare x rest
    (others.map (first :: ·), x)

/-- The pools of some workflows, each once. -/
def poolsOf (ws : List Workflow) : List String := Callback.distinct (ws.map Workflow.effectivePool)

/-- Wakes one of the pools that there is new work for (`notify_pools`). -/
def wakePool (e : Engine) (d : Database) (pool : String) : Engine × Database :=
  if e.processors.knows pool then
    ({ e with processors := e.processors.modify pool Processor.wake }, d)
  else (e, d.tell (.warning "no processor pool to notify"))

/-! ## Asks -/

/-- An ask can go on from a phase; `free` says that it may begin a transaction. -/
def askReady (e : Engine) (free : Bool) : AskPhase → Bool
  | .arriving a => !a.needsAdmission || e.gate.isOpen
  | .storing p _ => e.storage.ready free p
  | .waking _ _ => true

/-- Registers a callback with a workflow, which is not stored yet (`register_callbacks`). -/
def register (e : Engine) (d : Database) (w : Workflow) (quorum : Quorum)
    (timeout : Option Duration) (correlations : List String) : Answer × Database :=
  if correlations.isEmpty then (.refused .noCorrelationIds, d)
  else
    match w.id with
    | none => (.refused (.store (.invalidArgument "instance has no id")), d)
    | some id =>
      let (w, d) := e.resolvePool d w
      match Callback.create d.clock id quorum correlations timeout with
      | .ok c => (.registered { w with callback := some c }, d)
      | .error cause => (.refused (.store cause), d)

def submittedAnswer (ids : List Uuid) (single : Bool) : Answer :=
  match single, ids with
  | true, id :: _ => .submittedOne id
  | _, _ => .submitted ids

/-- Sees to what remains when the storage has answered. -/
def conclude (e : Engine) (x : Site) : Errand → Storage.Reply → AskProgress × Engine × Site
  | _, .crashed m => (.over (.crashed m), e, x)
  | .submission _ _ _, .refused cause => (.over (.refused (.runFailed cause)), e, x)
  | .submission ids pools single, _ =>
    (.going (.waking (submittedAnswer ids single) pools), e, x)
  | _, .refused cause => (.over (.refused (.store cause)), e, x)
  | .restart id, _ => (.going (.storing (.stating (.load id)) .lookup), e, x)
  | .lookup, .loaded (some w) => (.going (.waking .done [w.effectivePool]), e, x)
  | .restartAll, .counted n =>
    (.going (.waking (.counted n) (if n = 0 then [] else e.processors.ids)), e, x)
  | _, _ => (.over .done, e, x)

def send (e : Engine) (x : Site) (c : Storage.Call) (errand : Errand) :
    AskProgress × Engine × Site :=
  match e.storage.begin x.db c with
  | (.going p, storage, db) => (.going (.storing p errand), { e with storage }, { x with db })
  | (.over r, storage, db) => conclude { e with storage } { x with db } errand r

/-- Stores prepared work in a transaction of its own (`run_batch`). -/
def sendWork (e : Engine) (x : Site) (single : Bool) (batch : List Submission) :
    AskProgress × Engine × Site :=
  match e.prepare x batch with
  | (.error cause, x) => (.over (.refused cause), e, x)
  | (.ok work, x) =>
    if work.isEmpty then (.over (.submitted []), e, x)
    else
      let ws := work.map (·.2)
      e.send x (.insert ws) (.submission (work.map (·.1)) (poolsOf ws) single)

/-- Stores prepared work in the transaction that the asker holds (`run_batch_in`). The pools are woken
at once and find the work when that transaction is committed. -/
def storeHeld (e : Engine) (x : Site) (batch : List Submission) : AskProgress × Engine × Site :=
  match e.prepare x batch with
  | (.error cause, x) => (.over (.refused cause), e, x)
  | (.ok work, x) =>
    let ws := work.map (·.2)
    match e.storage.insertHeld x.db ws with
    | (.refused cause, storage, db) =>
      (.over (.refused (.runFailed cause)), { e with storage }, { x with db })
    | (.crashed m, storage, db) => (.over (.crashed m), { e with storage }, { x with db })
    | (_, storage, db) =>
      (.going (.waking (.submitted (work.map (·.1))) (poolsOf ws)), { e with storage },
        { x with db })

/-- An ask that was admitted goes to work. -/
def accept (e : Engine) (x : Site) : Ask → AskProgress × Engine × Site
  | .submit batch => e.sendWork x false batch
  | .submitOne one => e.sendWork x true [one]
  | .submitHeld batch => e.storeHeld x batch
  | .register w quorum timeout correlations =>
    let (a, db) := e.register x.db w quorum timeout correlations
    (.over a, e, { x with db })
  | .notify r => e.send x (.notify r) .notification
  | .notifyAll rs => e.send x (.notifyAll rs) .notification
  | .restart id => e.send x (.restart id) (.restart id)
  | .restartAll => e.send x .restartAll .restartAll

/-- An ask goes on from a phase. -/
def advanceAsk (e : Engine) (x : Site) : AskPhase → AskProgress × Engine × Site
  | .arriving a =>
    if a.needsAdmission then
      match e.admission with
      | .ok () => e.accept x a
      | .error cause => (.over (.refused cause), e, x)
    else e.accept x a
  | .storing p errand =>
    match e.storage.advance x.time x.db p with
    | (.going p, storage, db) => (.going (.storing p errand), { e with storage }, { x with db })
    | (.over r, storage, db) => conclude { e with storage } { x with db } errand r
  | .waking a [] => (.over a, e, x)
  | .waking a (pool :: pools) =>
    let (e, db) := e.wakePool x.db pool
    (.going (.waking a pools), e, { x with db })

end Engine

end Resumption
