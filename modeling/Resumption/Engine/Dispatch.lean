import Resumption.Engine.Basic

/-!
# Dispatching a claimed instance

A dispatch finds the runner of its instance, carries its run out and writes what became of it:
finished, suspended on a callback, or failed with a cause. Everything that stands in the way of a
proper outcome, from a missing engine to a callback that cannot be written, becomes a failure of
the instance. Only where writing the failure fails as well, or the dispatch itself crashes, does
the instance stay claimed.
-/

namespace Resumption

/-- A dispatch either goes on in a phase or is over. -/
inductive DispatchProgress where
  | going (p : DispatchPhase)
  | over

namespace Engine

/-- Writes an outcome that needs no second attempt of its own. -/
def settle (e : Engine) (x : Site) (c : Storage.Call) : DispatchProgress × Engine × Site :=
  match e.storage.begin x.db c with
  | (.going p, storage, db) => (.going (.settling p .plain), { e with storage }, { x with db })
  | (.over _, storage, db) => (.over, { e with storage }, { x with db })

/-- Does what remains when an outcome was written or refused. -/
def settled (e : Engine) (x : Site) : Settlement → Storage.Reply → DispatchProgress × Engine × Site
  | .suspension w, .refused cause =>
    e.settle (x.tell (.fault "failed to persist register call")) (.fail w cause.message)
  | _, _ => (.over, e, x)

/-- Writes a suspension. -/
def settleSuspension (e : Engine) (x : Site) (w : Workflow) : DispatchProgress × Engine × Site :=
  match e.storage.begin x.db (.suspend w) with
  | (.going p, storage, db) =>
    (.going (.settling p (.suspension w)), { e with storage }, { x with db })
  | (.over r, storage, db) => settled { e with storage } { x with db } (.suspension w) r

/-- Finds the runner of an instance and begins its run; `found` says that there is an engine. -/
def beginRun (e : Engine) (x : Site) (found : Bool) (w : Workflow) :
    DispatchProgress × Engine × Site :=
  if !found then
    e.settle (x.tell (.fault "no engine attached to processor pool"))
      (.fail w "processing engine unavailable")
  else
    match e.registry.runner? w.type with
    | none =>
      e.settle (x.tell (.fault "no runner registered for workflow type"))
        (.fail w ("no runner registered for workflow type " ++ w.type))
    | some runner =>
      let w := e.inject w
      (.going (.running (runner ⟨x.db.clock, e.id, e.lifecycle⟩ w)), e,
        { x with sightings := ⟨w, e.id⟩ :: x.sightings })

def continueRun (e : Engine) (x : Site) (claimed : Workflow) :
    Run → DispatchProgress × Engine × Site
  | .finished w => e.settle x (.finish w)
  | .suspended w =>
    match w.callback with
    | some _ => e.settleSuspension x w
    | none =>
      e.settle (x.tell (.warning "runner suspended without registering callbacks"))
        (.fail w "suspended without a register call")
  | .failed w causes =>
    e.settle (x.tell (.warning "workflow run failed")) (.fail w (String.intercalate ": " causes))
  | .panicked w message =>
    e.settle (x.tell (.fault "workflow runner panicked"))
      (.fail w ("panic: " ++ message.getD "unknown panic"))
  | .pause d next => (.going (.pausing (x.time + d.nanos) next), e, x.pause)
  | .ask a next => (.going (.asking (.arriving a) next), e, x)
  | .visit next =>
    let (n, x) := x.visit (claimed.id.getD default)
    (.going (.running (next n)), e, x)

/-- A dispatch can go on from a phase; `free` says that it may begin a transaction. -/
def dispatchReady (e : Engine) (x : Site) (free : Bool) : DispatchPhase → Bool
  | .fresh => true
  | .running _ => true
  | .pausing due _ => due ≤ x.time
  | .asking p _ => e.askReady free p
  | .settling p _ => e.storage.ready free p

/-- A step of a dispatch from a phase (`dispatch`). -/
def advanceDispatch (e : Engine) (x : Site) (found : Bool) (claimed : Workflow) :
    DispatchPhase → DispatchProgress × Engine × Site
  | .fresh => e.beginRun x found claimed
  | .running r => e.continueRun x claimed r
  | .pausing _ next => (.going (.running next), e, x.resume)
  | .asking p next =>
    match e.advanceAsk x p with
    | (.going p, e, x) => (.going (.asking p next), e, x)
    | (.over (.crashed m), e, x) => (.going (.running (.panicked claimed (some m))), e, x)
    | (.over a, e, x) => (.going (.running (next a)), e, x)
  | .settling p s =>
    match e.storage.advance x.time x.db p with
    | (.going p, storage, db) => (.going (.settling p s), { e with storage }, { x with db })
    | (.over r, storage, db) => settled { e with storage } { x with db } s r

def pool? (e : Engine) (place : Nat) : Option Pool := (e.processors[place]?).bind Processor.pool?

def setPool (e : Engine) (place : Nat) (p : Pool) : Engine :=
  { e with processors := e.processors.set place (.pool p) }

def modifyPool (e : Engine) (place : Nat) (f : Pool → Pool) : Engine :=
  match e.pool? place with
  | some p => e.setPool place (f p)
  | none => e

/-- A dispatch of the pool at a place goes on; `alive` says that somebody holds the engine. One that
is cancelled ends where it is. -/
def stepDispatch (e : Engine) (x : Site) (alive : Bool) (place serial : Nat) : Engine × Site :=
  match (e.pool? place).bind fun p => (p.dispatch? serial).map fun d => (p, d) with
  | none => (e, x)
  | some (p, d) =>
    if p.aborting then
      (e.setPool place (p.endDispatch serial),
        x.tell (.warning "dispatch canceled by shutdown"))
    else
      let found := alive && p.attached
      match e.advanceDispatch x found d.workflow d.phase with
      | (.going phase, e, x) => (e.modifyPool place fun p => p.setPhase serial found phase, x)
      | (.over, e, x) => (e.modifyPool place fun p => p.endDispatch serial, x)

def stepPoll (e : Engine) (x : Site) (place : Nat) : Engine × Site :=
  match e.pool? place with
  | none => (e, x)
  | some p =>
    let (p, storage, db) := p.stepPoll x.time e.storage x.db
    (setPool { e with storage } place p, { x with db })

end Engine

end Resumption
