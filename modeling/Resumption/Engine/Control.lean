import Resumption.Engine.Dispatch

/-!
# Starting and stopping an engine

A start brings up the registry, the storage and the processors, in this order. If one of them
fails, the engine has failed: whatever runs is stopped, and the reason is given. A stop ends the
processors, then the storage; the engine is stopped even when a pool did not drain in time. Only
one start or stop is under way at a time, and in either case the gate is open afterwards.
-/

namespace Resumption

namespace Engine

/-- Where a start is. -/
inductive StartPhase where
  | entering
  | opening (p : Storage.Phase)
  /-- The start failed, and the processors are stopping. -/
  | closing (reason : EngineError) (halts : List Pool.StopProgress)
  /-- The start failed, and the storage is stopping. -/
  | shutting (reason : EngineError) (p : Storage.Phase)

/-- Where a stop is. -/
inductive StopPhase where
  | entering
  | closing (halts : List Pool.StopProgress)
  | shutting (outcome : Except EngineError Unit) (p : Storage.Phase)

/-- A start or a stop either goes on in a phase or is over. -/
inductive ControlProgress (φ : Type) where
  | going (p : φ)
  | over (r : Except EngineError Unit)

/-! ## Stopping all processors -/

def beginHalts (e : Engine) : List Pool.StopProgress × Engine :=
  let begun := e.processors.map Processor.beginStop
  (begun.map (·.1), { e with processors := begun.map (·.2) })

def haltReady (e : Engine) (x : Site) (place : Nat) : Pool.StopProgress → Bool
  | .going p => ((e.pool? place).map fun q => q.stopReady x.time p).getD true
  | .over _ => false

/-- The stopping of some processor can go on, or all are stopped. -/
def haltsReady (e : Engine) (x : Site) (halts : List Pool.StopProgress) : Bool :=
  let going := halts.any fun
    | .going _ => true
    | .over _ => false
  !going || (halts.zipIdx.any fun (h, place) => e.haltReady x place h)

/-- The stopping of one processor goes on if it can. -/
def advanceHalt (e : Engine) (x : Site) (place : Nat) (h : Pool.StopProgress) :
    Pool.StopProgress × Engine × Site :=
  match h, e.pool? place with
  | .over r, _ => (.over r, e, x)
  | .going _, none => (.over (.ok ()), e, x)
  | .going p, some q =>
    if q.stopReady x.time p then
      let (h, q, db) := q.advanceStop x.time x.db p
      (h, e.setPool place q, { x with db })
    else (.going p, e, x)

/-- The stopping of processors from a place on goes on where it can. -/
def advanceHalts (e : Engine) (x : Site) (place : Nat) :
    List Pool.StopProgress → List Pool.StopProgress × Engine × Site
  | [] => ([], e, x)
  | h :: hs =>
    let (h, e, x) := e.advanceHalt x place h
    let (hs, e, x) := e.advanceHalts x (place + 1) hs
    (h :: hs, e, x)

/-- The failures of processors that were stopped, if all are. -/
def outcomes? : List Pool.StopProgress → Option (List PoolError)
  | [] => some []
  | .going _ :: _ => none
  | .over (.ok ()) :: hs => outcomes? hs
  | .over (.error cause) :: hs => (outcomes? hs).map (cause :: ·)

def tellFailures (x : Site) (failures : List PoolError) : Site :=
  { x with db := x.db.tellAll (failures.map fun _ => .fault "processor pool shutdown failed") }

/-! ## Starting -/

def startFailed (e : Engine) (reason : EngineError) : ControlProgress StartPhase × Engine :=
  (.over (.error (.startupFailed reason.message)),
    { e with gate := e.gate.opened, changing := false })

def shutAfterFailure (e : Engine) (x : Site) (reason : EngineError) :
    ControlProgress StartPhase × Engine × Site :=
  match e.storage.begin x.db .stop with
  | (.going p, storage, db) => (.going (.shutting reason p), { e with storage }, { x with db })
  | (.over _, storage, db) =>
    let (r, e) := startFailed { e with storage } reason
    (r, e, { x with db })

/-- A start that fails here begins to stop what runs. -/
def failStart (e : Engine) (x : Site) (reason : EngineError) :
    ControlProgress StartPhase × Engine × Site :=
  let (halts, e) := beginHalts { e with lifecycle := .failed }
  (.going (.closing reason halts), e, x.tell (.fault "engine startup failed"))

/-- Starts the processors when the storage has started. A start of the storage that crashed is taken
like one that went well: it would take the start of the engine along, which then is over without an
answer and leaves the engine raw. -/
def startProcessors (e : Engine) (x : Site) :
    Storage.Reply → ControlProgress StartPhase × Engine × Site
  | .refused cause => e.failStart x (.store cause)
  | _ =>
    match e.processors.startAll with
    | (.ok (), processors) =>
      (.over (.ok ()),
        { e with processors, lifecycle := .started, gate := e.gate.opened, changing := false }, x)
    | (.error cause, processors) => failStart { e with processors } x (.pool cause)

/-- Starts the components (`start_components`), up to where the storage may make the start wait. -/
def startComponents (e : Engine) (x : Site) : ControlProgress StartPhase × Engine × Site :=
  if !e.processors.knows Workflow.defaultPool then e.failStart x .missingDefaultPool
  else
    let e := { e with
      processors := e.processors.map (Processor.attach e.id)
      injectorTold := true }
    let x := { x with db := e.storage.report x.db [.knowsEngine e.id] }
    match e.registry.start with
    | .error cause => e.failStart x (.startupFailed cause.message)
    | .ok registry =>
      let e := { e with registry }
      let db := e.storage.report x.db
        (.knowsTypes registry.types :: e.processors.ids.map .knowsPool)
      match e.storage.begin db .start with
      | (.going p, storage, db) => (.going (.opening p), { e with storage }, { x with db })
      | (.over r, storage, db) => startProcessors { e with storage } { x with db } r

/-- A start can go on from a phase; `free` says that it may begin a transaction. -/
def startReady (e : Engine) (x : Site) (free : Bool) : StartPhase → Bool
  | .entering => !e.changing
  | .opening p => e.storage.ready free p
  | .closing _ halts => e.haltsReady x halts
  | .shutting _ p => e.storage.ready free p

/-- A step of a start from a phase (`startup`). -/
def advanceStart (e : Engine) (x : Site) : StartPhase → ControlProgress StartPhase × Engine × Site
  | .entering =>
    if e.lifecycle = .raw then startComponents { e with changing := true } x
    else (.over (.error (.illegalState .raw e.lifecycle)), e, x)
  | .opening p =>
    match e.storage.advance x.time x.db p with
    | (.going p, storage, db) => (.going (.opening p), { e with storage }, { x with db })
    | (.over r, storage, db) => startProcessors { e with storage } { x with db } r
  | .closing reason halts =>
    let (halts, e, x) := e.advanceHalts x 0 halts
    match outcomes? halts with
    | none => (.going (.closing reason halts), e, x)
    | some failures =>
      let x := tellFailures x failures
      let x :=
        if failures.isEmpty then x else x.tell (.warning "pool shutdown after failed startup")
      e.shutAfterFailure x reason
  | .shutting reason p =>
    match e.storage.advance x.time x.db p with
    | (.going p, storage, db) => (.going (.shutting reason p), { e with storage }, { x with db })
    | (.over _, storage, db) =>
      let (r, e) := startFailed { e with storage } reason
      (r, e, { x with db })

/-! ## Stopping -/

def stopped (e : Engine) (outcome : Except EngineError Unit) : ControlProgress StopPhase × Engine :=
  (.over outcome, { e with lifecycle := .stopped, changing := false })

/-- A stop can go on from a phase; `free` says that it may begin a transaction. -/
def stopReady (e : Engine) (x : Site) (free : Bool) : StopPhase → Bool
  | .entering => !e.changing
  | .closing halts => e.haltsReady x halts
  | .shutting _ p => e.storage.ready free p

/-- A step of a stop from a phase (`shutdown`). -/
def advanceStop (e : Engine) (x : Site) : StopPhase → ControlProgress StopPhase × Engine × Site
  | .entering =>
    if e.lifecycle = .started then
      let (halts, e) := beginHalts { e with changing := true, lifecycle := .shuttingDown }
      (.going (.closing halts), e, x)
    else (.over (.error (.illegalState .started e.lifecycle)), e, x)
  | .closing halts =>
    let (halts, e, x) := e.advanceHalts x 0 halts
    match outcomes? halts with
    | none => (.going (.closing halts), e, x)
    | some failures =>
      let x := tellFailures x failures
      let outcome : Except EngineError Unit :=
        match failures with
        | [] => .ok ()
        | cause :: _ => .error (.pool cause)
      match e.storage.begin x.db .stop with
      | (.going p, storage, db) => (.going (.shutting outcome p), { e with storage }, { x with db })
      | (.over _, storage, db) =>
        let (r, e) := stopped { e with storage } outcome
        (r, e, { x with db })
  | .shutting outcome p =>
    match e.storage.advance x.time x.db p with
    | (.going p, storage, db) => (.going (.shutting outcome p), { e with storage }, { x with db })
    | (.over _, storage, db) =>
      let (r, e) := stopped { e with storage } outcome
      (r, e, { x with db })

end Engine

end Resumption
