import Resumption.Engine.Control

/-!
# Clusters

Engines over one store, with the requests that their callers have under way. The actors of a
cluster are these requests, the workers, updaters and reapers of the storages, and the poll loops
and dispatches of the pools. `Cluster.ready` says which of them can go on, and `Cluster.step` lets
one of them go on by one step, which contains at most one transaction and wakes at most one pool.
Any order of steps of ready actors is a behaviour of the cluster; nothing here prefers one.
-/

namespace Resumption

/-- What a caller can want of an engine, of its storage or of one of its processors. -/
inductive Demand where
  | ask (a : Ask)
  | call (c : Storage.Call)
  | start
  | stop
  | startProcessor (place : Nat)
  | stopProcessor (place : Nat)

/-- What a request is at. -/
inductive Task where
  /-- Nothing was done yet. -/
  | arriving (d : Demand)
  | asking (p : AskPhase)
  | storing (p : Storage.Phase)
  | starting (p : Engine.StartPhase)
  | stopping (p : Engine.StopPhase)
  | halting (place : Nat) (p : Pool.Stopping)

def Task.holdsEngine : Task → Bool
  | .arriving (.startProcessor _) => false
  | .arriving (.stopProcessor _) => false
  | .halting _ _ => false
  | _ => true

/-- What a request was answered. -/
inductive Reply where
  | engine (a : Answer)
  | storage (r : Storage.Reply)
  | control (r : Except EngineError Unit)
  | pool (r : Except PoolError Unit)

/-- A request to the engine at a place, under a number of its own. The caller may give it up at a
point in time. -/
structure Request where
  serial : Nat
  engine : Nat
  task : Task
  limit : Option Nat

/-- Engines over one store. -/
structure Cluster where
  site : Site
  engines : List Engine
  issued : Nat
  requests : List Request
  replies : List (Nat × Reply)

/-- Whoever takes steps in a cluster. -/
inductive Actor where
  | request (serial : Nat)
  | worker (engine : Nat)
  | updater (engine : Nat)
  | reaper (engine : Nat)
  | poll (engine place : Nat)
  | dispatch (engine place serial : Nat)
  deriving DecidableEq, Repr

namespace Cluster

def create (db : Database) : Cluster :=
  { site := .create db, engines := [], issued := 0, requests := [], replies := [] }

def addEngine (c : Cluster) (e : Engine) : Cluster := { c with engines := c.engines ++ [e] }

def modifyEngine (c : Cluster) (place : Nat) (f : Engine → Engine) : Cluster :=
  { c with engines := c.engines.modify place f }

def modifyDatabase (c : Cluster) (f : Database → Database) : Cluster :=
  { c with site := { c.site with db := f c.site.db } }

/-- Puts an engine and the site back after a step. -/
def put (c : Cluster) (place : Nat) (e : Engine) (x : Site) : Cluster :=
  { c with site := x, engines := c.engines.set place e }

/-! ## Requests -/

/-- Adds a request of a caller who waits as long as `patience` says. -/
def request (c : Cluster) (engine : Nat) (d : Demand) (patience : Option Nat) : Nat × Cluster :=
  (c.issued, { c with
    issued := c.issued + 1
    requests := c.requests ++
      [⟨c.issued, engine, .arriving d, patience.map fun span => c.site.time + span⟩] })

/-- The request with a number, if it is under way. -/
def request? (c : Cluster) (serial : Nat) : Option Request :=
  c.requests.find? fun r => r.serial == serial

/-- The answer to a request. One that was given up has none. -/
def reply? (c : Cluster) (serial : Nat) : Option Reply := c.replies.lookup serial

/-- Gives up a request. A start or a stop that is given up is no longer under way. -/
def giveUp (c : Cluster) (r : Request) : Cluster :=
  let c := { c with requests := c.requests.filter fun q => q.serial ≠ r.serial }
  match r.task with
  | .starting .entering => c
  | .stopping .entering => c
  | .starting _ => c.modifyEngine r.engine fun e => { e with changing := false }
  | .stopping _ => c.modifyEngine r.engine fun e => { e with changing := false }
  | _ => c

/-! ## Steps -/

/-- The owner, a run or a request holds the engine at a place. -/
def alive (c : Cluster) (place : Nat) : Bool :=
  ((c.engines[place]?).map Engine.held).getD false ||
    c.requests.any fun r => r.engine == place && r.task.holdsEngine

/-- A request can go on; `free` says that it may begin a transaction. -/
def taskReady (c : Cluster) (free : Bool) (e : Engine) : Task → Bool
  | .arriving _ => true
  | .asking p => e.askReady free p
  | .storing p => e.storage.ready free p
  | .starting p => e.startReady c.site free p
  | .stopping p => e.stopReady c.site free p
  | .halting place p => ((e.pool? place).map fun q => q.stopReady c.site.time p).getD true

def requestReady (c : Cluster) (free : Bool) (r : Request) : Bool :=
  ((c.engines[r.engine]?).map fun e => c.taskReady free e r.task).getD false

/-- The caller gives the request up when it cannot go on. -/
def isLate (c : Cluster) (r : Request) : Bool := r.limit.any fun limit => limit ≤ c.site.time

/-- An actor can go on if `free` says whether it may begin a transaction. -/
def readyWhen (c : Cluster) (free : Bool) : Actor → Bool
  | .request serial => (c.request? serial).any fun r => c.requestReady free r || c.isLate r
  | .worker engine =>
    (((c.engines[engine]?).bind fun e => e.storage.batcher).map fun b =>
      b.ready c.site.time free).getD false
  | .updater engine =>
    ((c.engines[engine]?).map fun e => e.storage.updaterReady c.site.time free).getD false
  | .reaper engine =>
    ((c.engines[engine]?).map fun e => e.storage.reaperReady c.site.time free).getD false
  | .poll engine place =>
    (((c.engines[engine]?).bind fun e => e.pool? place).map fun p =>
      p.pollReady c.site.time free).getD false
  | .dispatch engine place serial =>
    match c.engines[engine]? with
    | none => false
    | some e =>
      match (e.pool? place).bind fun p => (p.dispatch? serial).map fun d => (p, d) with
      | none => false
      | some (p, d) => p.aborting || e.dispatchReady c.site free d.phase

def ready (c : Cluster) (a : Actor) : Bool := c.readyWhen c.site.unlocked a

/-- What an actor does next is a transaction. -/
def wantsStore (c : Cluster) (a : Actor) : Bool := c.readyWhen true a && !c.readyWhen false a

/-- A request either goes on or is answered. -/
inductive TaskProgress where
  | going (t : Task)
  | over (r : Reply)

/-- A demand is taken up. -/
def takeUp (e : Engine) (x : Site) : Demand → TaskProgress × Engine × Site
  | .ask a => (.going (.asking (.arriving a)), e, x)
  | .call c =>
    match e.storage.begin x.db c with
    | (.going p, storage, db) => (.going (.storing p), { e with storage }, { x with db })
    | (.over r, storage, db) => (.over (.storage r), { e with storage }, { x with db })
  | .start => (.going (.starting .entering), e, x)
  | .stop => (.going (.stopping .entering), e, x)
  | .startProcessor place =>
    match e.processors[place]? with
    | none => (.over (.pool (.ok ())), e, x)
    | some p =>
      let (r, p) := p.start
      (.over (.pool r), { e with processors := e.processors.set place p }, x)
  | .stopProcessor place =>
    match e.processors[place]? with
    | none => (.over (.pool (.ok ())), e, x)
    | some p =>
      let (progress, p) := p.beginStop
      let e := { e with processors := e.processors.set place p }
      match progress with
      | .going p => (.going (.halting place p), e, x)
      | .over r => (.over (.pool r), e, x)

def advanceTask (e : Engine) (x : Site) : Task → TaskProgress × Engine × Site
  | .arriving d => takeUp e x d
  | .asking p =>
    match e.advanceAsk x p with
    | (.going p, e, x) => (.going (.asking p), e, x)
    | (.over a, e, x) => (.over (.engine a), e, x)
  | .storing p =>
    match e.storage.advance x.time x.db p with
    | (.going p, storage, db) => (.going (.storing p), { e with storage }, { x with db })
    | (.over r, storage, db) => (.over (.storage r), { e with storage }, { x with db })
  | .starting p =>
    match e.advanceStart x p with
    | (.going p, e, x) => (.going (.starting p), e, x)
    | (.over r, e, x) => (.over (.control r), e, x)
  | .stopping p =>
    match e.advanceStop x p with
    | (.going p, e, x) => (.going (.stopping p), e, x)
    | (.over r, e, x) => (.over (.control r), e, x)
  | .halting place p =>
    match e.advanceHalt x place (.going p) with
    | (.going p, e, x) => (.going (.halting place p), e, x)
    | (.over r, e, x) => (.over (.pool r), e, x)

/-- A request goes on with its task, and its answer is kept. -/
def goOn (c : Cluster) (e : Engine) (r : Request) : Cluster :=
  match advanceTask e c.site r.task with
  | (.going task, e, x) =>
    { c.put r.engine e x with
      requests := c.requests.map fun q => if q.serial = r.serial then { q with task } else q }
  | (.over answer, e, x) =>
    { c.put r.engine e x with
      requests := c.requests.filter fun q => q.serial ≠ r.serial
      replies := (r.serial, answer) :: c.replies }

/-- A request goes on, or is given up when it cannot and it is late. -/
def stepRequest (c : Cluster) (serial : Nat) : Cluster :=
  match c.request? serial with
  | none => c
  | some r =>
    match c.engines[r.engine]? with
    | none => c
    | some e =>
      if c.isLate r && !c.taskReady c.site.unlocked e r.task then c.giveUp r else c.goOn e r

/-- The engine at a place takes a step with the site. -/
def stepEngine (c : Cluster) (place : Nat) (f : Engine → Site → Engine × Site) : Cluster :=
  match c.engines[place]? with
  | none => c
  | some e =>
    let (e, x) := f e c.site
    c.put place e x

/-- The storage of an engine takes a step with the database. -/
def stepStorage (c : Cluster) (place : Nat)
    (f : Storage → Database → Storage × Database) : Cluster :=
  c.stepEngine place fun e x =>
    let (storage, db) := f e.storage x.db
    ({ e with storage }, { x with db })

def stepWorker (time : Nat) (s : Storage) (d : Database) : Storage × Database :=
  match s.batcher with
  | none => (s, d)
  | some b =>
    let (b, d) := b.step s.access time d
    ({ s with batcher := some b }, d)

/-- An actor goes on by one step. -/
def step (c : Cluster) : Actor → Cluster
  | .request serial => c.stepRequest serial
  | .worker engine => c.stepStorage engine (stepWorker c.site.time)
  | .updater engine => c.stepStorage engine (Storage.stepUpdater c.site.time)
  | .reaper engine => c.stepStorage engine (Storage.stepReaper c.site.time)
  | .poll engine place => c.stepEngine engine fun e x => e.stepPoll x place
  | .dispatch engine place serial =>
    c.stepEngine engine fun e x => e.stepDispatch x (c.alive engine) place serial

/-- What an actor does next is to let others go first. -/
def yields (c : Cluster) : Actor → Bool
  | .updater engine => (c.engines[engine]?).any fun e => e.storage.updater == .yielding
  | _ => false

/-! ## Who is there -/

def poolActors (engine place : Nat) (p : Pool) : List Actor :=
  .poll engine place :: p.dispatches.map fun d => .dispatch engine place d.serial

def engineActors (engine : Nat) (e : Engine) : List Actor :=
  [.worker engine, .updater engine, .reaper engine] ++
    (e.processors.zipIdx.map fun (p, place) =>
      (p.pool?.map (poolActors engine place)).getD []).flatten

def actors (c : Cluster) : List Actor :=
  c.requests.map (fun r => .request r.serial) ++
    (c.engines.zipIdx.map fun (e, place) => engineActors place e).flatten

/-- When a request goes on at the latest, if a clock decides that. -/
def taskDues : Task → List Nat
  | .starting (.closing _ halts) => halts.filterMap haltDue?
  | .stopping (.closing halts) => halts.filterMap haltDue?
  | .halting _ p => p.due?.toList
  | _ => []
where
  /-- When the stopping of a processor goes on at the latest. -/
  haltDue? : Pool.StopProgress → Option Nat
    | .going p => p.due?
    | .over _ => none

/-- The points in time at which a clock lets somebody go on. -/
def dues (c : Cluster) : List Nat :=
  (c.requests.map fun r => r.limit.toList ++ taskDues r.task).flatten ++
    (c.engines.map fun e =>
      e.storage.dues ++ (e.processors.map fun p => (p.pool?.map Pool.dues).getD []).flatten).flatten

def nextDue? (c : Cluster) : Option Nat := (c.dues.filter fun t => c.site.time < t).min?

def passTime (c : Cluster) (time : Nat) : Cluster := { c with site := { c.site with time } }

end Cluster

end Resumption
