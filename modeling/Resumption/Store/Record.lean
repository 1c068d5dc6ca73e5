import Resumption.Workflow.Instance

/-!
# Stored instances

A record is what the store keeps of one instance. What only a waiting instance has, its waits and
its deadline, is part of the waiting status, and what only a running one has, the engine that
claimed it, is part of the running status; so a record that leaves a status leaves nothing of it
behind. The answers that a wait was resolved with and the mark that its deadline passed stay on
the record until the next claim hands them out.
-/

namespace Resumption

/-- One correlation id that an instance waits for, with the answer once it is there. -/
structure Wait where
  correlation : String
  answer : Option Response
  deriving DecidableEq, Repr, Inhabited

namespace Wait

/-- The wait has no answer yet. -/
def isOpen (w : Wait) : Bool := w.answer.isNone

/-- The wait has no answer yet and wants one to this id. -/
def opens (w : Wait) (correlation : String) : Bool := w.isOpen && w.correlation == correlation

end Wait

/-- What a waiting instance waits for. `number` orders the suspensions of a store. -/
structure Suspension where
  quorum : Quorum
  deadline : Option Instant
  number : Nat
  waits : List Wait
  deriving DecidableEq, Repr, Inhabited

namespace Suspension

def ofCallback (c : Callback) (number : Nat) : Suspension :=
  { quorum := c.quorum, deadline := c.deadline, number
    waits := c.correlations.map fun id => ⟨id, none⟩ }

/-- Some wait for this id has no answer yet. -/
def wants (s : Suspension) (correlation : String) : Bool :=
  s.waits.any fun w => w.opens correlation

/-- Gives the response to the first wait that wants it. -/
def answerFirst (r : Response) : List Wait → List Wait
  | [] => []
  | w :: ws =>
    if w.opens r.correlation then { w with answer := some r } :: ws else w :: answerFirst r ws

/-- The answers so far, in the order of the waits. -/
def answers (s : Suspension) : List Response := s.waits.filterMap (·.answer)

/-- After an answer came in, the wait is over: at once, or when nothing is open any more. -/
def resolvedByAnswer (s : Suspension) : Bool :=
  match s.quorum with
  | .first => true
  | .all => s.waits.all fun w => !w.isOpen

def dueAt (s : Suspension) (now : Instant) : Bool :=
  match s.deadline with
  | some t => t ≤ now
  | none => false

end Suspension

/-- Where a stored instance stands, with what belongs to that stage alone. -/
inductive Status where
  | enqueued
  | ready
  | running (engine : String)
  | waiting (suspension : Suspension)
  | finished
  | failed
  deriving DecidableEq, Repr, Inhabited

namespace Status

def stage : Status → Stage
  | enqueued => .enqueued
  | ready => .ready
  | running _ => .running
  | waiting _ => .waiting
  | finished => .finished
  | failed => .error

end Status

/-- A stored instance (`StoredInstance`). `number` orders the instances of a store. -/
structure Record where
  id : Uuid
  number : Nat
  type : String
  pool : String
  priority : Int32
  payload : Json
  status : Status
  lastError : Option String
  delivered : List Response
  waitExpired : Bool
  deriving DecidableEq, Repr, Inhabited

namespace Record

/-- The record of a submitted workflow. Whatever ran before is forgotten. -/
def ofWorkflow (id : Uuid) (number : Nat) (w : Workflow) : Record :=
  { id, number, type := w.type, pool := w.effectivePool, priority := w.priority
    payload := w.payload, status := .enqueued, lastError := none, delivered := []
    waitExpired := false }

def stage (r : Record) : Stage := r.status.stage

def claimedBy (r : Record) : Option String :=
  match r.status with
  | .running engine => some engine
  | _ => none

def suspension? (r : Record) : Option Suspension :=
  match r.status with
  | .waiting s => some s
  | _ => none

/-- The instance waits and wants an answer to this id. -/
def wants (r : Record) (correlation : String) : Bool :=
  match r.status with
  | .waiting s => s.wants correlation
  | _ => false

def claimable (r : Record) (pool : String) : Bool := r.status == .ready && r.pool == pool

/-- The instance can be made ready: it is new, or its deadline has come. -/
def dueAt (r : Record) (now : Instant) : Bool :=
  match r.status with
  | .enqueued => true
  | .waiting s => s.dueAt now
  | _ => false

/-- The workflow that the record stands for. -/
def toWorkflow (r : Record) : Workflow :=
  { id := some r.id, type := r.type, pool := some r.pool, priority := r.priority, stage := r.stage
    payload := r.payload, callback := none, responses := r.delivered, waitExpired := r.waitExpired }

/-- Ends a wait: its answers are kept for the next claim. -/
def release (r : Record) (expired : Bool) (s : Suspension) : Record :=
  { r with status := .ready, delivered := r.delivered ++ s.answers, waitExpired := expired }

def answer (r : Record) (response : Response) : Record :=
  match r.status with
  | .waiting s =>
    let s := { s with waits := Suspension.answerFirst response s.waits }
    if s.resolvedByAnswer then r.release false s else { r with status := .waiting s }
  | _ => r

/-- Makes a due instance ready; a wait that is cut short by its deadline is marked. -/
def promote (r : Record) : Record :=
  match r.status with
  | .waiting s => r.release true s
  | _ => { r with status := .ready }

/-- Claims the instance. What the last wait left is handed out with it and kept no longer. -/
def claim (r : Record) (engine : String) : Record :=
  { r with status := .running engine, delivered := [], waitExpired := false }

/-- What a claim hands out. -/
def handedOut (r : Record) (engine : String) : Workflow :=
  { r.toWorkflow with stage := (r.claim engine).stage }

def suspend (r : Record) (payload : Json) (s : Suspension) : Record :=
  { r with payload, status := .waiting s }

def finish (r : Record) : Record := { r with status := .finished }

def fail (r : Record) (cause : String) : Record :=
  { r with status := .failed, lastError := some cause }

def restart (r : Record) : Record := { r with status := .ready, lastError := none }

end Record

end Resumption
