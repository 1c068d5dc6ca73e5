import Resumption.Relational.Timestamp
import Resumption.Workflow.Instance

/-!
# The tables of a relational backend

Three tables: instances, responses, and the waits of suspended instances. Rows stand in the order
of their insertion, which is the order of the numbers that the server gives them. A wait is
answered when it names a response; a response is matched when it names the instance it belongs to.

Columns hold what any client wrote there. A stage and a quorum are plain texts, which need not
mean anything.
-/

namespace Resumption.Relational

/-- A row of the table of instances. `waitNumber` orders the suspensions. -/
structure InstanceRow where
  id : Uuid
  type : String
  pool : String
  priority : Int32
  stage : String
  payload : Json
  claimedBy : Option String
  lastError : Option String
  quorum : Option String
  deadline : Option Timestamp
  waitNumber : Nat
  waitExpired : Bool
  deriving DecidableEq, Repr, Inhabited

/-- A row of the table of responses. `owner` is the instance that a matched response belongs to. -/
structure ResponseRow where
  id : Nat
  correlation : String
  owner : Option Uuid
  payload : Option Json
  error : Option String
  createdAt : Timestamp
  lifetimeMillis : Option Int
  expiresAt : Timestamp
  deriving DecidableEq, Repr, Inhabited

/-- A row of the table of waits. `answer` is the number of the response that answered it. -/
structure WaitRow where
  owner : Uuid
  correlation : String
  position : Nat
  answer : Option Nat
  deriving DecidableEq, Repr, Inhabited

namespace InstanceRow

def ofWorkflow (id : Uuid) (w : Workflow) : InstanceRow :=
  { id, type := w.type, pool := w.effectivePool, priority := w.priority
    stage := Stage.enqueued.name, payload := w.payload, claimedBy := none, lastError := none
    quorum := none, deadline := none, waitNumber := 0, waitExpired := false }

def isAt (r : InstanceRow) (s : Stage) : Bool := r.stage == s.name

def overdueAt (r : InstanceRow) (now : Instant) : Bool :=
  r.isAt .waiting && r.deadline.any fun t => t.toInstant ≤ now

/-- The instance can be made ready: it is new, or its deadline has come. -/
def dueAt (r : InstanceRow) (now : Instant) : Bool := r.isAt .enqueued || r.overdueAt now

/-- Puts the instance at a stage at which nothing is claimed and nothing is waited for. -/
def settle (r : InstanceRow) (s : Stage) : InstanceRow :=
  { r with stage := s.name, claimedBy := none, quorum := none, deadline := none }

def release (r : InstanceRow) (expired : Bool) : InstanceRow :=
  { r with stage := Stage.ready.name, quorum := none, deadline := none, waitExpired := expired }

def restart (r : InstanceRow) : InstanceRow :=
  { r with stage := Stage.ready.name, lastError := none }

/-- The workflow of the row with the responses that belong to it, if its stage means anything. -/
def toWorkflow (r : InstanceRow) (responses : List Response) : Except StoreError Workflow :=
  match Stage.ofName? r.stage with
  | none => .error (.serialization ("unknown workflow state: " ++ r.stage))
  | some stage =>
    .ok { id := some r.id, type := r.type, pool := some r.pool, priority := r.priority, stage
          payload := r.payload, callback := none, responses, waitExpired := r.waitExpired }

end InstanceRow

namespace ResponseRow

/-- The response has expired before it was matched. -/
def staleAt (r : ResponseRow) (now : Instant) : Bool :=
  r.owner.isNone && r.expiresAt.toInstant ≤ now

/-- The response of the row. A failure wins over a payload, and no payload is null. -/
def toResponse (r : ResponseRow) : Response :=
  { correlation := r.correlation
    outcome := match r.error with
      | some reason => .error reason
      | none => .ok (r.payload.getD .null)
    time := r.createdAt.toInstant
    lifetime := r.lifetimeMillis.map fun ms => .ofMillis ms.toNat }

end ResponseRow

/-- What the server stores, with the numbers it gave last. -/
structure Tables where
  instances : List InstanceRow
  responses : List ResponseRow
  waits : List WaitRow
  lastResponse : Nat
  lastWait : Nat
  deriving DecidableEq, Repr

namespace Tables

def empty : Tables := ⟨[], [], [], 0, 0⟩

instance : Inhabited Tables := ⟨empty⟩

def find? (t : Tables) (id : Uuid) : Option InstanceRow := t.instances.find? fun r => r.id == id

def responsesOf (t : Tables) (id : Uuid) : List Response :=
  (t.responses.filter fun r => r.owner == some id).map (·.toResponse)

def waitsOf (t : Tables) (id : Uuid) : List WaitRow := t.waits.filter fun w => w.owner == id

/-- The instance waits and wants an answer to this id. -/
def wants (t : Tables) (r : InstanceRow) (correlation : String) : Bool :=
  r.isAt .waiting &&
    (t.waitsOf r.id).any fun w => w.correlation == correlation && w.answer.isNone

/-- Of the instances that want an answer to this id, the one that was suspended first. -/
def target? (t : Tables) (correlation : String) : Option Uuid :=
  ((t.instances.filter fun r => t.wants r correlation).foldl (fun best r =>
    match best with
    | none => some r
    | some b => if r.waitNumber < b.waitNumber then some r else best) none).map (·.id)

def unmatched? (t : Tables) (correlation : String) : Option ResponseRow :=
  t.responses.find? fun r => r.correlation == correlation && r.owner.isNone

/-- The instance waits and its wait is over. One without waits, or whose quorum means nothing,
waits on. -/
def resolved (t : Tables) (id : Uuid) : Bool :=
  match t.find? id with
  | none => false
  | some r =>
    let waits := t.waitsOf id
    r.isAt .waiting && !waits.isEmpty &&
      match r.quorum.bind Quorum.ofName? with
      | some .first => waits.any fun w => w.answer.isSome
      | some .all => waits.all fun w => w.answer.isSome
      | none => false

end Tables

end Resumption.Relational
