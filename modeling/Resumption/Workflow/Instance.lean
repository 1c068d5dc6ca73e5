import Resumption.Workflow.Callback

/-!
# Workflow instances

What a caller submits and what a runner is handed. A durable workflow is stored under its id and
dispatched by the pool it names; a transient one has only a type and a payload and cannot be
stored.
-/

namespace Resumption

/-- Where an instance stands in its life (`WorkflowState`). -/
inductive Stage where
  | enqueued
  | ready
  | running
  | waiting
  | finished
  | error
  deriving DecidableEq, Repr, Inhabited

namespace Stage

def name : Stage → String
  | enqueued => "enqueued"
  | ready => "ready"
  | running => "running"
  | waiting => "waiting"
  | finished => "finished"
  | error => "error"

def ofName? : String → Option Stage
  | "enqueued" => some enqueued
  | "ready" => some ready
  | "running" => some running
  | "waiting" => some waiting
  | "finished" => some finished
  | "error" => some error
  | _ => none

theorem ofName?_name (s : Stage) : ofName? s.name = some s := by cases s <;> rfl

end Stage

/-- A durable workflow instance, as it is submitted and as it is handed to a runner
(`PersistentWorkflow`). -/
structure Workflow where
  id : Option Uuid
  type : String
  pool : Option String
  priority : Int32
  stage : Stage
  payload : Json
  callback : Option Callback
  responses : List Response
  waitExpired : Bool
  deriving DecidableEq, Repr, Inhabited

namespace Workflow

/-- The pool of an instance that names none. -/
def defaultPool : String := "P#DEFAULT"

def create (type : String) (payload : Json) : Workflow :=
  { id := none, type, pool := none, priority := 0, stage := .enqueued, payload, callback := none
    responses := [], waitExpired := false }

/-- The pool that dispatches the instance. -/
def effectivePool (w : Workflow) : String := w.pool.getD defaultPool

/-- The first response to a correlation id. -/
def responseTo? (w : Workflow) (correlation : String) : Option Response :=
  w.responses.find? fun r => r.correlation == correlation

end Workflow

/-- A workflow that is never stored. -/
structure Transient where
  type : String
  payload : Json
  deriving DecidableEq, Repr, Inhabited

/-- What a caller hands to the engine (`WorkflowInstance`). -/
inductive Submission where
  | durable (workflow : Workflow)
  | transient (workflow : Transient)
  deriving Repr, Inhabited

namespace Submission

def type : Submission → String
  | durable w => w.type
  | transient t => t.type

def durable? : Submission → Option Workflow
  | durable w => some w
  | transient _ => none

end Submission

end Resumption
