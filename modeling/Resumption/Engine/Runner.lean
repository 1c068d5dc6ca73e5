import Resumption.Engine.Ask

/-!
# Runners

A runner is handed a workflow and does its work: it may pause, ask the engine and look at the
answers, and it ends in one of four ways, each time with the workflow as it left it. `Run` is that
work as a value, so an engine can carry it out one step at a time.
-/

namespace Resumption

/-- What a runner can see when it begins. -/
structure Surroundings where
  now : Instant
  engine : String
  lifecycle : Lifecycle

/-- The work of a runner (`WorkflowRunner`). -/
inductive Run where
  /-- The instance is done. -/
  | finished (w : Workflow)
  /-- The instance waits for its callback. -/
  | suspended (w : Workflow)
  /-- The work failed; the causes are listed from the outside in. -/
  | failed (w : Workflow) (causes : List String)
  /-- The runner broke down, perhaps with a message. -/
  | panicked (w : Workflow) (message : Option String)
  | pause (d : Duration) (next : Run)
  | ask (a : Ask) (next : Answer → Run)
  /-- Counts a visit of the instance and goes on with the number of earlier ones. -/
  | visit (next : Nat → Run)

abbrev Runner := Surroundings → Workflow → Run

end Resumption
