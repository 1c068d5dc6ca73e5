import Resumption.Workflow.Instance

/-!
# The journal

What the program tells the outside besides its answers: warnings and errors, measurements, the
history of instances, and the parts that were registered with a monitor. Events are kept latest
first.
-/

namespace Resumption

/-- A step in the history of an instance (`ProcessingState`). -/
inductive Milestone where
  | dequeued
  | waiting
  | finished
  | error
  deriving DecidableEq, Repr, Inhabited

def Milestone.name : Milestone → String
  | dequeued => "Dequeued"
  | waiting => "Waiting"
  | finished => "Finished"
  | error => "Error"

/-- The call that a transaction makes. -/
inductive Boundary where
  | begin
  | commit
  | rollback
  deriving DecidableEq, Repr, Inhabited

def Boundary.name : Boundary → String
  | begin => "begin"
  | commit => "commit"
  | rollback => "rollback"

/-- Something that the program tells. -/
inductive Event where
  | warning (text : String)
  | fault (text : String)
  | boundary (call : Boundary)
  | measured (name : String) (count : Nat)
  | passed (milestone : Milestone) (id : Uuid) (type : String)
  | knowsEngine (id : String)
  | knowsTypes (types : List String)
  | knowsPool (id : String)
  deriving DecidableEq, Repr, Inhabited

end Resumption
