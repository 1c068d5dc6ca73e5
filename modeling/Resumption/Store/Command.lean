import Resumption.Store.Dispatch
import Resumption.Store.Matching

/-!
# Commands

The writes that many callers issue and that may share a transaction. A batch is executed in order
and stops at the first command that fails.
-/

namespace Resumption

/-- A write that may share a transaction with others (`BatchCommand`). -/
inductive Command where
  /-- Suspend an instance on a callback, with its payload. -/
  | suspend (callback : Callback) (payload : Json)
  /-- Deliver a response. -/
  | notify (response : Response)
  /-- Finish an instance. -/
  | finish (id : Uuid)
  /-- Mark an instance as failed. -/
  | fail (id : Uuid) (cause : String)
  deriving DecidableEq, Repr, Inhabited

namespace Command

def kind : Command → String
  | suspend _ _ => "register_callback"
  | notify _ => "notify"
  | finish _ => "finish"
  | fail _ _ => "error"

/-- The instance that the command writes to, if it names one. -/
def instanceId? : Command → Option Uuid
  | suspend c _ => some c.instanceId
  | notify _ => none
  | finish id => some id
  | fail id _ => some id

end Command

namespace Store

/-- Executes one command; `remove` says whether finished instances are removed. -/
def execute (s : Store) (remove : Bool) : Command → Except StoreError Unit × Store
  | .suspend c payload => s.suspend c payload
  | .notify r => (.ok (), s.notify [r])
  | .finish id => s.finish remove id
  | .fail id cause => s.fail id cause

end Store

end Resumption
