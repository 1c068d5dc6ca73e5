import Resumption.Database.Transaction
import Resumption.Store.Operation
import Resumption.Store.Upkeep

/-!
# The operations of a store through its connection

Each operation of `Store` as a call that can meet a fault. They run inside whatever transaction
they are put into and begin none. `Access` says on whose behalf they run: claims are made in the
name of an engine, and each engine decides for itself whether finished instances are removed.
-/

namespace Resumption

/-- On whose behalf operations run. -/
structure Access where
  engine : String
  removeFinished : Bool
  deriving DecidableEq, Repr, Inhabited

namespace Work

def insert (ws : List Workflow) : Work Unit := call .insert fun s => s.insert ws

def claim (a : Access) (pool : String) (most : Nat) : Work (List Workflow) :=
  callTotal .claim fun s => s.claim a.engine pool most

def notify (rs : List Response) : Work Unit := callTotal .notify fun s => ((), s.notify rs)

def suspend (c : Callback) (payload : Json) : Work Unit :=
  call .suspend fun s => s.suspend c payload

def finish (a : Access) (id : Uuid) : Work Unit :=
  call .finish fun s => s.finish a.removeFinished id

def fail (id : Uuid) (cause : String) : Work Unit := call .fail fun s => s.fail id cause

/-- Makes a failed instance ready again. -/
def restart (id : Uuid) : Work Unit := call .restart fun s => s.restart id

def restartAll : Work Nat := callTotal .restartAll Store.restartAll

def sweep (most : Nat) : Work Nat := do
  let now := (← get).clock
  callTotal .sweep fun s => s.sweep now most

def promote (most : Nat) : Work Nat := do
  let now := (← get).clock
  callTotal .promote fun s => s.promote now most

/-- Makes ready again what an engine left running. -/
def recover (a : Access) : Work Nat := callTotal .recover fun s => s.recover a.engine

def load (id : Uuid) : Work (Option Workflow) := callTotal .load fun s => (s.load id, s)

def execute (a : Access) : Command → Work Unit
  | .suspend c payload => suspend c payload
  | .notify r => notify [r]
  | .finish id => finish a id
  | .fail id cause => fail id cause

/-- Executes commands in order, up to the first that fails. -/
def executeAll (a : Access) : List Command → Work Unit
  | [] => return ()
  | c :: cs => do
    execute a c
    executeAll a cs

def perform (a : Access) : Operation → Work Outcome
  | .insert ws => do insert ws; return .done
  | .claim pool most => do return .claimed (← claim a pool most)
  | .notify rs => do notify rs; return .done
  | .suspend c payload => do suspend c payload; return .done
  | .finish id => do finish a id; return .done
  | .fail id cause => do fail id cause; return .done
  | .restart id => do restart id; return .done
  | .restartAll => do return .counted (← restartAll)
  | .sweep most => do return .counted (← sweep most)
  | .promote most => do return .counted (← promote most)
  | .recover => do return .counted (← recover a)
  | .load id => do return .loaded (← load id)
  | .execute cs => do executeAll a cs; return .done

end Work

end Resumption
