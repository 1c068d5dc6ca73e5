import Resumption.Database.Operation
import Resumption.Relational.Connection

/-!
# The operations of a relational backend

Each operation as the statements that it has the server execute. They run inside whatever
transaction they are put into and begin none. An operation that fails half way leaves what it did
to the transaction around it.
-/

namespace Resumption.Relational.Query

/-- Stores new instances, up to the first that has no id or is refused. -/
def insert : List Workflow → Query Unit
  | [] => return ()
  | w :: ws => do
    match w.id with
    | none => throw (.invalidArgument "instance has no id")
    | some id => execute "insert workflow instance" (Statement.insertInstance id w)
    insert ws

/-- Claims ready instances of a pool. Each takes along the responses that belong to it. -/
def claim (a : Access) (pool : String) (most : Nat) : Query (List Workflow) := do
  let rows ← execute "claim workflow instances" (Statement.claim a.engine pool most)
  if rows.isEmpty then return []
  let taken ← execute "consume matched responses" (Statement.takeResponses (rows.map (·.id)))
  rows.mapM fun r => r.toWorkflow ((taken.filter fun x => x.owner == some r.id).map (·.toResponse))

def clearWaits (id : Uuid) : Query Unit := execute "delete waits" (Statement.deleteWaits [id])

/-- Makes an instance ready if its wait is over, and says whether it was. -/
def resolve (id : Uuid) : Query Bool := do
  let ended ← execute "check wait condition" (Statement.resolved id)
  if ended then
    let _ ← execute "release waiting instances" (Statement.release id)
    clearWaits id
  return ended

/-- Delivers one response: to the instance that has waited longest for it, or to nobody yet. -/
def deliver (r : Response) : Query Unit := do
  match ← execute "find waiting instance" (Statement.target? r.correlation) with
  | none =>
    let _ ← execute "store response" (Statement.insertResponse r none)
  | some id =>
    let response ← execute "store response" (Statement.insertResponse r (some id))
    execute "attach response" (Statement.attach id r.correlation response)
    let _ ← resolve id

def notify (rs : List Response) : Query Unit := rs.forM deliver

/-- Gives a suspended instance the first unmatched response to each id, until its wait is over. -/
def collect (id : Uuid) : List String → Query Unit
  | [] => return ()
  | c :: cs => do
    match ← execute "find pending response" (Statement.unmatched? c) with
    | none => collect id cs
    | some response =>
      execute "claim pending response" (Statement.assign response id)
      execute "attach response" (Statement.attach id c response)
      unless ← resolve id do collect id cs

/-- Fails unless a statement that changes one instance found it. -/
def found (id : Uuid) (rows : Nat) : Query Unit :=
  if rows = 0 then throw (.instanceNotFound id) else return ()

/-- Suspends an instance on a callback, in whatever stage it is. -/
def suspend (c : Callback) (payload : Json) : Query Unit := do
  found c.instanceId (← execute "register callback" (Statement.suspend c payload))
  clearWaits c.instanceId
  execute "insert waits" (Statement.insertWaits c.instanceId c.correlations)
  collect c.instanceId c.correlations

/-- Finishes an instance: marks it, or removes it. -/
def finish (a : Access) (id : Uuid) : Query Unit := do
  found id <| ←
    if a.removeFinished then execute "remove finished instance" (Statement.remove id)
    else execute "finish instance" (Statement.finish id)
  clearWaits id

def fail (id : Uuid) (cause : String) : Query Unit := do
  found id (← execute "record error" (Statement.fail id cause))
  clearWaits id

def restart (id : Uuid) : Query Unit := do
  if (← execute "restart instance" (Statement.restart id)) = 0 then
    match ← execute "look up instance" (Statement.find? id) with
    | some _ => throw (.notRestartable id)
    | none => throw (.instanceNotFound id)

/-- Makes every failed instance ready again, and counts them. -/
def restartAll : Query Nat := execute "restart instances" Statement.restartAll

/-- Discards unmatched responses that have expired, and counts them. -/
def sweep (most : Nat) : Query Nat := do
  execute "delete stale responses" (Statement.sweep (← get).started most)

/-- Makes due instances ready, and counts them. Those whose deadline came stop waiting. -/
def promote (most : Nat) : Query Nat := do
  let due ← execute "update queue state" (Statement.promote (← get).started most)
  let expired := due.filter fun r => r.isAt .waiting
  unless expired.isEmpty do
    execute "delete waits" (Statement.deleteWaits (expired.map (·.id)))
  return due.length

/-- Makes ready again what an engine left running, and counts it. -/
def recover (a : Access) : Query Nat :=
  execute "resume broken instances" (Statement.recover a.engine)

/-- Looks an instance up, with the responses that belong to it. -/
def load (id : Uuid) : Query (Option Workflow) := do
  match ← execute "load instance" (Statement.find? id) with
  | none => return none
  | some r =>
    let w ← r.toWorkflow []
    let responses ← execute "load matched responses" (Statement.responsesOf id)
    return some { w with responses }

def command (a : Access) : Command → Query Unit
  | .suspend c payload => suspend c payload
  | .notify r => notify [r]
  | .finish id => finish a id
  | .fail id cause => fail id cause

def perform (a : Access) : Operation → Query Outcome
  | .insert ws => do insert ws; return .done
  | .claim pool most => do return .claimed (← claim a pool most)
  | .notify rs => do notify rs; return .done
  | .suspend c payload => do suspend c payload; return .done
  | .finish id => do finish a id; return .done
  | .fail id cause => do fail id cause; return .done
  | .restart id => do restart id; return .done
  | .restartAll => do return .counted (← restartAll)
  | .sweep most => do return .counted (← sweep most)
  | .promote most => do return .counted (← promote most)
  | .recover => do return .counted (← recover a)
  | .load id => do return .loaded (← load id)
  | .execute cs => do cs.forM (command a); return .done

end Resumption.Relational.Query
