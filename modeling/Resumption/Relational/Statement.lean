import Resumption.Relational.Error
import Resumption.Relational.Tables

/-!
# Statements

One statement that the server executes: it sees the tables, may change them, and gives an answer.
A statement that the server refuses changes nothing. The server looks at the parameters in their
order before it looks at the rows; a text must not hold the character zero, neither alone nor
inside a JSON value, and a time must be one that a column holds.
-/

namespace Resumption.Relational

abbrev Statement (α : Type) := StateT Tables (Except ServerError) α

namespace Statement

/-! ## Parameters -/

/-- The text holds the character zero. -/
def hasZero (s : String) : Bool := s.toList.contains '\x00'

def text (s : String) : Statement Unit := if hasZero s then throw .zeroInText else return ()

def json (j : Json) : Statement Unit := if j.anyText hasZero then throw .zeroInJson else return ()

def time (t : Instant) : Statement Timestamp :=
  match Timestamp.ofInstant? t with
  | some t => return t
  | none => throw .timestampOutOfRange

/-- Sends the milliseconds of a duration, at most `2 ^ 63 - 1`, which is all that a column holds. -/
def millis (d : Duration) : Int := min d.millis 9223372036854775807

/-! ## Instances -/

/-- Changes the rows of instances that satisfy `p`, and counts them. -/
def updateInstances (p : InstanceRow → Bool) (f : InstanceRow → InstanceRow) : Statement Nat :=
  modifyGet fun t => (t.instances.countP p,
    { t with instances := t.instances.map fun r => if p r then f r else r })

/-- Changes the row of one instance, and counts it. -/
def updateInstance (id : Uuid) (f : InstanceRow → InstanceRow) : Statement Nat :=
  updateInstances (fun r => r.id == id) f

def insertInstance (id : Uuid) (w : Workflow) : Statement Unit := do
  text w.type
  text w.effectivePool
  json w.payload
  let t ← get
  if (t.find? id).isSome then throw (.duplicateKey "dispatch_instances_pkey")
  set { t with instances := t.instances ++ [InstanceRow.ofWorkflow id w] }

/-- Claims ready instances of a pool by falling priority. A row in the answer has the mark of an
expired wait that the claim takes away. -/
def claim (engine pool : String) (most : Nat) : Statement (List InstanceRow) := do
  text pool
  text engine
  let t ← get
  let chosen := ((t.instances.filter fun r => r.isAt .ready && r.pool == pool).mergeSort
    fun a b => b.priority ≤ a.priority).take most
  let running (r : InstanceRow) : InstanceRow :=
    { r with stage := Stage.running.name, claimedBy := some engine }
  let ids := chosen.map (·.id)
  let _ ← updateInstances (fun r => ids.contains r.id) fun r =>
    { running r with waitExpired := false }
  return chosen.map running

/-- Suspends an instance in whatever stage it is, and counts it. -/
def suspend (c : Callback) (payload : Json) : Statement Nat := do
  json payload
  let deadline ← c.deadline.mapM time
  let number ← modifyGet fun t => (t.lastWait + 1, { t with lastWait := t.lastWait + 1 })
  updateInstance c.instanceId fun r =>
    { r with
      stage := Stage.waiting.name, payload, claimedBy := none, quorum := some c.quorum.name
      deadline, waitNumber := number, waitExpired := false }

/-- Deletes an instance with its waits and the responses that belong to it, and counts it. -/
def remove (id : Uuid) : Statement Nat :=
  modifyGet fun t => (t.instances.countP fun r => r.id == id,
    { t with
      instances := t.instances.filter fun r => r.id != id
      waits := t.waits.filter fun w => w.owner != id
      responses := t.responses.filter fun r => r.owner != some id })

def finish (id : Uuid) : Statement Nat := updateInstance id fun r => r.settle .finished

def fail (id : Uuid) (cause : String) : Statement Nat := do
  text cause
  updateInstance id fun r => { r.settle .error with lastError := some cause }

/-- Makes a failed instance ready again, and counts it. -/
def restart (id : Uuid) : Statement Nat :=
  updateInstances (fun r => r.id == id && r.isAt .error) InstanceRow.restart

/-- Makes every failed instance ready again, and counts them. -/
def restartAll : Statement Nat := updateInstances (fun r => r.isAt .error) InstanceRow.restart

/-- Makes ready again what an engine left running, and counts it. -/
def recover (engine : String) : Statement Nat := do
  text engine
  updateInstances (fun r => r.isAt .running && r.claimedBy == some engine) fun r =>
    { r with stage := Stage.ready.name, claimedBy := none }

/-- Makes up to `most` due instances ready, and gives them as they were. -/
def promote (now : Instant) (most : Nat) : Statement (List InstanceRow) := do
  let t ← get
  let due := (t.instances.filter fun r => r.dueAt now).take most
  let ids := due.map (·.id)
  let _ ← updateInstances (fun r => ids.contains r.id) fun r => r.release (r.isAt .waiting)
  return due

def release (id : Uuid) : Statement Nat := updateInstance id fun r => r.release false

def find? (id : Uuid) : Statement (Option InstanceRow) := do return (← get).find? id

/-! ## Waits -/

def insertWaits (owner : Uuid) (correlations : List String) : Statement Unit := do
  correlations.forM text
  unless correlations.Nodup do throw (.duplicateKey "dispatch_waits_pkey")
  modify fun t => { t with
    waits := t.waits ++ correlations.zipIdx.map fun (c, i) => ⟨owner, c, i, none⟩ }

def deleteWaits (owners : List Uuid) : Statement Unit :=
  modify fun t => { t with waits := t.waits.filter fun w => !owners.contains w.owner }

def attach (owner : Uuid) (correlation : String) (response : Nat) : Statement Unit :=
  modify fun t => { t with
    waits := t.waits.map fun w =>
      if w.owner == owner && w.correlation == correlation then { w with answer := some response }
      else w }

/-- Finds the instance that a response to an id goes to. -/
def target? (correlation : String) : Statement (Option Uuid) := do
  text correlation
  return (← get).target? correlation

/-- Looks whether the wait of an instance is over. -/
def resolved (id : Uuid) : Statement Bool := do return (← get).resolved id

/-! ## Responses -/

def insertResponse (r : Response) (owner : Option Uuid) : Statement Nat := do
  text r.correlation
  let (payload, error) ← match r.outcome with
    | .ok payload => do
      json payload
      pure (some payload, none)
    | .error reason => do
      text reason
      pure (none, some reason)
  let createdAt ← time r.time
  let expiresAt ← time (r.expiry .zero)
  modifyGet fun t =>
    let id := t.lastResponse + 1
    (id, { t with
      lastResponse := id
      responses := t.responses ++
        [⟨id, r.correlation, owner, payload, error, createdAt, r.lifetime.map millis, expiresAt⟩] })

def unmatched? (correlation : String) : Statement (Option Nat) := do
  return ((← get).unmatched? correlation).map (·.id)

def assign (response : Nat) (owner : Uuid) : Statement Unit :=
  modify fun t => { t with
    responses := t.responses.map fun r =>
      if r.id == response then { r with owner := some owner } else r }

/-- Deletes the responses that belong to some instances, and gives them. -/
def takeResponses (owners : List Uuid) : Statement (List ResponseRow) :=
  modifyGet fun t =>
    let (taken, kept) := t.responses.partition fun r => r.owner.any owners.contains
    (taken, { t with responses := kept })

def responsesOf (id : Uuid) : Statement (List Response) := do return (← get).responsesOf id

/-- Deletes up to `most` stale responses, and counts them. -/
def sweep (now : Instant) (most : Nat) : Statement Nat :=
  modifyGet fun t =>
    let ids := ((t.responses.filter fun r => r.staleAt now).take most).map (·.id)
    (ids.length, { t with responses := t.responses.filter fun r => !ids.contains r.id })

end Statement

end Resumption.Relational
