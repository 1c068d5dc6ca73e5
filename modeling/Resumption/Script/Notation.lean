import Resumption.Json.Fields
import Resumption.Store.Operation

/-!
# A short notation

Responses, callbacks, workflows, commands and operations as a person writes them in a script: most
members may be left out, and one that is there but has the wrong form counts as left out. A
missing member reads as null. Only a callback can fail to make sense, and with it all that
contains one; since a timeout counts from now, reading one takes the time of reading.
-/

namespace Resumption.Notation

def member (j : Json) (name : String) : Json := (j.get? name).getD .null

def text? (j : Json) (name : String) : Option String := (member j name).string?

def textD (j : Json) (name default : String) : String := (text? j name).getD default

/-- A truth value, false if left out. -/
def flag (j : Json) (name : String) : Bool := ((member j name).bool?).getD false

def elements (j : Json) (name : String) : List Json := ((member j name).array?).getD []

def texts (j : Json) (name : String) : List String := (elements j name).filterMap Json.string?

def uuid? (j : Json) (name : String) : Option Uuid := (member j name).uuid?

/-- An identifier, zero if left out. -/
def uuidD (j : Json) (name : String) : Uuid := (uuid? j name).getD default

def instant? (j : Json) (name : String) : Option Instant := (member j name).instant?

/-- A duration in milliseconds, or in seconds and nanoseconds. -/
def ofDuration? : Json → Option Duration
  | .object ms =>
    let part (name : String) : Nat := ((member (.object ms) name).size?).getD 0
    some (.ofNanos (part "secs" * 1000000000 + part "nanos"))
  | j => j.size?.map .ofMillis

def duration? (j : Json) (name : String) : Option Duration := ofDuration? (member j name)

/-- The time of a response that says none: the start of 2100. -/
def laterTime : Instant := ⟨4102444800, 0, by decide, by decide, by decide⟩

/-- A response. A failure wins over a success. -/
def response (j : Json) : Response :=
  { correlation := textD j "cid" ""
    outcome := match text? j "err" with
      | some reason => .error reason
      | none => .ok (member j "ok").normalize
    time := (instant? j "ts").getD laterTime
    lifetime := duration? j "removal" }

/-- A quorum, all if left out. -/
def quorum (j : Json) : Quorum := ((text? j "mode").bind Quorum.ofName?).getD .all

/-- A callback. One that states its deadline is taken as it stands. -/
def callback (now : Instant) (j : Json) : Except StoreError Callback :=
  match j.get? "deadline" with
  | some _ => .ok ⟨uuidD j "instance", quorum j, instant? j "deadline", texts j "ids"⟩
  | none =>
    Callback.create now (uuidD j "instance") (quorum j) (texts j "ids") (duration? j "timeout")

def payload (j : Json) (default : Json) : Json :=
  ((j.get? "payload").map Json.normalize).getD default

def workflow (now : Instant) (j : Json) : Except StoreError Workflow := do
  let callback ←
    match member j "call" with
    | .null => .ok none
    | c => (callback now c).map some
  return { Workflow.create (textD j "type" "t") (payload j (.object [])) with
    id := uuid? j "id"
    pool := text? j "pool"
    priority := ((member j "priority").int32?).getD 0
    stage := ((text? j "state").bind Stage.ofName?).getD .enqueued
    waitExpired := flag j "wait_expired"
    responses := (elements j "responses").map response
    callback }

def submission (now : Instant) (j : Json) : Except StoreError Submission :=
  if flag j "transient" then .ok (.transient ⟨textD j "type" "t", payload j (.object [])⟩)
  else (workflow now j).map .durable

def command (now : Instant) (j : Json) : Except StoreError Command :=
  match textD j "cmd" "" with
  | "register" => do return .suspend (← callback now (member j "call")) (payload j .null)
  | "notify" => .ok (.notify (response (member j "response")))
  | "finish" => .ok (.finish (uuidD j "id"))
  | _ => .ok (.fail (uuidD j "id") (textD j "cause" ""))

def natD (j : Json) (name : String) (default : Nat) : Nat := ((member j name).size?).getD default

def workflows (now : Instant) (j : Json) : Except StoreError (List Workflow) :=
  (elements j "instances").mapM (workflow now)

def operation? (now : Instant) (j : Json) : Option (Except StoreError Operation) :=
  let id := uuidD j "id"
  let most := natD j "max" 0
  match textD j "do" "" with
  | "insert" => some ((workflows now j).map .insert)
  | "dequeue" => some (.ok (.claim (textD j "pool" Workflow.defaultPool) most))
  | "notify" => some (.ok (.notify ((elements j "responses").map response)))
  | "register" =>
    some ((callback now (member j "call")).map fun c => .suspend c (payload j .null))
  | "finish" => some (.ok (.finish id))
  | "record_error" => some (.ok (.fail id (textD j "cause" "")))
  | "restart" => some (.ok (.restart id))
  | "restart_all" => some (.ok .restartAll)
  | "delete_stale" => some (.ok (.sweep most))
  | "update_queue" => some (.ok (.promote most))
  | "resume_broken" => some (.ok .recover)
  | "load" => some (.ok (.load id))
  | "batch" => some (((elements j "commands").mapM (command now)).map .execute)
  | _ => none

end Resumption.Notation
