import Resumption.Json.Fields
import Resumption.Workflow.Instance

/-!
# Workflows on the wire

The JSON form of responses, callbacks and workflows, each writer beside its reader. The callback of
a workflow is written only when there is one. A reader accepts every form that `Json.fields?`
accepts, and reading what was written gives the value back, but for lifetimes, which are whole
milliseconds below `2 ^ 64` on the wire.
-/

namespace Resumption

namespace Quorum

def toJson (q : Quorum) : Json := .string q.name

def ofJson? : Json → Option Quorum := Json.named ofName?

end Quorum

namespace Stage

def toJson (s : Stage) : Json := .string s.name

def ofJson? : Json → Option Stage := Json.named ofName?

end Stage

namespace Response

def outcomeToJson : Except String Json → Json
  | .ok payload => .object [("Ok", payload)]
  | .error reason => .object [("Err", .string reason)]

/-- Reads an outcome: exactly one member, success or failure. -/
def outcomeOfJson? : Json → Option (Except String Json)
  | .object [("Ok", payload)] => payload.any?.map .ok
  | .object [("Err", .string reason)] => some (.error reason)
  | _ => none

def toJson (r : Response) : Json :=
  .object [("correlation_id", .string r.correlation), ("outcome", outcomeToJson r.outcome),
    ("timestamp", .ofInstant r.time), ("removal_timeout", .ofOption .ofDuration r.lifetime)]

def fieldNames : List String := ["correlation_id", "outcome", "timestamp", "removal_timeout"]

def ofJson? (j : Json) : Option Response := do
  let f ← j.fields? fieldNames
  let correlation ← f.required "correlation_id" Json.string?
  let outcome ← f.required "outcome" outcomeOfJson?
  let time ← f.required "timestamp" Json.instant?
  let lifetime ← f.defaulted "removal_timeout" (Json.nullable Json.duration?) none
  return { correlation, outcome, time, lifetime }

end Response

namespace Callback

def toJson (c : Callback) : Json :=
  .object [("instance_id", .ofUuid c.instanceId), ("wait_mode", c.quorum.toJson),
    ("deadline", .ofOption .ofInstant c.deadline),
    ("correlation_ids", .ofList .string c.correlations)]

def fieldNames : List String := ["instance_id", "wait_mode", "deadline", "correlation_ids"]

def ofJson? (j : Json) : Option Callback := do
  let f ← j.fields? fieldNames
  let instanceId ← f.required "instance_id" Json.uuid?
  let quorum ← f.required "wait_mode" Quorum.ofJson?
  let deadline ← f.optional "deadline" (Json.nullable Json.instant?)
  let correlations ← f.required "correlation_ids" (Json.listOf Json.string?)
  return { instanceId, quorum, deadline, correlations }

end Callback

namespace Workflow

def toJson (w : Workflow) : Json :=
  .object <|
    [("id", .ofOption .ofUuid w.id), ("workflow_type", .string w.type),
      ("pool_id", .ofOption .string w.pool), ("priority", .ofInt32 w.priority),
      ("state", w.stage.toJson), ("payload", w.payload)] ++
    (match w.callback with
      | none => []
      | some c => [("register_call", c.toJson)]) ++
    [("responses", .ofList Response.toJson w.responses), ("wait_expired", .bool w.waitExpired)]

def fieldNames : List String :=
  ["id", "workflow_type", "pool_id", "priority", "state", "payload", "register_call", "responses",
    "wait_expired"]

def ofJson? (j : Json) : Option Workflow := do
  let f ← j.fields? fieldNames
  let id ← f.optional "id" (Json.nullable Json.uuid?)
  let type ← f.required "workflow_type" Json.string?
  let pool ← f.optional "pool_id" (Json.nullable Json.string?)
  let priority ← f.required "priority" Json.int32?
  let stage ← f.required "state" Stage.ofJson?
  let payload ← f.required "payload" Json.any?
  let callback ← f.defaulted "register_call" (Json.nullable Callback.ofJson?) none
  let responses ← f.defaulted "responses" (Json.listOf Response.ofJson?) []
  let waitExpired ← f.defaulted "wait_expired" Json.bool? false
  return { id, type, pool, priority, stage, payload, callback, responses, waitExpired }

end Workflow

namespace Transient

def toJson (t : Transient) : Json :=
  .object [("workflow_type", .string t.type), ("payload", t.payload)]

def fieldNames : List String := ["workflow_type", "payload"]

def ofJson? (j : Json) : Option Transient := do
  let f ← j.fields? fieldNames
  let type ← f.required "workflow_type" Json.string?
  let payload ← f.required "payload" Json.any?
  return { type, payload }

end Transient

end Resumption
