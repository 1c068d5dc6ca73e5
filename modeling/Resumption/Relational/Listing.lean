import Resumption.Json.Fields
import Resumption.Json.Reader
import Resumption.Relational.Tables

/-!
# Listing and editing tables

What a second client sees in the tables, and what it may write there: the text of one column, with
no text for nothing. A deadline is listed only as past or future.
-/

namespace Resumption.Relational

def InstanceRow.toJson (now : Instant) (r : InstanceRow) : Json :=
  .object [("id", .ofUuid r.id), ("pool_id", .string r.pool), ("priority", .ofInt32 r.priority),
    ("payload", r.payload), ("wait_mode", .ofOption .string r.quorum),
    ("deadline", .ofOption (fun t =>
      .string (if t.toInstant ≤ now then "past" else "future")) r.deadline),
    ("wait_expired", .bool r.waitExpired)]

def ResponseRow.toJson (r : ResponseRow) : Json :=
  .object [("cid", .string r.correlation), ("instance_id", .ofOption .ofUuid r.owner),
    ("payload", r.payload.getD .null), ("error", .ofOption .string r.error),
    ("created_at", .ofInstant r.createdAt.toInstant),
    ("removal_timeout_ms", .ofOption .int r.lifetimeMillis),
    ("expires_at", .ofInstant r.expiresAt.toInstant)]

def WaitRow.toJson (w : WaitRow) : Json :=
  .object [("instance_id", .ofUuid w.owner), ("cid", .string w.correlation),
    ("position", .nat w.position), ("answered", .bool w.answer.isSome)]

def InstanceRow.standing (r : InstanceRow) : Json :=
  .object [("state", .string r.stage), ("claimed_by", .ofOption .string r.claimedBy),
    ("last_error", .ofOption .string r.lastError)]

/-- A column that a second client writes. -/
inductive Column where
  /-- The stage of an instance. -/
  | stage (id : Uuid)
  /-- The quorum of an instance. -/
  | quorum (id : Uuid)
  /-- The engine that claimed an instance. -/
  | claimedBy (id : Uuid)
  /-- The payload of all responses to an id. -/
  | payload (correlation : String)
  /-- The failure that all responses to an id report. -/
  | error (correlation : String)
  /-- The lifetime of all responses to an id. -/
  | lifetime (correlation : String)
  deriving DecidableEq, Repr, Inhabited

namespace Tables

def listedBefore (a b : WaitRow) : Bool :=
  a.owner.text < b.owner.text || (a.owner == b.owner && a.position ≤ b.position)

/-- Lists all rows. Waits are listed by the id of their instance. -/
def toJson (now : Instant) (t : Tables) : Json :=
  .object [("instances", .ofList (fun r => r.toJson now) t.instances),
    ("responses", .ofList (fun r => r.toJson) t.responses),
    ("waits", .ofList (fun w => w.toJson) (t.waits.mergeSort listedBefore))]

/-- Changes the responses to an id, and counts them. -/
def editResponses (t : Tables) (correlation : String) (f : ResponseRow → ResponseRow) :
    Nat × Tables :=
  let p (r : ResponseRow) : Bool := r.correlation == correlation
  (t.responses.countP p, { t with responses := t.responses.map fun r => if p r then f r else r })

def editInstance (t : Tables) (id : Uuid) (f : InstanceRow → InstanceRow) : Nat × Tables :=
  let p (r : InstanceRow) : Bool := r.id == id
  (t.instances.countP p, { t with instances := t.instances.map fun r => if p r then f r else r })

/-- Writes the text of a column and counts the rows. -/
def write (t : Tables) (value : Option String) : Column → Nat × Tables
  | .stage id => t.editInstance id fun r => { r with stage := value.getD r.stage }
  | .quorum id => t.editInstance id fun r => { r with quorum := value }
  | .claimedBy id => t.editInstance id fun r => { r with claimedBy := value }
  | .error c => t.editResponses c fun r => { r with error := value }
  | .payload c => t.editResponses c fun r => { r with
      payload := (value.bind Json.read?).map Json.normalize }
  | .lifetime c => t.editResponses c fun r => { r with
      lifetimeMillis := (value.bind Json.read?).bind Json.int? }

end Tables

end Resumption.Relational
