import Resumption.Json
import Resumption.Store.Error
import Resumption.Time.Instant

/-!
# Callbacks and responses

An instance suspends on a callback: the correlation ids it waits for, whether it wants all of them
answered or only the first, and possibly a deadline. A response carries one correlation id.

Neither side of the time arithmetic ever overflows into a wrong answer. A deadline that cannot be
represented is no deadline (`Callback.deadlineAfter`), and a response whose lifetime cannot be
added to its time lives to the last instant (`Response.expiry`).
-/

namespace Resumption

/-- How many of its correlation ids a callback wants answered (`WaitMode`). -/
inductive Quorum where
  | all
  | first
  deriving DecidableEq, Repr, Inhabited

namespace Quorum

def name : Quorum → String
  | all => "all"
  | first => "first"

def ofName? : String → Option Quorum
  | "all" => some all
  | "first" => some first
  | _ => none

theorem ofName?_name (q : Quorum) : ofName? q.name = some q := by cases q <;> rfl

end Quorum

/-- What a suspended instance waits for (`RegisterCall`). -/
structure Callback where
  instanceId : Uuid
  quorum : Quorum
  deadline : Option Instant
  correlations : List String
  deriving DecidableEq, Repr, Inhabited

namespace Callback

/-- The deadline that a timeout sets, if there is a timeout and the sum is representable. -/
def deadlineAfter (now : Instant) (timeout : Option Duration) : Option Instant :=
  timeout.bind now.add?

/-- Keeps the ids that are neither in `seen` nor a repetition. -/
def keepNew (seen : List String) : List String → List String
  | [] => []
  | c :: cs => if c ∈ seen then keepNew seen cs else c :: keepNew (c :: seen) cs

/-- Keeps the first occurrence of each correlation id. -/
def distinct (correlations : List String) : List String := keepNew [] correlations

/-- A callback on the distinct ids of a list, which must not be empty. -/
def create (now : Instant) (instanceId : Uuid) (quorum : Quorum) (correlations : List String)
    (timeout : Option Duration) : Except StoreError Callback :=
  if correlations.isEmpty then
    .error (.invalidArgument "register call needs at least one correlation id")
  else .ok ⟨instanceId, quorum, deadlineAfter now timeout, distinct correlations⟩

def expiredAt (c : Callback) (now : Instant) : Bool :=
  match c.deadline with
  | some t => t ≤ now
  | none => false

end Callback

/-- An answer to one correlation id. -/
structure Response where
  correlation : String
  outcome : Except String Json
  time : Instant
  lifetime : Option Duration
  deriving Repr

namespace Response

def isFailure (r : Response) : Bool :=
  match r.outcome with
  | .ok _ => false
  | .error _ => true

/-- When the response may be discarded, given the lifetime of one that sets none (`expires_at`). -/
def expiry (r : Response) (default : Duration) : Instant :=
  (r.time.add? (r.lifetime.getD default)).getD Instant.last

def settle (r : Response) (default : Duration) : Response :=
  { r with lifetime := some (r.lifetime.getD default) }

instance : DecidableEq Response := fun a b =>
  match a, b with
  | ⟨c, .ok x, t, l⟩, ⟨c', .ok x', t', l'⟩ =>
    decidable_of_iff (c = c' ∧ x = x' ∧ t = t' ∧ l = l') (by simp)
  | ⟨c, .error x, t, l⟩, ⟨c', .error x', t', l'⟩ =>
    decidable_of_iff (c = c' ∧ x = x' ∧ t = t' ∧ l = l') (by simp)
  | ⟨_, .ok _, _, _⟩, ⟨_, .error _, _, _⟩ => isFalse (by simp)
  | ⟨_, .error _, _, _⟩, ⟨_, .ok _, _, _⟩ => isFalse (by simp)

instance : Inhabited Response := ⟨⟨"", .ok .null, Instant.epoch, none⟩⟩

end Response

end Resumption
