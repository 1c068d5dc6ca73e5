import Resumption.Store.Basic

/-!
# Matching responses with waits

The two sides come in either order. A response goes to the earliest suspension that wants it and
otherwise stays unclaimed; a new suspension takes, id by id, the earliest unclaimed response, and
stops as soon as its wait is over. Either way a response answers exactly one wait.
-/

namespace Resumption

namespace Record

def suspensionNumber (r : Record) : Nat :=
  match r.status with
  | .waiting s => s.number
  | _ => 0

def earliest : List Record → Option Record
  | [] => none
  | r :: rs =>
    match earliest rs with
    | none => some r
    | some b => if r.suspensionNumber ≤ b.suspensionNumber then some r else some b

end Record

namespace Store

/-- The instance that a response goes to. -/
def target? (s : Store) (correlation : String) : Option Record :=
  Record.earliest (s.records.filter fun r => r.wants correlation)

/-- Delivers one response (`match_response`), which is kept if nobody waits for it. -/
def deliver (s : Store) (r : Response) : Store :=
  match s.target? r.correlation with
  | some t => s.update t.id fun x => x.answer r
  | none => { s with unclaimed := s.unclaimed ++ [⟨r, r.expiry .zero⟩] }

def notify (s : Store) (responses : List Response) : Store := responses.foldl deliver s

/-- Takes the earliest response to an id out of a list. -/
def takeFirst (correlation : String) :
    List Unclaimed → Option (Response × List Unclaimed)
  | [] => none
  | u :: us =>
    if u.response.correlation = correlation then some (u.response, us)
    else (takeFirst correlation us).map fun (r, rest) => (r, u :: rest)

/-- Gives a waiting record the earliest unclaimed response to each id, until its wait is over. -/
def collect (r : Record) (unclaimed : List Unclaimed) :
    List String → Record × List Unclaimed
  | [] => (r, unclaimed)
  | c :: cs =>
    match r.status with
    | .waiting _ =>
      match takeFirst c unclaimed with
      | some (response, rest) => collect (r.answer response) rest cs
      | none => collect r unclaimed cs
    | _ => (r, unclaimed)

/-- Suspends an instance on a callback (`register_callback`), in whatever stage it is. The number of
the suspension is drawn even when there is no such instance. -/
def suspend (s : Store) (c : Callback) (payload : Json) : Except StoreError Unit × Store :=
  let s := { s with drawn := s.drawn + 1 }
  match s.find? c.instanceId with
  | none => (.error (.instanceNotFound c.instanceId), s)
  | some r =>
    let (r, rest) :=
      collect (r.suspend payload (.ofCallback c s.drawn)) s.unclaimed c.correlations
    (.ok (), { s.update c.instanceId fun _ => r with unclaimed := rest })

end Store

end Resumption
