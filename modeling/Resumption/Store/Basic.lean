import Resumption.Store.Record

/-!
# The store

Instances in the order of their insertion, responses that nobody waits for yet in the order of
their arrival, and the count of sequence numbers drawn so far. One sequence numbers both instances
and suspensions.

An operation that can fail gives back the store as far as it got; undoing a part of the work is the
business of the transaction around it.
-/

namespace Resumption

/-- A response that nobody waited for when it arrived, and when it may be discarded
(`PendingResponse`). -/
structure Unclaimed where
  response : Response
  expiry : Instant
  deriving DecidableEq, Repr, Inhabited

/-- All that is stored (`MemoryState`). -/
structure Store where
  records : List Record
  unclaimed : List Unclaimed
  drawn : Nat
  deriving DecidableEq, Repr

namespace Store

def empty : Store := ⟨[], [], 0⟩

instance : Inhabited Store := ⟨empty⟩

def find? (s : Store) (id : Uuid) : Option Record := s.records.find? fun r => r.id == id

def countAt (s : Store) (stage : Stage) : Nat := s.records.countP fun r => r.stage == stage

def update (s : Store) (id : Uuid) (f : Record → Record) : Store :=
  { s with records := s.records.map fun r => if r.id = id then f r else r }

/-- Changes every record that satisfies `p`, and counts them. -/
def updateWhere (s : Store) (p : Record → Bool) (f : Record → Record) : Nat × Store :=
  (s.records.countP p, { s with records := s.records.map fun r => if p r then f r else r })

/-- Changes the record of an instance that must be there. -/
def modify (s : Store) (id : Uuid) (f : Record → Record) : Except StoreError Unit × Store :=
  match s.find? id with
  | none => (.error (.instanceNotFound id), s)
  | some _ => (.ok (), s.update id f)

/-- Puts a record at the end, under the next number. -/
def append (s : Store) (id : Uuid) (w : Workflow) : Store :=
  { s with
    records := s.records ++ [.ofWorkflow id (s.drawn + 1) w]
    drawn := s.drawn + 1 }

/-- Stores instances one after the other, up to the first that has no id or an id that is taken. -/
def insert (s : Store) : List Workflow → Except StoreError Unit × Store
  | [] => (.ok (), s)
  | w :: ws =>
    match w.id with
    | none => (.error (.invalidArgument "instance has no id"), s)
    | some id =>
      match s.find? id with
      | some _ => (.error (.invalidArgument ("duplicate instance id " ++ id.text)), s)
      | none => (s.append id w).insert ws

def load (s : Store) (id : Uuid) : Option Workflow := (s.find? id).map Record.toWorkflow

end Store

end Resumption
