import Resumption.Database.Journal
import Resumption.Json.Fields

/-!
# Monitors

A monitor listens to the journal and keeps what it hears: the size of every batch of insertions,
the sum of every other measure, the history of each instance, and what was registered with it.
-/

namespace Resumption

/-- What a monitor has heard. -/
structure Monitor where
  inserts : List Nat
  sums : List (String × Nat)
  history : List (Uuid × List String)
  registered : List Event

namespace Monitor

def silent : Monitor := ⟨[], [], [], []⟩

instance : Inhabited Monitor := ⟨silent⟩

/-- Changes the entry under a key, which may be missing. -/
def adjust [BEq κ] (key : κ) (f : Option α → α) : List (κ × α) → List (κ × α)
  | [] => [(key, f none)]
  | (k, a) :: rest => if k == key then (k, f (some a)) :: rest else (k, a) :: adjust key f rest

def hear (m : Monitor) (e : Event) : Monitor :=
  match e with
  | .measured "insert" n => { m with inserts := m.inserts ++ [n] }
  | .measured name n => { m with sums := adjust name (fun sum => sum.getD 0 + n) m.sums }
  | .passed milestone id type =>
    let entry := milestone.name ++ ":" ++ type
    { m with history := adjust id (fun h => h.getD [] ++ [entry]) m.history }
  | .knowsEngine _ => { m with registered := m.registered ++ [e] }
  | .knowsTypes _ => { m with registered := m.registered ++ [e] }
  | .knowsPool _ => { m with registered := m.registered ++ [e] }
  | _ => m

def registeredToJson : Event → Json
  | .knowsEngine id => .object [("engine", .string id)]
  | .knowsTypes types => .object [("types", .ofList .string types)]
  | .knowsPool id => .object [("pool", .string id)]
  | _ => .null

/-- Writes what was heard. A measure that was never taken is left out. -/
def toJson (m : Monitor) : Json :=
  .object [
    ("measures", .object (
      (if m.inserts.isEmpty then [] else [("insert", .ofList .nat m.inserts)]) ++
        m.sums.map fun (name, sum) => (name, .nat sum))),
    ("history", .object (m.history.map fun (id, h) => (id.text, .ofList .string h))),
    ("registered", .ofList registeredToJson m.registered)]

end Monitor

end Resumption
