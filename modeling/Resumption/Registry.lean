import Resumption.Text.Quoted

/-!
# Registries

A registry holds the runner of each workflow type. Registering a type again replaces its runner.
The types are kept in order, so what a registry shows does not depend on the order of
registration. A registry starts only when it knows a type.
-/

namespace Resumption

/-- Why a registry does not start. -/
inductive RegistryError where
  /-- No type is registered. -/
  | empty
  /-- Something else went wrong. -/
  | failed (reason : String)
  deriving DecidableEq, Repr, Inhabited

def RegistryError.message : RegistryError → String
  | empty => "workflow repository has no workflow types"
  | failed reason => "workflow repository failed to start: " ++ reason

def RegistryError.kind : RegistryError → String
  | empty => "Empty"
  | failed _ => "Failed"

/-- The runners of the workflow types, ordered by type (`WorkflowRegistry`). -/
structure Registry (ρ : Type) where
  entries : List (String × ρ)
  started : Bool

namespace Registry

variable {ρ : Type}

def empty : Registry ρ := ⟨[], false⟩

instance : Inhabited (Registry ρ) := ⟨empty⟩

/-- Puts an entry at its place in an ordered list, over an entry of the same type. -/
def place (type : String) (runner : ρ) : List (String × ρ) → List (String × ρ)
  | [] => [(type, runner)]
  | e :: es =>
    if type < e.1 then (type, runner) :: e :: es
    else if type = e.1 then (type, runner) :: es
    else e :: place type runner es

def register (r : Registry ρ) (type : String) (runner : ρ) : Registry ρ :=
  { r with entries := place type runner r.entries }

def runner? (r : Registry ρ) (type : String) : Option ρ := r.entries.lookup type

def contains (r : Registry ρ) (type : String) : Bool := (r.runner? type).isSome

def types (r : Registry ρ) : List String := r.entries.map (·.1)

def size (r : Registry ρ) : Nat := r.entries.length

def start (r : Registry ρ) : Except RegistryError (Registry ρ) :=
  if r.entries.isEmpty then .error .empty else .ok { r with started := true }

def description (r : Registry ρ) : String :=
  Text.described "WorkflowRegistry" "workflow_types" r.types

end Registry

end Resumption
