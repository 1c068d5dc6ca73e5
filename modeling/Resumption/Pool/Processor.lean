import Resumption.Pool.Basic
import Resumption.Text.Quoted

/-!
# Processors

What an engine wakes, starts and stops under a pool id: a pool, or a probe that runs nothing and
counts what is asked of it.
-/

namespace Resumption

/-- A processor that only counts. -/
structure Probe where
  id : String
  refusesStart : Bool
  refusesStop : Bool
  /-- The engine that the probe was told of. -/
  engine : Option String
  starts : Nat
  stops : Nat
  wakes : Nat
  deriving DecidableEq, Repr

def Probe.create (id : String) (refusesStart refusesStop : Bool) : Probe :=
  ⟨id, refusesStart, refusesStop, none, 0, 0, 0⟩

/-- A pool or a probe. -/
inductive Processor where
  | pool (p : Pool)
  | probe (p : Probe)

namespace Processor

def id : Processor → String
  | pool p => p.settings.id
  | probe p => p.id

def attach (engine : String) : Processor → Processor
  | pool p => pool { p with attached := true }
  | probe p => probe { p with engine := some engine }

def wake : Processor → Processor
  | pool p => pool p.wake
  | probe p => probe { p with wakes := p.wakes + 1 }

def start : Processor → Except PoolError Unit × Processor
  | pool p =>
    match p.start with
    | .ok p => (.ok (), pool p)
    | .error e => (.error e, pool p)
  | probe p =>
    (if p.refusesStart then .error (.store (.database "stub pool")) else .ok (),
      probe { p with starts := p.starts + 1 })

def beginStop : Processor → Pool.StopProgress × Processor
  | pool p =>
    let (progress, p) := p.beginStop
    (progress, pool p)
  | probe p =>
    (.over (if p.refusesStop then .error .shutdownTimeout else .ok ()),
      probe { p with stops := p.stops + 1 })

def pool? : Processor → Option Pool
  | pool p => some p
  | probe _ => none

end Processor

abbrev Processors := List Processor

namespace Processors

def find? (ps : Processors) (id : String) : Option Processor :=
  List.find? (fun p => p.id == id) ps

def knows (ps : Processors) (id : String) : Bool := (ps.find? id).isSome

def add (ps : Processors) (p : Processor) : Except PoolError Processors :=
  if ps.knows p.id then .error (.duplicatePool p.id) else .ok (ps ++ [p])

def ids (ps : Processors) : List String := (ps.map Processor.id).mergeSort (· ≤ ·)

def description (ps : Processors) : String :=
  Text.described "ProcessorPoolManager" "pools" ps.ids

def modify (ps : Processors) (id : String) (f : Processor → Processor) : Processors :=
  ps.map fun p => if p.id = id then f p else p

/-- Starts all processors and gives the first failure. -/
def startAll : Processors → Except PoolError Unit × Processors
  | [] => (.ok (), [])
  | p :: ps =>
    let (r, p) := p.start
    let (rs, ps) := startAll ps
    (match r with
      | .ok () => rs
      | .error e => .error e, p :: ps)

end Processors

end Resumption
