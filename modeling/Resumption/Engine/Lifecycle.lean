/-!
# The life of an engine

An engine starts once and stops once. A failed start ends it. Callers that come before the start
is over wait at the gate, which opens when the start has ended, well or badly, and stays open.
-/

namespace Resumption

/-- Where an engine stands in its life (`EngineState`). -/
inductive Lifecycle where
  | raw
  | started
  | shuttingDown
  | stopped
  | failed
  deriving DecidableEq, Repr, Inhabited

namespace Lifecycle

def name : Lifecycle → String
  | raw => "raw"
  | started => "started"
  | shuttingDown => "shutting_down"
  | stopped => "stopped"
  | failed => "failed"

def ofName? : String → Option Lifecycle
  | "raw" => some raw
  | "started" => some started
  | "shutting_down" => some shuttingDown
  | "stopped" => some stopped
  | "failed" => some failed
  | _ => none

def canBecome : Lifecycle → Lifecycle → Bool
  | raw, started => true
  | raw, failed => true
  | started, shuttingDown => true
  | shuttingDown, stopped => true
  | _, _ => false

end Lifecycle

/-- A gate that opens once (`StartupGate`). Those who wait at it pass when it is open. -/
structure Gate where
  isOpen : Bool
  deriving DecidableEq, Repr

namespace Gate

def closed : Gate := ⟨false⟩

instance : Inhabited Gate := ⟨closed⟩

def opened (_ : Gate) : Gate := ⟨true⟩

end Gate

end Resumption
