import Resumption.Engine.Runner
import Resumption.Script.Notation

/-!
# Scripted runners

A payload can say itself how its instance runs. `run` is a list of actions, and `pc` the number of
those that are done; a run performs the next one. The advanced `pc` is part of the workflow that
the run leaves behind, and so it counts only when the instance suspends and the payload is stored.
An action is a name, or an object with one name and an argument. Anything else, and the end of the
list, finishes the instance.
-/

namespace Resumption.Script

open Notation

/-- The number of actions that are done. -/
def position (payload : Json) : Nat := ((member payload "pc").size?).getD 0

def nextAction (payload : Json) : String × Json :=
  match (elements payload "run")[position payload]? with
  | some (.string name) => (name, .null)
  | some (.object [(name, argument)]) => (name, argument)
  | _ => ("finish", .null)

/-- The payload with the next action done. -/
def advanced (payload : Json) : Json :=
  match payload with
  | .object _ => payload.set "pc" (.nat (position payload + 1))
  | _ => payload

/-- A run that goes on only when the engine did what it was asked. -/
def orFail (w : Workflow) (next : Answer → Run) : Answer → Run
  | .refused e => .failed w e.chain
  | .crashed message => .panicked w (some message)
  | a => next a

def askAndFinish (w : Workflow) (a : Ask) : Run := .ask a (orFail w fun _ => .finished w)

/-- Registers a callback with the engine and ends as told. -/
def register (w : Workflow) (argument : Json) (ending : Workflow → Run) : Run :=
  match (text? argument "mode").bind Quorum.ofName? with
  | none => .failed w ["bad mode"]
  | some quorum =>
    .ask (.register w quorum (duration? argument "timeout") (texts argument "ids")) <|
      orFail w fun
        | .registered w => ending w
        | _ => ending w

/-- Goes on with a value that makes sense. -/
def orRefuse (w : Workflow) (x : Except StoreError α) (next : α → Run) : Run :=
  match x with
  | .ok a => next a
  | .error e => .failed w [e.message]

def perform (s : Surroundings) (w : Workflow) (argument : Json) : (name : String) → Run
  | "wait" => register w argument .suspended
  | "wait_then_finish" => register w argument .finished
  | "wait_raw" =>
    orRefuse w (callback s.now argument) fun c => .suspended { w with callback := some c }
  | "forget" => .suspended w
  | "fail" => .failed w (((argument.array?).getD []).filterMap Json.string?)
  | "flaky" =>
    .visit fun earlier =>
      if earlier < argument.size?.getD 0 then
        .failed w ["downstream unavailable (attempt " ++ toString (earlier + 1) ++ ")"]
      else .finished w
  | "panic_str" => .panicked w (some "runner exploded")
  | "panic_string" => .panicked w argument.string?
  | "panic_other" => .panicked w none
  | "sleep" => .pause ((ofDuration? argument).getD .zero) (.finished w)
  | "submit" =>
    orRefuse w (((argument.array?).getD []).mapM (submission s.now)) fun batch =>
      askAndFinish w (.submit batch)
  | "submit_one" =>
    orRefuse w (submission s.now argument) fun one => askAndFinish w (.submitOne one)
  | "notify" => askAndFinish w (.notify (response argument))
  | "restart" => askAndFinish w (.restart ((argument.uuid?).getD default))
  | "forget_id" => .finished { w with id := none }
  | "forget_id_fail" => .failed { w with id := none } ["lost"]
  | "forget_id_wait" =>
    let w := { w with id := none }
    .ask (.register w .all none ["lost"]) (orFail w fun
      | .registered w => .suspended w
      | _ => .suspended w)
  | "state" => .failed w ["engine is " ++ s.lifecycle.name]
  | _ => .finished w

def runner : Runner := fun s w =>
  let (name, argument) := nextAction w.payload
  perform s { w with payload := advanced w.payload } argument name

/-- Marks a payload that is an object. -/
def tag (w : Workflow) : Workflow :=
  match w.payload with
  | .object _ => { w with payload := w.payload.set "tag" (.string "injected") }
  | _ => w

end Resumption.Script
