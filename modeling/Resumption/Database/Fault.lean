/-!
# Faults

What can go wrong between the program and its store. A fault names a method, says whether it
strikes before the call or after a call that went well, how many calls it lets pass and how many it
strikes, and what it does to them. Faults are asked in order and each call meets at most one.
-/

namespace Resumption

/-- What can be asked of a store and of its transactions. -/
inductive Method where
  | insert
  | claim
  | notify
  | suspend
  | finish
  | fail
  | restart
  | restartAll
  | sweep
  | promote
  | recover
  | load
  | begin
  | commit
  | rollback
  deriving DecidableEq, Repr, Inhabited

namespace Method

def name : Method → String
  | insert => "insert"
  | claim => "dequeue"
  | notify => "notify"
  | suspend => "register_callback"
  | finish => "finish"
  | fail => "record_error"
  | restart => "restart"
  | restartAll => "restart_all"
  | sweep => "delete_stale_responses"
  | promote => "update_queue_state"
  | recover => "resume_broken"
  | load => "load"
  | begin => "begin"
  | commit => "commit"
  | rollback => "rollback"

def all : List Method :=
  [insert, claim, notify, suspend, finish, fail, restart, restartAll, sweep, promote, recover,
    load, begin, commit, rollback]

def ofName? (s : String) : Option Method := all.find? fun m => m.name == s

end Method

/-- What a fault does to the call that it strikes. -/
inductive Blow where
  /-- The call reports an error of the database. -/
  | refuse (reason : String)
  /-- The activity that makes the call ends on the spot. -/
  | crash (message : String)
  deriving DecidableEq, Repr, Inhabited

structure Fault where
  method : Method
  after : Bool
  skip : Nat
  times : Nat
  blow : Blow
  deriving DecidableEq, Repr, Inhabited

namespace Fault

def concerns (f : Fault) (method : Method) (after : Bool) : Bool :=
  f.method == method && f.after == after && 0 < f.times

/-- Asks the faults about a call: the first that it concerns lets it pass or strikes it. -/
def meet (method : Method) (after : Bool) : List Fault → Option Blow × List Fault
  | [] => (none, [])
  | f :: fs =>
    if f.concerns method after then
      match f.skip with
      | n + 1 => (none, { f with skip := n } :: fs)
      | 0 => (some f.blow, { f with times := f.times - 1 } :: fs)
    else
      let (b, fs) := meet method after fs
      (b, f :: fs)

end Fault

end Resumption
