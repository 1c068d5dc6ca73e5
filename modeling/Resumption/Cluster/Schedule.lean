import Resumption.Cluster.Basic

/-!
# A schedule

One way to order the steps of a cluster. An actor who becomes able to go on stands in a queue and
in due course has a turn, in which it takes steps until it cannot go on. Those who become able at
the same step keep the order in which they became idle.

Some requests stand in the foreground: their callers have no turn of their own but look after
their requests together, each in its order, whenever the queue is empty or a round of 61 turns is
over. An actor who yields waits for the end of the round. Time passes only when nobody can go on,
and then to the next point at which a clock lets somebody. The clock shows whole milliseconds.

Those who find the store taken stand in a line for it, and it is handed to the first of them.
-/

namespace Resumption

/-- A cluster with its actors and the places where they stand. -/
structure Scheduled where
  cluster : Cluster
  /-- The requests in the foreground. -/
  front : List Actor
  /-- Those who have their turn, one after the other. -/
  turn : List Actor
  /-- Those who are to have a turn. -/
  queue : List Actor
  /-- Those who yield. -/
  yielded : List Actor
  idle : List Actor
  /-- Those of the others who wait for the store. -/
  line : List Actor
  /-- The turns that were had in this round. -/
  turns : Nat

namespace Scheduled

def admits (s : Scheduled) (a : Actor) : Bool :=
  s.cluster.site.unlocked && (s.line.isEmpty || s.line.head? == some a)

def able (s : Scheduled) (a : Actor) : Bool := s.cluster.readyWhen (s.admits a) a

/-- Puts those who have become able to go on, and those who have come, into the queue, and forgets
those who have gone. -/
def arrange (s : Scheduled) : Scheduled :=
  let present := s.cluster.actors
  let keep (as : List Actor) : List Actor := as.filter fun a => a ∈ present
  let s := { s with
    front := keep s.front, turn := keep s.turn, queue := keep s.queue, yielded := keep s.yielded
    idle := keep s.idle, line := s.line.filter s.cluster.wantsStore }
  let known := s.front ++ s.turn ++ s.queue ++ s.yielded ++ s.idle
  let (able, idle) := s.idle.partition s.able
  { s with idle, queue := s.queue ++ able ++ present.filter fun a => a ∉ known }

def ofCluster (c : Cluster) : Scheduled := arrange ⟨c, [], [], [], [], [], [], 0⟩

def modify (s : Scheduled) (f : Cluster → Cluster) : Scheduled :=
  arrange { s with cluster := f s.cluster }

/-- Adds a request, in the foreground or not, and gives its number. -/
def request (s : Scheduled) (foreground : Bool) (engine : Nat) (d : Demand)
    (patience : Option Nat) : Nat × Scheduled :=
  let (n, cluster) := s.cluster.request engine d patience
  (n, arrange { s with
    cluster, front := if foreground then s.front ++ [.request n] else s.front })

/-- An actor takes a step. Whoever leaves the line for the store with it is no longer in it. -/
def step (s : Scheduled) (a : Actor) : Scheduled :=
  let line := if s.cluster.wantsStore a then s.line.erase a else s.line
  let s := arrange { s with cluster := s.cluster.step a, line }
  if s.cluster.yields a then
    { s with turn := s.turn.erase a, yielded := s.yielded ++ [a] }
  else s

def retire (s : Scheduled) (a : Actor) (turn : List Actor) : Scheduled :=
  { s with
    turn
    idle := if a ∈ s.front ∨ a ∈ s.idle then s.idle else s.idle ++ [a]
    line := if a ∉ s.line ∧ s.cluster.wantsStore a then s.line ++ [a] else s.line }

/-- A round begins: the callers in the foreground look after their requests, and those who yielded
may go on. -/
def beginRound (s : Scheduled) : Scheduled :=
  { s with turn := s.front, queue := s.queue ++ s.yielded, yielded := [], turns := 0 }

def roundLength : Nat := 61

/-- The next thing that happens before time passes. -/
def advance? (s : Scheduled) : Option Scheduled :=
  match s.turn with
  | a :: turn => some (if s.able a then s.step a else s.retire a turn)
  | [] =>
    match s.queue with
    | a :: queue =>
      if s.turns < roundLength then some { s with turn := [a], queue, turns := s.turns + 1 }
      else some s.beginRound
    | [] => if s.yielded.isEmpty && !s.front.any s.able then none else some s.beginRound

/-- What the clock shows when a point in time is first reached: it shows whole milliseconds. -/
def shown (time : Nat) : Nat := (time + 999999) / 1000000 * 1000000

/-- Time passes until the clock has reached a point. -/
def passTime (s : Scheduled) (time : Nat) : Scheduled := s.modify fun c => c.passTime (shown time)

/-- Lets things happen, at most as many as `fuel` says, until `enough` holds or a point in time is
reached. -/
def run (enough : Cluster → Bool) (limit : Option Nat) : (fuel : Nat) → Scheduled → Scheduled
  | 0, s => s
  | fuel + 1, s =>
    if enough s.cluster then { s with turn := [] }
    else
      match s.advance? with
      | some s => run enough limit fuel s
      | none =>
        match s.cluster.nextDue?, limit with
        | some t, none => run enough limit fuel (s.passTime t).beginRound
        | some t, some limit =>
          if shown t < shown limit then run enough (some limit) fuel (s.passTime t).beginRound
          else s.passTime limit
        | none, some limit => s.passTime limit
        | none, none => s

def runFuel : Nat := 100000000

/-- The callers in the foreground wait until none of these requests is under way. -/
def runUntilOver (s : Scheduled) (serials : List Nat) : Scheduled :=
  run (fun c => serials.all fun n => (c.request? n).isNone) none runFuel s.beginRound

def runFor (s : Scheduled) (span : Nat) : Scheduled :=
  run (fun _ => false) (some (s.cluster.site.time + span)) runFuel { s with turns := 0 }

end Scheduled

end Resumption
