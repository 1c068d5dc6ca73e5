import Resumption.Proofs.Cluster.Task

/-!
# What happens in a cluster

Actors go on in any order, callers ask for anything that they may, responses are delivered inside a
transaction that a caller holds, which is committed, rolled back or forgotten, time passes, the
connection is given other faults and the clock another time, engines join, and processes die.

`Cluster.Permits` is what is assumed of this:

* an actor goes on only when it can;
* no commit reports a failure after it took effect;
* an engine that joins writes every command in a transaction of its own, its runners leave the id of
  a workflow and of its callback alone, and nothing goes on in it;
* **a start begins only where every other engine that claims under the same name is at rest.**

A dispatch that commits an outcome of its instance gives a `Verdict`. `Cluster.verdict?` says so from
the step; that this is all that happens to the instances of dispatches, and that the command of a
verdict takes effect, are `Cluster.Undisturbed` and `Cluster.Performs`.
-/

namespace Resumption

namespace Engine

/-- The engine may join a cluster. -/
structure Fresh (e : Engine) : Prop where
  sync : e.storage.batcher = none
  loyal : e.Loyal
  idle : e.changing = false
  quiet : e.isOver = true

/-- What is left of an engine whose process died. -/
def dead (e : Engine) : Engine :=
  { e with
    owned := false, lifecycle := .failed, changing := false, processors := []
    storage := { e.storage with stopped := true, updater := .ended, reaper := .ended } }

variable {e : Engine}

theorem create_fresh {id : String} {registry : Registry Runner} {inject : Workflow → Workflow}
    {storage : Storage} {processors : Processors} (hs : storage.batcher = none)
    (hl : (create id registry inject storage processors).Loyal)
    (hp : ∀ p ∈ processors, p.isOver = true) :
    (create id registry inject storage processors).Fresh :=
  ⟨hs, hl, rfl, List.all_eq_true.2 hp⟩

theorem Fresh.sound (h : e.Fresh) : e.Sound := by
  refine ⟨h.sync, h.loyal, fun r hr => ?_⟩
  have hn : r.dispatches = [] := by
    have := isOver_dispatches h.quiet
    rw [dispatches_rolls, List.flatMap_eq_nil_iff] at this
    exact this _ hr
  constructor <;> rw [hn]
  · exact fun _ h => nomatch h
  · exact List.nodup_nil
  · exact fun _ h => nomatch h

theorem Fresh.atRest (h : e.Fresh) : e.atRest = true := by
  simp [Engine.atRest, h.quiet, h.idle]

theorem dead_stride (he : e.Sound) (d : Database) : e.Stride d e.dead d :=
  ⟨rfl, ⟨he.sync, he.loyal, fun _ h => nomatch h⟩, fun _ _ h => (nomatch h),
    .mild (List.nil_sublist _) (.refl d)⟩

theorem dead_aged (e : Engine) : e.Aged e.dead := ⟨fun _ h => (nomatch h), fun _ _ => rfl⟩

theorem dead_atRest (e : Engine) : e.dead.atRest = true := rfl

end Engine

/-- Something happens to a cluster. -/
inductive Happening where
  | goes (a : Actor)
  | asks (place : Nat) (d : Demand) (patience : Option Nat)
  /-- Responses are delivered in the transaction that a caller holds. -/
  | delivers (place : Nat) (rs : List Response)
  | holds
  | commits
  | rollsBack
  | forgets
  | passes (time : Nat)
  | weather (faults : List Fault) (clock : Instant)
  | joins (e : Engine)
  | dies (place : Nat)

/-- A dispatch of a pool of an engine, by its number. -/
structure Execution where
  engine : Nat
  place : Nat
  serial : Nat
  deriving DecidableEq, Repr

/-- The command on an instance that an execution has committed. -/
structure Verdict where
  execution : Execution
  subject : Option Uuid
  command : Command

namespace Cluster

/-- The process of an engine dies, with all requests to the engine. -/
def bury (c : Cluster) (place : Nat) : Cluster :=
  { c.modifyEngine place Engine.dead with
    requests := c.requests.filter fun r => r.engine ≠ place }

def happen (c : Cluster) : Happening → Cluster
  | .goes a => c.step a
  | .asks place d patience => (c.request place d patience).2
  | .delivers place rs =>
    match c.engines[place]? with
    | some e => c.modifyDatabase fun d => (e.storage.notifyHeld d rs).2
    | none => c
  | .holds => c.modifyDatabase fun d => (Work.hold.on d).2
  | .commits => c.modifyDatabase fun d => (Work.commitHeld.on d).2
  | .rollsBack => c.modifyDatabase fun d => (Work.rollbackHeld.on d).2
  | .forgets => c.modifyDatabase fun d => (Work.dropHeld.on d).2
  | .passes time => c.passTime time
  | .weather faults clock => c.modifyDatabase fun d => { d with faults, clock }
  | .joins e => c.addEngine e
  | .dies place => c.bury place

def run (c : Cluster) (hs : List Happening) : Cluster := hs.foldl happen c

theorem run_append (c : Cluster) (past later : List Happening) :
    c.run (past ++ later) = (c.run past).run later := List.foldl_append

/-- The place of the engine whose start begins when the actor goes on. -/
def begins? (c : Cluster) : Actor → Option Nat
  | .request serial => (c.request? serial).bind fun r =>
    match r.task with
    | .starting .entering => some r.engine
    | _ => none
  | _ => none

/-- All other engines that claim under the same name are at rest. -/
def Alone (c : Cluster) (place : Nat) : Prop :=
  ∀ e ∈ c.engines[place]?, ∀ o ∈ c.engines.eraseIdx place, o.claimant = e.claimant →
    o.atRest = true

instance (c : Cluster) (place : Nat) : Decidable (c.Alone place) :=
  inferInstanceAs (Decidable (∀ e ∈ c.engines[place]?, ∀ o ∈ c.engines.eraseIdx place, _ → _))

/-- This may happen. -/
def Permits (c : Cluster) : Happening → Prop
  | .goes a => c.ready a = true ∧ ∀ place ∈ c.begins? a, c.Alone place
  | .asks place d _ => place < c.engines.length ∧ d.Allowed
  | .weather faults _ => ∀ f ∈ faults, f.method = .commit → f.after = false
  | .joins e => e.Fresh
  | _ => True

def Legal (c : Cluster) : List Happening → Prop
  | [] => True
  | h :: hs => c.Permits h ∧ (c.happen h).Legal hs

theorem legal_append {c : Cluster} {past later : List Happening} :
    c.Legal (past ++ later) ↔ c.Legal past ∧ (c.run past).Legal later := by
  induction past generalizing c with
  | nil => exact ⟨fun h => ⟨trivial, h⟩, And.right⟩
  | cons x past ih => exact (and_congr_right fun _ => ih).trans and_assoc.symm

instance decidableLegal : (as : List Actor) → (c : Cluster) → Decidable (c.Legal (as.map .goes))
  | [], _ => isTrue trivial
  | a :: as, c =>
    have := decidableLegal as (c.step a)
    inferInstanceAs (Decidable ((c.ready a = true ∧ ∀ place ∈ c.begins? a, c.Alone place) ∧
      (c.step a).Legal (as.map .goes)))

/-! ## Executions -/

def executions (c : Cluster) : List (Engine × Dispatch) :=
  c.engines.flatMap fun e => e.dispatches.map fun y => (e, y)

def dispatch? (c : Cluster) (x : Execution) : Option Dispatch :=
  ((c.engines[x.engine]?).bind fun e => e.pool? x.place).bind fun p => p.dispatch? x.serial

def verdict? (c : Cluster) : Happening → Option Verdict
  | .goes (.dispatch engine place serial) =>
    (c.engines[engine]?).bind fun e => (e.outcome? c.site place serial).map fun (subject, command) =>
      ⟨⟨engine, place, serial⟩, subject, command⟩
  | _ => none

def verdicts (c : Cluster) : List Happening → List Verdict
  | [] => []
  | h :: hs => (c.verdict? h).toList ++ (c.happen h).verdicts hs

/-- The instance whose execution commits an outcome when this happens. -/
def settled? (c : Cluster) (x : Happening) : Option Uuid := (c.verdict? x).bind (·.subject)

/-- When this happens, the instances of the dispatches under way stay as they are, but for the one
that is settled. -/
def Undisturbed (c : Cluster) (x : Happening) : Prop :=
  ∀ e y, (e, y) ∈ c.executions → y.workflow.id ≠ c.settled? x →
    ∀ r ∈ c.site.db.store.records, some r.id = y.workflow.id →
      r ∈ (c.happen x).site.db.store.records

/-- When this happens, the command of the verdict does to the store what it says, on behalf of the
engine. -/
def Performs (c : Cluster) (x : Happening) (v : Verdict) : Prop :=
  ∃ e, c.engines[v.execution.engine]? = some e ∧
    c.site.db.store.execute e.storage.access.removeFinished v.command =
      (.ok (), (c.happen x).site.db.store)

end Cluster

end Resumption
