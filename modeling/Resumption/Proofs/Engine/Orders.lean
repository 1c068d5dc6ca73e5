import Mathlib.Data.List.Forall2
import Resumption.Proofs.Engine.Steadiness

/-!
# What an engine orders of its components

A start or a stop of an engine gives orders to its components: to start the registry, to start the
storage, to start all processors, to stop all processors and to stop the storage
(`Engine.startOrders`, `Engine.stopOrders`). What each order does to the components is
`Order.carry`, whatever the component answers.

What comes of a list of orders is said for the storage (`Order.carry_storage`) and for one processor
(`Order.carry_processors`, `Order.onProcessor_probe`). All processors are started and stopped as the
orders say (`startAll_components`, `beginHalts_components`), where a pool that drains counts as
stopped.
-/

namespace Resumption

/-- What an engine orders of its components. -/
inductive Order where
  | startRegistry
  | startStorage
  | startProcessors
  | stopProcessors
  | stopStorage
  deriving DecidableEq, Repr

/-- What was started and stopped of the components of an engine. -/
structure Components where
  registry : Registry Runner
  started : Bool
  stopped : Bool
  processors : List Standing

namespace Standing

/-- A processor is started. One that runs already refuses that and runs on. -/
def start : Standing → Standing
  | pool _ => pool .running
  | probe starts stops => probe (starts + 1) stops

/-- A processor is stopped. A pool that does not run is left as it is. -/
def stop : Standing → Standing
  | pool .running => pool .stopped
  | pool status => pool status
  | probe starts stops => probe starts (stops + 1)

/-- How a processor stands when it has drained. -/
def settled : Standing → Standing
  | pool .draining => pool .stopped
  | s => s

/-- The stopping of a processor may have come this far. -/
def Halts : Pool.StopProgress → Standing → Prop
  | .going _, s => s = pool .draining
  | .over _, s => s ≠ pool .draining

end Standing

namespace Order

/-- What an order does to the components. -/
def carry (c : Components) : Order → Components
  | startRegistry =>
    { c with registry := match c.registry.start with
        | .ok registry => registry
        | .error _ => c.registry }
  | startStorage => { c with started := true }
  | startProcessors => { c with processors := c.processors.map Standing.start }
  | stopProcessors => { c with processors := c.processors.map Standing.stop }
  | stopStorage => { c with stopped := true }

/-- How an engine is brought up. -/
def up : List Order := [startRegistry, startStorage, startProcessors]

/-- How an engine is brought down. -/
def down : List Order := [stopProcessors, stopStorage]

/-- The storage is started by the order to start it and stopped by the order to stop it. -/
theorem carry_storage (os : List Order) (c : Components) :
    (os.foldl carry c).started = (c.started || decide (startStorage ∈ os)) ∧
      (os.foldl carry c).stopped = (c.stopped || decide (stopStorage ∈ os)) := by
  induction os generalizing c with
  | nil => simp
  | cons o os ih =>
    obtain ⟨hs, ht⟩ := ih (carry c o)
    rw [List.foldl_cons, hs, ht]
    cases o <;> simp [carry]

/-- What an order does to one processor. -/
def onProcessor (s : Standing) : Order → Standing
  | startProcessors => s.start
  | stopProcessors => s.stop
  | _ => s

theorem carry_processors (os : List Order) (c : Components) :
    (os.foldl carry c).processors = c.processors.map fun s => os.foldl onProcessor s := by
  induction os generalizing c with
  | nil => exact (List.map_id _).symm
  | cons o os ih =>
    rw [List.foldl_cons, ih]
    cases o <;> simp only [carry, List.map_map] <;> rfl

/-- A probe counts how often it was ordered to start and to stop. -/
theorem onProcessor_probe (os : List Order) (starts stops : Nat) :
    os.foldl onProcessor (.probe starts stops) =
      .probe (starts + os.count startProcessors) (stops + os.count stopProcessors) := by
  induction os generalizing starts stops with
  | nil => rfl
  | cons o os ih =>
    rw [List.foldl_cons]
    cases o <;> simp only [onProcessor, Standing.start, Standing.stop, ih, List.count_cons] <;>
      simp <;> omega

theorem onProcessor_pool (os : List Order) (status : PoolStatus) :
    ∃ status', os.foldl onProcessor (.pool status) = .pool status' := by
  induction os generalizing status with
  | nil => exact ⟨status, rfl⟩
  | cons o os ih =>
    rw [List.foldl_cons]
    cases o with
    | stopProcessors => cases status <;> exact ih _
    | _ => exact ih _

end Order

namespace Engine

variable {e e' : Engine} {x : Site}

/-! ## Orders -/

/-- What is ordered of the processors when the storage has answered to its start. -/
def processorOrders (ps : Processors) : Storage.Reply → List Order
  | .refused _ => [.stopProcessors]
  | _ =>
    match ps.startAll.1 with
    | .ok () => [.startProcessors]
    | .error _ => [.startProcessors, .stopProcessors]

/-- What is ordered when a start begins. -/
def componentOrders (e : Engine) (x : Site) : List Order :=
  if !e.processors.knows Workflow.defaultPool then [.stopProcessors]
  else
    match e.registry.start with
    | .error _ => [.startRegistry, .stopProcessors]
    | .ok _ =>
      [.startRegistry, .startStorage] ++
        match (e.storage.begin x.db .start).1 with
        | .going _ => []
        | .over r => processorOrders (e.processors.map (Processor.attach e.id)) r

/-- What is ordered when the stopping of the processors goes on: the storage is next. -/
def haltOrders (e : Engine) (x : Site) (halts : List Pool.StopProgress) : List Order :=
  match outcomes? (e.advanceHalts x 0 halts).1 with
  | none => []
  | some _ => [.stopStorage]

def startOrders (e : Engine) (x : Site) : StartPhase → List Order
  | .entering => if e.lifecycle = .raw then e.componentOrders x else []
  | .opening p =>
    match (e.storage.advance x.time x.db p).1 with
    | .going _ => []
    | .over r => processorOrders e.processors r
  | .closing _ halts => e.haltOrders x halts
  | .shutting _ _ => []

def stopOrders (e : Engine) (x : Site) : StopPhase → List Order
  | .entering => if e.lifecycle = .started then [.stopProcessors] else []
  | .closing halts => e.haltOrders x halts
  | .shutting _ _ => []

/-- The components, where what is draining counts as stopped. -/
def components (e : Engine) : Components :=
  ⟨e.registry, e.storage.started, e.storage.stopped, e.standings.map Standing.settled⟩

theorem Steady.components (h : e.Steady e') : e'.components = e.components := by
  rw [Engine.components, Engine.components, h.registry, h.storage.started, h.storage.stopped,
    h.standings]

/-! ## Starting and stopping the processors -/

/-- No pool is draining. -/
def Settled (e : Engine) : Prop := Standing.pool .draining ∉ e.standings

/-- The stopping of the processors has come this far. -/
def Halting (e : Engine) (halts : List Pool.StopProgress) : Prop :=
  List.Forall₂ Standing.Halts halts e.standings

theorem beginStop_standing (p : Processor) :
    p.beginStop.2.standing.settled = p.standing.settled.stop ∧
      (p.standing ≠ .pool .draining → Standing.Halts p.beginStop.1 p.beginStop.2.standing) := by
  cases p with
  | probe p => exact ⟨rfl, fun _ h => nomatch h⟩
  | pool p =>
    simp only [Processor.beginStop, Pool.beginStop]
    split
    · rename_i h
      simp only [Processor.standing, h]
      exact ⟨rfl, fun _ => rfl⟩
    · rename_i h
      refine ⟨?_, fun hd => hd⟩
      simp only [Processor.standing]
      cases hs : p.status <;> first | exact absurd hs h | rfl

theorem beginHalts_standings (e : Engine) :
    (beginHalts e).2.standings = e.processors.map fun p => p.beginStop.2.standing := by
  simp only [beginHalts, standings, List.map_map]
  rfl

theorem beginHalts_components (e : Engine) :
    (beginHalts e).2.components = Order.carry e.components .stopProcessors := by
  simp only [components, Order.carry, beginHalts_standings]
  simp only [standings, List.map_map, Components.mk.injEq]
  exact ⟨rfl, rfl, rfl, List.map_congr_left fun p _ => (beginStop_standing p).1⟩

theorem beginHalts_halting (h : e.Settled) : (beginHalts e).2.Halting (beginHalts e).1 := by
  rw [Halting, beginHalts_standings]
  simp only [beginHalts, List.map_map]
  refine List.forall₂_map_left_iff.2 (List.forall₂_map_right_iff.2 (List.forall₂_same.2 ?_))
  exact fun p hp => (beginStop_standing p).2 fun hd => h (hd ▸ List.mem_map_of_mem hp)

theorem start_standing {p : Processor} (h : p.standing ≠ .pool .draining) :
    p.start.2.standing = p.standing.start := by
  cases p with
  | probe p => rfl
  | pool p =>
    simp only [Processor.start, Pool.start]
    split
    · rename_i h
      split at h <;> cases h
      rfl
    · -- a pool that runs refuses to start and runs on
      rename_i h'
      split at h' <;> cases h'
      rename_i hs
      rcases hs with hs | hs
      · simp only [Processor.standing, Standing.start, hs]
      · exact absurd (congrArg Standing.pool hs) h

theorem startAll_standings {ps : Processors} (h : Standing.pool .draining ∉ ps.map Processor.standing) :
    ps.startAll.2.map Processor.standing = (ps.map Processor.standing).map Standing.start := by
  induction ps with
  | nil => rfl
  | cons p ps ih =>
    rw [List.map_cons, List.mem_cons, not_or] at h
    rw [Processors.startAll]
    simp only [List.map_cons, start_standing (Ne.symm h.1), ih h.2]

theorem settled_start {s : Standing} : s.start ≠ .pool .draining := by
  cases s <;> exact fun h => nomatch h

theorem startAll_settled (h : e.Settled) :
    Settled { e with processors := e.processors.startAll.2 } := by
  rw [Settled, standings, startAll_standings h]
  intro hm
  obtain ⟨s, -, hs⟩ := List.mem_map.1 hm
  exact settled_start hs

theorem Settled.standings_settled (h : e.Settled) :
    e.standings.map Standing.settled = e.standings := by
  refine (List.map_congr_left fun s hs => ?_).trans (List.map_id _)
  have hne : s ≠ .pool .draining := fun he => h (he ▸ hs)
  unfold Standing.settled
  split
  · exact absurd rfl hne
  · rfl

theorem startAll_components (h : e.Settled) :
    components { e with processors := e.processors.startAll.2 } =
      Order.carry e.components .startProcessors := by
  simp only [components, Order.carry, (startAll_settled h).standings_settled, h.standings_settled]
  simp only [standings, startAll_standings h]

end Engine

end Resumption
