import Resumption.Engine.Control
import Resumption.Proofs.Storage.Steadiness

/-!
# What starts and stops an engine

Where an engine stands in its life, its gate, and what was started and stopped of its components
change by a start or a stop of the engine alone: everything that is asked of it, its dispatches and
its poll loops leave that as it is (`Engine.Steady`).
-/

namespace Resumption

/-- What was started and stopped of a processor: how a pool stands, and how often a probe was started
and stopped. -/
inductive Standing where
  | pool (status : PoolStatus)
  | probe (starts stops : Nat)
  deriving DecidableEq, Repr

def Processor.standing : Processor → Standing
  | pool p => .pool p.status
  | probe p => .probe p.starts p.stops

namespace Engine

def standings (e : Engine) : List Standing := e.processors.map Processor.standing

/-- At the same point of its life, with the same components started and stopped. -/
structure Steady (e e' : Engine) : Prop where
  lifecycle : e'.lifecycle = e.lifecycle
  gate : e'.gate = e.gate
  changing : e'.changing = e.changing
  registry : e'.registry = e.registry
  storage : e.storage.Steady e'.storage
  standings : e'.standings = e.standings

variable {e e' e'' : Engine} {x : Site}

theorem Steady.refl (e : Engine) : e.Steady e := ⟨rfl, rfl, rfl, rfl, .refl _, rfl⟩

theorem Steady.trans (h : e.Steady e') (h' : e'.Steady e'') : e.Steady e'' :=
  ⟨h'.lifecycle.trans h.lifecycle, h'.gate.trans h.gate, h'.changing.trans h.changing,
    h'.registry.trans h.registry, h.storage.trans h'.storage, h'.standings.trans h.standings⟩

theorem steady_storage {s : Storage} (h : e.storage.Steady s) : e.Steady { e with storage := s } :=
  ⟨rfl, rfl, rfl, rfl, h, rfl⟩

/-- Processors that are changed one by one, none of them started or stopped. -/
theorem standings_map (e : Engine) {f : Processor → Processor}
    (hf : ∀ p, (f p).standing = p.standing) :
    standings { e with processors := e.processors.map f } = e.standings := by
  simp only [standings, List.map_map]
  exact List.map_congr_left fun p _ => hf p

theorem pool_standing {place : Nat} {p : Pool} (h : e.pool? place = some p) :
    e.standings[place]? = some (.pool p.status) := by
  obtain ⟨q, hq, hp⟩ := Option.bind_eq_some_iff.1 h
  cases q with
  | probe q => cases hp
  | pool q =>
    cases hp
    rw [standings, List.getElem?_map, hq]
    rfl

theorem setPool_standings (e : Engine) (place : Nat) (p : Pool) :
    (e.setPool place p).standings = e.standings.set place (.pool p.status) := List.map_set

theorem steady_setPool {place : Nat} {p p' : Pool} (h : e.pool? place = some p)
    (hs : p'.status = p.status) : e.Steady (e.setPool place p') := by
  refine ⟨rfl, rfl, rfl, rfl, .refl _, ?_⟩
  obtain ⟨hlt, he⟩ := List.getElem?_eq_some_iff.1 (pool_standing h)
  rw [setPool_standings, hs, ← he, List.set_getElem_self]

theorem steady_modifyPool (e : Engine) (place : Nat) {f : Pool → Pool}
    (hf : ∀ p, (f p).status = p.status) : e.Steady (e.modifyPool place f) := by
  unfold modifyPool
  split
  · exact steady_setPool ‹_› (hf _)
  · exact .refl e

/-! ## Asks -/

theorem wakePool_steady (e : Engine) (d : Database) (pool : String) :
    e.Steady (e.wakePool d pool).1 := by
  unfold wakePool
  split
  · refine ⟨rfl, rfl, rfl, rfl, .refl _, e.standings_map fun p => ?_⟩
    split
    · cases p <;> rfl
    · rfl
  · exact .refl e

theorem conclude_engine (e : Engine) (x : Site) (errand : Errand) (r : Storage.Reply) :
    (e.conclude x errand r).2.1 = e := by
  unfold conclude
  split <;> rfl

theorem send_steady (e : Engine) (x : Site) {c : Storage.Call} (hc : c.Ordinary) (errand : Errand) :
    e.Steady (e.send x c errand).2.1 := by
  have h := e.storage.begin_steady x.db hc
  unfold send
  split <;> rename_i he <;> rw [he] at h
  · exact steady_storage h
  · rw [conclude_engine]
    exact steady_storage h

theorem sendWork_steady (e : Engine) (x : Site) (single : Bool) (batch : List Submission) :
    e.Steady (e.sendWork x single batch).2.1 := by
  unfold sendWork
  split
  · exact .refl e
  · split
    · exact .refl e
    · exact e.send_steady _ (c := .insert _) trivial _

theorem storeHeld_steady (e : Engine) (x : Site) (batch : List Submission) :
    e.Steady (e.storeHeld x batch).2.1 := by
  unfold storeHeld
  split
  · exact .refl e
  · rename_i work x₁ _
    have h := e.storage.insertHeld_steady x₁.db (work.map (·.2))
    dsimp only
    split <;> rename_i he <;> rw [he] at h <;> exact steady_storage h

theorem accept_steady (e : Engine) (x : Site) (a : Ask) : e.Steady (e.accept x a).2.1 := by
  cases a with
  | submit batch => exact e.sendWork_steady x false batch
  | submitOne one => exact e.sendWork_steady x true [one]
  | submitHeld batch => exact e.storeHeld_steady x batch
  | register w quorum timeout correlations => exact .refl e
  | notify r => exact e.send_steady x (c := .notify r) trivial _
  | notifyAll rs => exact e.send_steady x (c := .notifyAll rs) trivial _
  | restart id => exact e.send_steady x (c := .restart id) trivial _
  | restartAll => exact e.send_steady x (c := .restartAll) trivial _

/-- **A step of an ask.** -/
theorem advanceAsk_steady (e : Engine) (x : Site) (p : AskPhase) :
    e.Steady (e.advanceAsk x p).2.1 := by
  cases p with
  | arriving a =>
    rw [advanceAsk]
    split
    · split
      · exact e.accept_steady x a
      · exact .refl e
    · exact e.accept_steady x a
  | storing p errand =>
    have h := e.storage.advance_steady x.time x.db p
    rw [advanceAsk]
    split <;> rename_i he <;> rw [he] at h
    · exact steady_storage h
    · rw [conclude_engine]
      exact steady_storage h
  | waking a pools =>
    cases pools with
    | nil => exact .refl e
    | cons pool pools => exact e.wakePool_steady x.db pool

/-! ## Dispatches and poll loops -/

theorem settle_steady (e : Engine) (x : Site) {c : Storage.Call} (hc : c.Ordinary) :
    e.Steady (e.settle x c).2.1 := by
  have h := e.storage.begin_steady x.db hc
  unfold settle
  split <;> rename_i he <;> rw [he] at h <;> exact steady_storage h

theorem settled_steady (e : Engine) (x : Site) (s : Settlement) (r : Storage.Reply) :
    e.Steady (e.settled x s r).2.1 := by
  unfold settled
  split
  · exact e.settle_steady _ (c := .fail _ _) trivial
  · exact .refl e

theorem settleSuspension_steady (e : Engine) (x : Site) (w : Workflow) :
    e.Steady (e.settleSuspension x w).2.1 := by
  have h := e.storage.begin_steady x.db (c := .suspend w) trivial
  unfold settleSuspension
  split <;> rename_i he <;> rw [he] at h
  · exact steady_storage h
  · exact (steady_storage h).trans (settled_steady _ _ _ _)

theorem beginRun_steady (e : Engine) (x : Site) (found : Bool) (w : Workflow) :
    e.Steady (e.beginRun x found w).2.1 := by
  unfold beginRun
  split
  · exact e.settle_steady _ (c := .fail _ _) trivial
  · split
    · exact e.settle_steady _ (c := .fail _ _) trivial
    · exact .refl e

theorem continueRun_steady (e : Engine) (x : Site) (claimed : Workflow) (r : Run) :
    e.Steady (e.continueRun x claimed r).2.1 := by
  cases r with
  | finished w => exact e.settle_steady x (c := .finish w) trivial
  | suspended w =>
    rw [continueRun]
    split
    · exact e.settleSuspension_steady x w
    · exact e.settle_steady _ (c := .fail _ _) trivial
  | failed w causes => exact e.settle_steady _ (c := .fail _ _) trivial
  | panicked w message => exact e.settle_steady _ (c := .fail _ _) trivial
  | pause d next => exact .refl e
  | ask a next => exact .refl e
  | visit next => exact .refl e

theorem advanceDispatch_steady (e : Engine) (x : Site) (found : Bool) (claimed : Workflow)
    (p : DispatchPhase) : e.Steady (e.advanceDispatch x found claimed p).2.1 := by
  cases p with
  | fresh => exact e.beginRun_steady x found claimed
  | running r => exact e.continueRun_steady x claimed r
  | pausing due next => exact .refl e
  | asking p next =>
    have h := e.advanceAsk_steady x p
    rw [advanceDispatch]
    split <;> rename_i he <;> rw [he] at h <;> exact h
  | settling p s =>
    have h := e.storage.advance_steady x.time x.db p
    rw [advanceDispatch]
    split <;> rename_i he <;> rw [he] at h
    · exact steady_storage h
    · exact (steady_storage h).trans (settled_steady _ _ _ _)

/-- **A step of a dispatch.** -/
theorem stepDispatch_steady (e : Engine) (x : Site) (alive : Bool) (place serial : Nat) :
    e.Steady (e.stepDispatch x alive place serial).1 := by
  unfold stepDispatch
  split
  · exact .refl e
  · rename_i p y heq
    obtain ⟨q, hq, hy⟩ := Option.bind_eq_some_iff.1 heq
    obtain ⟨_, _, he⟩ := Option.map_eq_some_iff.1 hy
    cases he
    split
    · exact steady_setPool hq rfl
    · have h := e.advanceDispatch_steady x (alive && p.attached) y.workflow y.phase
      dsimp only
      split <;> rename_i he <;> rw [he] at h
      · exact h.trans (steady_modifyPool _ _ fun _ => rfl)
      · exact h.trans (steady_modifyPool _ _ fun _ => rfl)

theorem afterClaim_status (p : Pool) (time slots : Nat) (ws : List Workflow) :
    (p.afterClaim time slots ws).status = p.status := by
  unfold Pool.afterClaim
  dsimp only
  split <;> rfl

theorem stepPoll_status (time : Nat) (p : Pool) (s : Storage) (d : Database) :
    (p.stepPoll time s d).1.status = p.status ∧ s.Steady (p.stepPoll time s d).2.1 := by
  unfold Pool.stepPoll
  split
  · refine ⟨?_, .refl s⟩
    dsimp only
    split <;> rfl
  · rename_i n _
    have h := s.state_steady d (.claim p.settings.id n)
    split <;> rename_i he <;> rw [he] at h
    · exact ⟨afterClaim_status _ _ _ _, h⟩
    · exact ⟨rfl, h⟩
    · exact ⟨afterClaim_status _ _ _ _, h⟩
  · split <;> exact ⟨rfl, .refl s⟩
  · exact ⟨rfl, .refl s⟩

/-- **A step of a poll loop.** -/
theorem stepPoll_steady (e : Engine) (x : Site) (place : Nat) : e.Steady (e.stepPoll x place).1 := by
  unfold stepPoll
  split
  · exact .refl e
  · rename_i p hp
    obtain ⟨hs, hst⟩ := stepPoll_status x.time p e.storage x.db
    exact (steady_storage hst).trans (steady_setPool hp hs)

end Engine

end Resumption
