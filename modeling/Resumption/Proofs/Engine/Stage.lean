import Resumption.Proofs.Engine.Orders

/-!
# Where an engine stands

`Engine.Stage` lists where an engine can be: how it stands in its life, whether its gate is open, the
orders that it has given, the start or the stop that is under way, if there is one, and how far that
is. An engine is raw, starting, started, stopping or stopped, or its start has failed, and then it is
brought down like one that stops.

`Stage.enterStart`, `Stage.start`, `Stage.enterStop` and `Stage.stop` are the steps of a start and of
a stop: **from one stage to another, along the steps that a life is made of, with the components as
the orders leave them** (`Led`). Everything else leaves an engine in its stage (`Stage.steady`).
-/

namespace Resumption

namespace Engine

variable {e e' : Engine} {x : Site}

/-! ## The stopping of processors goes on -/

theorem pool_of_standing {place : Nat} {status : PoolStatus}
    (h : e.standings[place]? = some (.pool status)) :
    ∃ p, e.pool? place = some p ∧ p.status = status := by
  rw [standings, List.getElem?_map] at h
  obtain ⟨q, hq, hs⟩ := Option.map_eq_some_iff.1 h
  cases q with
  | probe q => cases hs
  | pool q =>
    cases hs
    exact ⟨q, by rw [pool?, hq]; rfl, rfl⟩

theorem advanceStop_standing (time : Nat) (p : Pool) (d : Database) (s : Pool.Stopping)
    (h : p.status = .draining) :
    Standing.Halts (p.advanceStop time d s).1 (.pool (p.advanceStop time d s).2.1.status) ∧
      (Standing.pool (p.advanceStop time d s).2.1.status).settled = .pool .stopped := by
  have draining : Standing.pool p.status = .pool .draining ∧
      (Standing.pool p.status).settled = .pool .stopped := by rw [h]; exact ⟨rfl, rfl⟩
  have stopped : Standing.pool .stopped ≠ .pool .draining := fun h => nomatch h
  cases s with
  | awaitingPoll => exact draining
  | awaitingDispatches due =>
    rw [Pool.advanceStop]
    split
    · exact ⟨stopped, rfl⟩
    · exact draining
  | awaitingAborted => exact ⟨stopped, rfl⟩

/-- The stopping of one processor goes on, and the others stand as before. -/
theorem advanceHalt_standings {pre post : List Standing} {s : Standing} {h : Pool.StopProgress}
    (he : e.standings = pre ++ s :: post) (hh : s.Halts h) :
    ∃ ps s', (e.advanceHalt x pre.length h).2.1 = { e with processors := ps } ∧
      (e.advanceHalt x pre.length h).2.1.standings = pre ++ s' :: post ∧
        s'.Halts (e.advanceHalt x pre.length h).1 ∧ s'.settled = s.settled := by
  have hplace : e.standings[pre.length]? = some s := by rw [he]; simp
  rcases h with p | r
  · have hs : s = .pool .draining := hh
    subst hs
    obtain ⟨q, hq, hst⟩ := pool_of_standing hplace
    obtain ⟨hhalts, hset⟩ := advanceStop_standing x.time q x.db p hst
    simp only [advanceHalt, hq]
    split
    · refine ⟨_, _, rfl, ?_, hhalts, hset⟩
      rw [setPool_standings, he, List.set_append_right _ _ (Nat.le_refl _), Nat.sub_self,
        List.set_cons_zero]
    · exact ⟨e.processors, _, rfl, he, rfl, rfl⟩
  · exact ⟨e.processors, s, rfl, he, hh, rfl⟩

/-- The stopping of the processors from a place on goes on, where `pre` are those before it. -/
theorem advanceHalts_standings (hs : List Pool.StopProgress) :
    ∀ {e : Engine} {x : Site} {pre post : List Standing}, e.standings = pre ++ post →
      List.Forall₂ Standing.Halts hs post →
      ∃ ps post', (e.advanceHalts x pre.length hs).2.1 = { e with processors := ps } ∧
        (e.advanceHalts x pre.length hs).2.1.standings = pre ++ post' ∧
          List.Forall₂ Standing.Halts (e.advanceHalts x pre.length hs).1 post' ∧
            post'.map Standing.settled = post.map Standing.settled := by
  induction hs with
  | nil =>
    intro e x pre post he h
    cases h
    exact ⟨e.processors, [], rfl, he, .nil, rfl⟩
  | cons h hs ih =>
    intro e x pre post he hall
    cases hall with
    | @cons _ s _ post hh hall =>
      obtain ⟨ps, s', hps, hst, hh', hset⟩ := advanceHalt_standings (x := x) he hh
      -- the one that went on is now among those before the place
      rw [List.append_cons] at hst
      obtain ⟨ps', post', hps', hst', hall', hset'⟩ :=
        ih (x := (e.advanceHalt x pre.length h).2.2) hst hall
      rw [List.length_append, List.length_singleton] at hps' hst' hall'
      refine ⟨ps', s' :: post', hps'.trans (by rw [hps]), ?_, .cons hh' hall', ?_⟩
      · rw [List.append_cons]
        exact hst'
      · rw [List.map_cons, hset, hset', List.map_cons]

/-- **The stopping of the processors goes on**, and nothing else of the engine changes. -/
theorem Halting.advance {halts : List Pool.StopProgress} (h : e.Halting halts) (x : Site) :
    ∃ ps, (e.advanceHalts x 0 halts).2.1 = { e with processors := ps } ∧
      (e.advanceHalts x 0 halts).2.1.Halting (e.advanceHalts x 0 halts).1 ∧
        (e.advanceHalts x 0 halts).2.1.components = e.components := by
  have he : e.standings = [] ++ e.standings := rfl
  obtain ⟨ps, post, hps, hst, hall, hset⟩ := advanceHalts_standings (x := x) halts he h
  rw [List.length_nil] at hps hst hall
  refine ⟨ps, hps, ?_, ?_⟩
  · rw [Halting, hst]
    exact hall
  · rw [components, components, hst, List.nil_append, hset, hps]

theorem outcomes?_over {halts : List Pool.StopProgress} {failures : List PoolError}
    (h : outcomes? halts = some failures) : ∀ h ∈ halts, ∃ r, h = .over r := by
  induction halts generalizing failures with
  | nil => exact fun _ h => nomatch h
  | cons a halts ih =>
    unfold outcomes? at h
    split at h
    · rename_i he; cases he
    · cases h
    · rename_i he
      cases he
      exact List.forall_mem_cons.2 ⟨⟨_, rfl⟩, ih h⟩
    · rename_i he
      cases he
      obtain ⟨fs, hfs, -⟩ := Option.map_eq_some_iff.1 h
      exact List.forall_mem_cons.2 ⟨⟨_, rfl⟩, ih hfs⟩

theorem Halting.settled {halts : List Pool.StopProgress} {failures : List PoolError}
    (h : e.Halting halts) (ho : outcomes? halts = some failures) : e.Settled := by
  intro hm
  obtain ⟨i, hi⟩ := List.getElem?_of_mem hm
  obtain ⟨hlt, hi⟩ := List.getElem?_eq_some_iff.1 hi
  obtain ⟨hl, hall⟩ := List.forall₂_iff_get.1 h
  have hh := hall i (hl ▸ hlt) hlt
  obtain ⟨r, hr⟩ := outcomes?_over ho _ (List.get_mem halts ⟨i, hl ▸ hlt⟩)
  rw [hr] at hh
  exact hh hi

/-! ## Stages -/

/-- The engine stands here in its life, with its gate open or not, and with a start or a stop under
way or not. -/
structure Posed (e : Engine) (l : Lifecycle) (isOpen changing : Bool) : Prop where
  lifecycle : e.lifecycle = l
  gate : e.gate.isOpen = isOpen
  changing : e.changing = changing

/-- **Where an engine can be**, with the orders that it has given, and with the start or the stop that
is under way. -/
inductive Stage (e : Engine) : List Order → Option Task → Prop
  | raw (pose : e.Posed .raw false false) (settled : e.Settled) : Stage e [] none
  | opening {p : Storage.Phase} (pose : e.Posed .raw false true) (settled : e.Settled)
      (storage : p.Opens) :
      Stage e [.startRegistry, .startStorage] (some (.starting (.opening p)))
  | started (pose : e.Posed .started true false) (settled : e.Settled) : Stage e Order.up none
  | failing {given : List Order} {reason : EngineError} {halts : List Pool.StopProgress}
      (pose : e.Posed .failed false true) (brought : given <+: Order.up) (halting : e.Halting halts) :
      Stage e (given ++ [.stopProcessors]) (some (.starting (.closing reason halts)))
  | clearing {given : List Order} {reason : EngineError} {p : Storage.Phase}
      (pose : e.Posed .failed false true) (brought : given <+: Order.up) (settled : e.Settled)
      (storage : p.Shuts e.storage) :
      Stage e (given ++ Order.down) (some (.starting (.shutting reason p)))
  | failed {given : List Order} (pose : e.Posed .failed true false)
      (brought : given <+: Order.up) (settled : e.Settled) (joined : e.storage.Joined) :
      Stage e (given ++ Order.down) none
  | stopping {halts : List Pool.StopProgress} (pose : e.Posed .shuttingDown true true)
      (halting : e.Halting halts) :
      Stage e (Order.up ++ [.stopProcessors]) (some (.stopping (.closing halts)))
  | shutting {outcome : Except EngineError Unit} {p : Storage.Phase}
      (pose : e.Posed .shuttingDown true true) (settled : e.Settled) (storage : p.Shuts e.storage) :
      Stage e (Order.up ++ Order.down) (some (.stopping (.shutting outcome p)))
  | stopped (pose : e.Posed .stopped true false) (settled : e.Settled) (joined : e.storage.Joined) :
      Stage e (Order.up ++ Order.down) none

variable {log given : List Order} {t : Option Task}

theorem Steady.posed {l : Lifecycle} {isOpen changing : Bool} (h : e.Steady e')
    (hp : e.Posed l isOpen changing) : e'.Posed l isOpen changing :=
  ⟨h.lifecycle.trans hp.lifecycle, (congrArg _ h.gate).trans hp.gate, h.changing.trans hp.changing⟩

/-- A start or a stop is under way exactly when the engine is changing. -/
theorem Stage.changing (h : e.Stage log t) : e.changing = t.isSome := by
  cases h <;> exact Posed.changing ‹_›

/-- The gate is closed in a raw engine and while it is started. -/
theorem Stage.gate (h : e.Stage log t) :
    e.gate.isOpen = true ↔ e.lifecycle ≠ .raw ∧ ∀ p, t ≠ some (.starting p) := by
  have hp : ∃ l isOpen changing, e.Posed l isOpen changing ∧
      (isOpen = true ↔ l ≠ .raw ∧ ∀ p, t ≠ some (.starting p)) := by
    cases h <;> exact ⟨_, _, _, ‹_›, by simp⟩
  obtain ⟨l, isOpen, changing, hp, h⟩ := hp
  rw [hp.gate, hp.lifecycle]
  exact h

theorem Stage.shuttingDown {p : StopPhase} (h : e.Stage log (some (.stopping p))) :
    e.lifecycle = .shuttingDown := by
  cases h <;> exact Posed.lifecycle ‹_›

theorem Stage.steady (hs : e.Stage log t) (h : e.Steady e') : e'.Stage log t := by
  have settled : e.Settled → e'.Settled := fun hset => by rw [Settled, h.standings]; exact hset
  have halting : ∀ {halts}, e.Halting halts → e'.Halting halts := fun hh => by
    rw [Halting, h.standings]; exact hh
  have shuts : ∀ {p : Storage.Phase}, p.Shuts e.storage → p.Shuts e'.storage := fun hp =>
    hp.imp_right (And.imp_right h.storage.joined)
  cases hs with
  | raw hp hset => exact .raw (h.posed hp) (settled hset)
  | opening hp hset ho => exact .opening (h.posed hp) (settled hset) ho
  | started hp hset => exact .started (h.posed hp) (settled hset)
  | failing hp hb hh => exact .failing (h.posed hp) hb (halting hh)
  | clearing hp hb hset hph => exact .clearing (h.posed hp) hb (settled hset) (shuts hph)
  | failed hp hb hset hj => exact .failed (h.posed hp) hb (settled hset) (h.storage.joined hj)
  | stopping hp hh => exact .stopping (h.posed hp) (halting hh)
  | shutting hp hset hph => exact .shutting (h.posed hp) (settled hset) (shuts hph)
  | stopped hp hset hj => exact .stopped (h.posed hp) (settled hset) (h.storage.joined hj)

/-! ## Steps of a start or a stop -/

/-- The task that remains, if the start or the stop is not over. -/
def ControlProgress.task? {φ : Type} (task : φ → Task) : ControlProgress φ → Option Task
  | .going p => some (task p)
  | .over _ => none

/-- A step of a start or a stop, which gives these orders. -/
structure Led {φ : Type} (task : φ → Task) (ends : Engine → Except EngineError Unit → Prop)
    (e : Engine) (log given : List Order) (step : ControlProgress φ × Engine × Site) : Prop where
  stage : step.2.1.Stage (log ++ given) (step.1.task? task)
  components : step.2.1.components = given.foldl Order.carry e.components
  moves : step.2.1.lifecycle = e.lifecycle ∨ e.lifecycle.canBecome step.2.1.lifecycle = true
  ends : ∀ r, step.1 = .over r → ends step.2.1 r

/-- How a start ends: the engine is started, or the start has failed and all is shut down. -/
def StartEnds (e : Engine) (r : Except EngineError Unit) : Prop :=
  r = .ok () ∧ e.lifecycle = .started ∨
    (∃ reason, r = .error (.startupFailed reason)) ∧ e.lifecycle = .failed ∧
      e.storage.loopsOver = true

/-- How a stop ends: all is shut down, whether or not some pool failed. -/
def StopEnds (e : Engine) (_ : Except EngineError Unit) : Prop :=
  e.lifecycle = .stopped ∧ e.storage.loopsOver = true

/-- Orders that were given before a step, while the engine stood where it stands. -/
theorem Led.after {φ : Type} {task : φ → Task} {ends : Engine → Except EngineError Unit → Prop}
    {e₁ : Engine} (before : List Order) {step : ControlProgress φ × Engine × Site}
    (h : Led task ends e₁ (log ++ before) given step) (hl : e₁.lifecycle = e.lifecycle)
    (hc : e₁.components = before.foldl Order.carry e.components) :
    Led task ends e log (before ++ given) step :=
  ⟨by rw [← List.append_assoc]; exact h.stage,
    by rw [List.foldl_append, ← hc]; exact h.components, hl ▸ h.moves, h.ends⟩

/-- **A start fails** at any point, and the processors begin to stop. -/
theorem failStart_led (hp : e.Posed .raw false true) (hs : e.Settled) (hb : log <+: Order.up)
    (reason : EngineError) :
    Led .starting StartEnds e log [.stopProcessors] (e.failStart x reason) :=
  ⟨.failing ⟨rfl, hp.gate, hp.changing⟩ hb (beginHalts_halting (e := { e with lifecycle := .failed }) hs),
    beginHalts_components { e with lifecycle := .failed },
    .inr (by rw [hp.lifecycle]; rfl), fun _ h => nomatch h⟩

theorem startProcessors_led (hp : e.Posed .raw false true) (hs : e.Settled) (r : Storage.Reply) :
    Led .starting StartEnds e [.startRegistry, .startStorage] (processorOrders e.processors r)
      (e.startProcessors x r) := by
  have hset := startAll_settled hs
  have hcomp := startAll_components hs
  have failed : ∀ {ps : Processors} (reason : EngineError), Settled { e with processors := ps } →
      components { e with processors := ps } = Order.carry e.components .startProcessors →
      Led .starting StartEnds e [.startRegistry, .startStorage] [.startProcessors, .stopProcessors]
        (failStart { e with processors := ps } x reason) := by
    intro ps reason hset hcomp
    refine .after [.startProcessors]
      (failStart_led (e := { e with processors := ps }) ?_ hset ?_ reason) rfl hcomp
    · exact ⟨hp.lifecycle, hp.gate, hp.changing⟩
    · exact List.prefix_refl Order.up
  cases r
  case refused cause => exact failStart_led hp hs ⟨[.startProcessors], rfl⟩ _
  all_goals
    simp only [startProcessors, processorOrders]
    rcases hall : e.processors.startAll with ⟨_ | _, ps⟩ <;> rw [hall] at hset hcomp
    · exact failed _ hset hcomp
    · exact ⟨.started ⟨rfl, rfl, rfl⟩ hset, hcomp, .inr (by rw [hp.lifecycle]; rfl),
        fun r h => by cases h; exact .inl ⟨rfl, rfl⟩⟩

/-- The components are started one after the other, up to where one fails or the storage makes the
start wait. -/
theorem startComponents_led (hp : e.Posed .raw false true) (hs : e.Settled)
    (hst : e.storage.started = false) :
    Led .starting StartEnds e [] (e.componentOrders x) (e.startComponents x) := by
  -- a processor that is told its engine stands as before
  have hset : e.standings = (e.processors.map (Processor.attach e.id)).map Processor.standing :=
    (e.standings_map fun p => by cases p <;> rfl).symm
  unfold startComponents componentOrders
  split
  · exact failStart_led hp hs List.nil_prefix _
  · dsimp only
    rcases hreg : e.registry.start with cause | registry
    · refine .after [.startRegistry]
        (failStart_led ?_ ?_ ⟨[.startStorage, .startProcessors], rfl⟩ _) rfl ?_
      · exact ⟨hp.lifecycle, hp.gate, hp.changing⟩
      · rw [Settled, hset] at hs
        exact hs
      · simp only [components, List.foldl_cons, List.foldl_nil, Order.carry, hreg, hset]
        rfl
    · simp only [Storage.begin_start_fresh _ hst]
      refine ⟨.opening ⟨hp.lifecycle, hp.gate, hp.changing⟩ ?_ (.inl rfl), ?_, .inl rfl,
        fun _ h => by cases h⟩
      · rw [Settled, hset] at hs
        exact hs
      · simp only [components, List.append_nil, List.foldl_cons, List.foldl_nil, Order.carry, hreg, hset]
        rfl

/-- **A start begins** in a raw engine. -/
theorem Stage.enterStart (h : e.Stage log none) (hl : e.lifecycle = .raw)
    (hst : e.storage.started = false) :
    Led .starting StartEnds e log (e.startOrders x .entering) (e.advanceStart x .entering) := by
  cases h with
  | raw hp hs =>
    rw [startOrders, advanceStart, if_pos hl, if_pos hl]
    have h := startComponents_led (e := { e with changing := true }) (x := x)
      ⟨hp.lifecycle, hp.gate, rfl⟩ hs hst
    exact Led.after (e := e) [] h rfl rfl
  | started hp => rw [hp.lifecycle] at hl; cases hl
  | failed hp => rw [hp.lifecycle] at hl; cases hl
  | stopped hp => rw [hp.lifecycle] at hl; cases hl

/-- The order to stop the storage was not given by bringing an engine up. -/
theorem stop_not_mem (hb : given <+: Order.up) :
    Order.stopStorage ∉ given ++ [Order.stopProcessors] := by
  intro hm
  rcases List.mem_append.1 hm with hm | hm
  · exact absurd (hb.subset hm) (by decide)
  · exact absurd hm (by decide)

/-- **A start goes on.** -/
theorem Stage.start {p : StartPhase} {free : Bool} (h : e.Stage log (some (.starting p)))
    (hst : e.storage.stopped = decide (.stopStorage ∈ log)) (hr : e.startReady x free p = true) :
    Led .starting StartEnds e log (e.startOrders x p) (e.advanceStart x p) := by
  cases h with
  -- the storage goes on, or has answered and the processors are next
  | @opening p hp hs ho =>
    have hsteady := e.storage.advance_steady x.time x.db p
    have hopens := fun q => Storage.advance_opens (s := e.storage) (q := q) x.time x.db ho
    rw [startOrders, advanceStart]
    rcases hadv : e.storage.advance x.time x.db p with ⟨q | r, s, d⟩ <;> rw [hadv] at hsteady hopens
    · have hst := steady_storage hsteady
      rw [← List.append_nil [Order.startRegistry, Order.startStorage]]
      exact ⟨.opening (hst.posed hp) hs (hopens q rfl), hst.components, .inl rfl, fun _ h => by cases h⟩
    · have hst := steady_storage hsteady
      exact .after [] (startProcessors_led (e := { e with storage := s }) (hst.posed hp) hs r) rfl
        hst.components
  -- the processors stop, and then the storage, which was not stopped before
  | @failing b reason halts hp hb hh =>
    obtain ⟨ps, hps, hh', hc⟩ := hh.advance x
    simp only [startOrders, haltOrders, advanceStart]
    rcases hadv : e.advanceHalts x 0 halts with ⟨halts', e₁, x₁⟩
    rw [hadv] at hps hh' hc
    obtain rfl : e₁ = _ := hps
    cases hout : outcomes? halts' with
    | none =>
      refine ⟨?_, hc, .inl rfl, fun _ h => by cases h⟩
      rw [List.append_nil]
      exact .failing ⟨hp.lifecycle, hp.gate, hp.changing⟩ hb hh'
    | some failures =>
      have hs : e.storage.stopped = false := by rw [hst, decide_eq_false (stop_not_mem hb)]
      simp only [shutAfterFailure, Storage.begin_stop_fresh _ hs]
      refine ⟨?_, congrArg (Order.carry · .stopStorage) hc, .inl rfl, fun _ h => by cases h⟩
      rw [List.append_assoc]
      exact .clearing ⟨hp.lifecycle, hp.gate, hp.changing⟩ hb (hh'.settled hout) (.inl rfl)
  -- the storage waits for its worker, and then the start is over
  | @clearing b reason p hp hb hs hph =>
    have hsteady := steady_storage (e.storage.advance_steady x.time x.db p)
    have hshuts := Storage.advance_shuts x.time x.db hph hr
    simp only [startOrders, advanceStart]
    rcases hadv : e.storage.advance x.time x.db p with ⟨q | r, s, d⟩ <;> rw [hadv] at hsteady hshuts
    · obtain ⟨q', hq, hshuts⟩ := hshuts.resolve_right fun h => by cases h.1
      cases hq
      refine ⟨?_, hsteady.components, .inl rfl, fun _ h => by cases h⟩
      rw [List.append_nil]
      exact .clearing (hsteady.posed hp) hb hs hshuts
    · obtain ⟨-, hj, hover⟩ := hshuts.resolve_left (by rintro ⟨_, h, _⟩; cases h)
      refine ⟨?_, hsteady.components, .inl rfl, fun r h => ?_⟩
      · rw [List.append_nil]
        exact .failed ⟨hp.lifecycle, rfl, rfl⟩ hb hs hj
      · cases h
        exact .inr ⟨⟨_, rfl⟩, hp.lifecycle, hover⟩

/-- **A stop begins** in an engine that is started. -/
theorem Stage.enterStop (h : e.Stage log none) (hl : e.lifecycle = .started) :
    Led .stopping StopEnds e log (e.stopOrders x .entering) (e.advanceStop x .entering) := by
  cases h with
  | started hp hs =>
    rw [stopOrders, advanceStop, if_pos hl, if_pos hl]
    exact ⟨.stopping ⟨rfl, hp.gate, rfl⟩
        (beginHalts_halting (e := { e with changing := true, lifecycle := .shuttingDown }) hs),
      beginHalts_components { e with changing := true, lifecycle := .shuttingDown },
      .inr (by rw [hl]; rfl), fun _ h => by cases h⟩
  | raw hp => rw [hp.lifecycle] at hl; cases hl
  | failed hp => rw [hp.lifecycle] at hl; cases hl
  | stopped hp => rw [hp.lifecycle] at hl; cases hl

/-- **A stop goes on.** -/
theorem Stage.stop {p : StopPhase} {free : Bool} (h : e.Stage log (some (.stopping p)))
    (hst : e.storage.stopped = decide (.stopStorage ∈ log)) (hr : e.stopReady x free p = true) :
    Led .stopping StopEnds e log (e.stopOrders x p) (e.advanceStop x p) := by
  cases h with
  | @stopping halts hp hh =>
    obtain ⟨ps, hps, hh', hc⟩ := hh.advance x
    simp only [stopOrders, haltOrders, advanceStop]
    rcases hadv : e.advanceHalts x 0 halts with ⟨halts', e₁, x₁⟩
    rw [hadv] at hps hh' hc
    obtain rfl : e₁ = _ := hps
    cases hout : outcomes? halts' with
    | none =>
      exact ⟨.stopping ⟨hp.lifecycle, hp.gate, hp.changing⟩ hh', hc, .inl rfl, fun _ h => by cases h⟩
    | some failures =>
      have hs : e.storage.stopped = false := by
        rw [hst, decide_eq_false (stop_not_mem (List.prefix_refl Order.up))]
      simp only [Storage.begin_stop_fresh _ hs]
      exact ⟨.shutting ⟨hp.lifecycle, hp.gate, hp.changing⟩ (hh'.settled hout) (.inl rfl),
        congrArg (Order.carry · .stopStorage) hc, .inl rfl, fun _ h => by cases h⟩
  | @shutting outcome p hp hs hph =>
    have hsteady := steady_storage (e.storage.advance_steady x.time x.db p)
    have hshuts := Storage.advance_shuts x.time x.db hph hr
    simp only [stopOrders, advanceStop]
    rcases hadv : e.storage.advance x.time x.db p with ⟨q | r, s, d⟩ <;> rw [hadv] at hsteady hshuts
    · obtain ⟨q', hq, hshuts⟩ := hshuts.resolve_right fun h => by cases h.1
      cases hq
      exact ⟨.shutting (hsteady.posed hp) hs hshuts, hsteady.components, .inl rfl,
        fun _ h => by cases h⟩
    · obtain ⟨-, hj, hover⟩ := hshuts.resolve_left (by rintro ⟨_, h, _⟩; cases h)
      exact ⟨.stopped ⟨rfl, hp.gate, rfl⟩ hs hj, hsteady.components,
        .inr (by rw [hp.lifecycle]; rfl), fun _ _ => ⟨rfl, hover⟩⟩

end Engine

end Resumption
