import Resumption.Proofs.Engine.Deed

/-!
# Starting and stopping an engine

An engine that is not started has nothing going on in its pools, and nothing that was started goes
back (`Engine.Aged`). A start is the only task that lets anything begin, and it recovers before it
does: while it opens the storage, the engine is raw and a change is under way, which keeps every
other start and stop out (`StartPhase.Sound`).

`advanceStart_controlled` and `advanceStop_controlled` are the steps. Apart from the recovery, both
are the business of no instance that runs or is finished, and neither ends a dispatch.
-/

namespace Resumption

namespace Engine

/-- What was started is not raw again, and where nothing goes on, nothing begins but by a start. -/
structure Aged (e e' : Engine) : Prop where
  born : e.lifecycle ≠ .raw → e'.lifecycle ≠ .raw
  quiet : e.lifecycle ≠ .raw ∨ e'.lifecycle = .raw → e.isOver = true → e'.isOver = true

variable {e e' e'' : Engine} {x : Site}

theorem Placid.aged (h : e.Placid e') : e.Aged e' :=
  ⟨fun hr => h.lifecycle ▸ hr, fun _ => h.quiet⟩

/-- An engine that was started and is at rest stays so. -/
theorem Aged.atRest (h : e.Aged e') (hr : e.lifecycle ≠ .raw) (ha : e.atRest = true) :
    e'.atRest = true := by
  have hb := h.born hr
  simp only [Engine.atRest, Bool.and_eq_true] at ha ⊢
  exact ⟨h.quiet (.inl hr) ha.1, by simp [hb]⟩

theorem alike_of_eq (hs : e'.storage = e.storage) (hr : e'.registry = e.registry)
    (hi : e'.inject = e.inject) (hp : e'.processors = e.processors) : e.Alike e' :=
  ⟨by rw [hs]; exact .refl _, fun t => by rw [hr], hi, by rw [rolls, hp]; rfl⟩

/-! ## Phases of a start or a stop -/

/-- The start may be in this phase of this engine. -/
def StartPhase.Sound (e : Engine) : StartPhase → Prop
  | .entering => True
  | .opening p => (p = .sweeping ∨ p = .recovering) ∧ e.lifecycle = .raw ∧ e.changing = true
  | .closing _ _ => e.lifecycle ≠ .raw
  | .shutting _ p => e.lifecycle ≠ .raw ∧ p.Gentle

/-- The stop may be in this phase of this engine. -/
def StopPhase.Sound (e : Engine) : StopPhase → Prop
  | .entering => True
  | .closing _ => e.lifecycle ≠ .raw
  | .shutting _ p => e.lifecycle ≠ .raw ∧ p.Gentle

/-! ## Stopping processors -/

theorem beginStop_roll (p : Processor) :
    p.beginStop.2.roll? = p.roll? ∧ (p.isOver = true → p.beginStop.2.isOver = true) := by
  cases p with
  | probe p => exact ⟨rfl, fun h => h⟩
  | pool p =>
    simp only [Processor.beginStop, Pool.beginStop]
    split <;> exact ⟨rfl, fun h => h⟩

theorem beginHalts_calm (e : Engine) : e.Calm (beginHalts e).2 := by
  have h := e.calm_map (f := fun p => p.beginStop.2) (fun p => (beginStop_roll p).1)
    fun p => (beginStop_roll p).2
  have he : (beginHalts e).2 = { e with processors := e.processors.map fun p => p.beginStop.2 } := by
    simp [beginHalts]
  rw [he]
  exact h

theorem advanceStop_pool (time : Nat) (p : Pool) (d : Database) (s : Pool.Stopping) :
    (p.advanceStop time d s).2.1.roll = p.roll ∧
      (p.isOver = true → (p.advanceStop time d s).2.1.isOver = true) ∧
      d.Told (p.advanceStop time d s).2.2 := by
  have ended : p.isOver = true → Pool.isOver { p with poll := .absent } = true := by
    simp only [Pool.isOver, Bool.and_eq_true]
    exact fun h => ⟨rfl, h.2⟩
  cases s with
  | awaitingPoll =>
    refine ⟨rfl, ended, ?_⟩
    simp only [Pool.advanceStop]
    split
    · exact d.told_tell _
    · exact .refl d
  | awaitingDispatches due =>
    simp only [Pool.advanceStop]
    split
    · exact ⟨rfl, fun h => h, .refl d⟩
    · exact ⟨rfl, fun h => h, d.told_tell _⟩
  | awaitingAborted => exact ⟨rfl, fun h => h, .refl d⟩

theorem advanceHalt_calm (e : Engine) (x : Site) (place : Nat) (h : Pool.StopProgress) :
    e.Calm (e.advanceHalt x place h).2.1 ∧ x.db.Told (e.advanceHalt x place h).2.2.db := by
  unfold advanceHalt
  split
  · exact ⟨.refl e, .refl x.db⟩
  · exact ⟨.refl e, .refl x.db⟩
  · rename_i s q hq
    split
    · obtain ⟨hr, ho, ht⟩ := advanceStop_pool x.time q x.db s
      exact ⟨calm_setPool hq hr ho, ht⟩
    · exact ⟨.refl e, .refl x.db⟩

theorem advanceHalts_calm (hs : List Pool.StopProgress) :
    ∀ (e : Engine) (x : Site) (place : Nat),
      e.Calm (e.advanceHalts x place hs).2.1 ∧ x.db.Told (e.advanceHalts x place hs).2.2.db := by
  induction hs with
  | nil => exact fun e x place => ⟨.refl e, .refl x.db⟩
  | cons h hs ih =>
    intro e x place
    obtain ⟨hc, ht⟩ := e.advanceHalt_calm x place h
    obtain ⟨hc', ht'⟩ := ih (e.advanceHalt x place h).2.1 (e.advanceHalt x place h).2.2 (place + 1)
    exact ⟨hc.trans hc', ht.trans ht'⟩

/-! ## Steps of a start or a stop -/

/-- A step of a start or a stop, after which it may be in the phase that it goes on in. -/
structure Controlled {φ : Type} (sound : Engine → φ → Prop) (e : Engine) (x : Site)
    (step : ControlProgress φ × Engine × Site) : Prop where
  stride : e.Stride x.db step.2.1 step.2.2.db
  aged : e.Aged step.2.1
  going : ∀ q, step.1 = .going q → sound step.2.1 q

theorem Alike.controlled {φ : Type} {sound : Engine → φ → Prop} {x' : Site}
    {r : ControlProgress φ} (h : e.Alike e') (he : e.Sound) (hm : x.db.Mild x'.db)
    (ha : e.Aged e') (hg : ∀ q, r = .going q → sound e' q) : Controlled sound e x (r, e', x') :=
  ⟨h.stride he hm, ha, hg⟩

/-- Nothing begins when an engine that was started moves on. -/
theorem aged_of_born (h : e.lifecycle ≠ .raw → e'.lifecycle ≠ .raw)
    (ho : e.isOver = true → e'.isOver = true) : e.Aged e' := ⟨h, fun _ => ho⟩

/-! ## Stopping -/

theorem tellFailures_told (x : Site) (failures : List PoolError) :
    x.db.Told (tellFailures x failures).db := x.db.told_tellAll _

theorem stopped_controlled {e₁ : Engine} {x₁ : Site} {d : Database} (hc : e.Calm e₁)
    (he : e.Sound) (hm : x.db.Mild d) (outcome : Except EngineError Unit) :
    Controlled StopPhase.Sound e x
      ((e₁.stopped outcome).1, (e₁.stopped outcome).2, { x₁ with db := d }) := by
  have ha : e₁.Alike (e₁.stopped outcome).2 := alike_of_eq rfl rfl rfl rfl
  exact (hc.alike.trans ha).controlled he hm (aged_of_born (fun _ h => nomatch h) hc.quiet)
    fun q h => nomatch h

/-- **A step of a stop.** -/
theorem advanceStop_controlled (he : e.Sound) {s : StopPhase} (hs : s.Sound e) :
    Controlled StopPhase.Sound e x (e.advanceStop x s) := by
  cases s with
  | entering =>
    rw [advanceStop]
    split
    · have hc := beginHalts_calm { e with changing := true, lifecycle := .shuttingDown }
      have ha : e.Alike { e with changing := true, lifecycle := .shuttingDown } :=
        alike_of_eq rfl rfl rfl rfl
      have hl : (beginHalts { e with changing := true, lifecycle := .shuttingDown }).2.lifecycle ≠
          .raw := by
        rw [hc.lifecycle]
        exact fun h => nomatch h
      exact (ha.trans hc.alike).controlled he (.refl x.db) (aged_of_born (fun _ => hl) hc.quiet)
        fun q h => by cases h; exact hl
    · exact (Alike.refl e).controlled he (.refl x.db) (Calm.refl e).placid.aged
        fun q h => nomatch h
  | closing halts =>
    obtain ⟨hc, ht⟩ := advanceHalts_calm halts e x 0
    rcases hh : e.advanceHalts x 0 halts with ⟨halts', e₁, x₁⟩
    rw [hh] at hc ht
    have hl : e₁.lifecycle ≠ .raw := hc.lifecycle ▸ hs
    simp only [advanceStop, hh]
    split
    · exact hc.alike.controlled he ht.mild hc.placid.aged fun q h => by cases h; exact hl
    · rename_i failures _
      have ht' := ht.trans (tellFailures_told x₁ failures)
      have hb := Storage.begin_gentle (hc.alike.storage.batcher.trans he.sync)
        (tellFailures x₁ failures).db (c := .stop) trivial
      split <;> rename_i heq <;> rw [heq] at hb
      · rename_i p storage d
        have hc' := hc.trans (calm_storage hb.alike)
        exact hc'.alike.controlled he (ht'.mild.trans hb.mild) hc'.placid.aged
          fun q h => by cases h; exact ⟨hl, hb.gentle p rfl⟩
      · rename_i r storage d
        exact stopped_controlled (hc.trans (calm_storage hb.alike)) he (ht'.mild.trans hb.mild) _
  | shutting outcome p =>
    have hb := Storage.advance_gentle he.sync x.time x.db hs.2
    rw [advanceStop]
    split <;> rename_i heq <;> rw [heq] at hb
    · rename_i p storage d
      have hc := calm_storage hb.alike
      exact hc.alike.controlled he hb.mild hc.placid.aged
        fun q h => by cases h; exact ⟨hs.1, hb.gentle p rfl⟩
    · rename_i r storage d
      exact stopped_controlled (calm_storage hb.alike) he hb.mild _

/-! ## Starting -/

/-- A start that got this far without touching a roll or the store, and either goes on to stop what
runs or is over. -/
structure Begun (e : Engine) (x : Site) (step : ControlProgress StartPhase × Engine × Site) :
    Prop where
  alike : e.Alike step.2.1
  told : x.db.Told step.2.2.db
  born : step.2.1.lifecycle ≠ .raw
  closing : ∀ q, step.1 = .going q → ∃ reason halts, q = .closing reason halts

theorem Begun.after {e₁ : Engine} {x₁ : Site} {step : ControlProgress StartPhase × Engine × Site}
    (ha : e.Alike e₁) (ht : x.db.Told x₁.db) (h : e₁.Begun x₁ step) : e.Begun x step :=
  ⟨ha.trans h.alike, ht.trans h.told, h.born, h.closing⟩

theorem failStart_begun (e : Engine) (x : Site) (reason : EngineError) :
    e.Begun x (e.failStart x reason) := by
  have hc := beginHalts_calm { e with lifecycle := .failed }
  have ha : e.Alike { e with lifecycle := .failed } := alike_of_eq rfl rfl rfl rfl
  refine ⟨ha.trans hc.alike, x.db.told_tell _, ?_, fun q h => by cases h; exact ⟨_, _, rfl⟩⟩
  show (beginHalts { e with lifecycle := .failed }).2.lifecycle ≠ .raw
  rw [hc.lifecycle]
  exact fun h => nomatch h

theorem start_roll (p : Processor) : p.start.2.roll? = p.roll? := by
  cases p with
  | probe p => rfl
  | pool p =>
    simp only [Processor.start, Pool.start]
    split
    · rename_i h
      split at h <;> cases h
      rfl
    · rfl

theorem startAll_rolls (ps : Processors) :
    ps.startAll.2.map Processor.roll? = ps.map Processor.roll? := by
  induction ps with
  | nil => rfl
  | cons p ps ih =>
    rw [Processors.startAll]
    simp only [List.map_cons, start_roll, ih]

theorem startProcessors_begun (e : Engine) (x : Site) (r : Storage.Reply) :
    e.Begun x (e.startProcessors x r) := by
  have ha : ∀ {ps : Processors}, ps.map Processor.roll? = e.processors.map Processor.roll? →
      e.Alike { e with processors := ps } := fun h => ⟨.refl _, fun _ => rfl, rfl, h⟩
  have hr := startAll_rolls e.processors
  unfold startProcessors
  split
  · exact failStart_begun e x _
  · split <;> rename_i heq <;> rw [heq] at hr
    · exact ⟨(ha hr).trans (alike_of_eq rfl rfl rfl rfl), .refl x.db, fun h => (nomatch h),
        fun q h => nomatch h⟩
    · rename_i cause ps
      have hb := failStart_begun { e with processors := ps } x (.pool cause)
      exact ⟨(ha hr).trans hb.alike, hb.told, hb.born, hb.closing⟩

theorem start_runner {ρ : Type} {r r' : Registry ρ} (h : r.start = .ok r') (type : String) :
    r'.runner? type = r.runner? type := by
  unfold Registry.start at h
  split at h <;> cases h
  rfl

theorem registered_calm {registry : Registry Runner} (h : e.registry.start = .ok registry) :
    e.Calm { e with registry } :=
  ⟨⟨.refl _, start_runner h, rfl, rfl⟩, rfl, rfl, fun h => h⟩

theorem attached_calm (e : Engine) :
    e.Calm { e with
      processors := e.processors.map (Processor.attach e.id), injectorTold := true } := by
  have h := e.calm_map (f := Processor.attach e.id) (fun p => by cases p <;> rfl) fun p hp => by
    cases p with
    | pool p => exact hp
    | probe p => rfl
  exact ⟨h.alike.trans (alike_of_eq rfl rfl rfl rfl), rfl, rfl, h.quiet⟩

/-- The components up to the storage: the start fails, or it is over because the storage was started
before, or the storage opens. -/
theorem startComponents_begun (e : Engine) (x : Site) :
    e.Begun x (e.startComponents x) ∨
      e.Calm (e.startComponents x).2.1 ∧ x.db.Told (e.startComponents x).2.2.db ∧
        (e.startComponents x).1 = .going (.opening .sweeping) := by
  have hc := e.attached_calm
  have ht := e.storage.report_told x.db [.knowsEngine e.id]
  unfold startComponents
  split
  · exact .inl (failStart_begun e x _)
  · dsimp only
    split
    · exact .inl (.after hc.alike ht (failStart_begun _ _ _))
    · rename_i registry hreg
      have hc := hc.trans (registered_calm hreg)
      split <;> rename_i heq <;> obtain ⟨ha, ht', hp⟩ := Storage.begin_start heq
      · rename_i p storage d
        obtain rfl := hp p rfl
        exact .inr ⟨hc.trans (calm_storage ha), ht.trans ((e.storage.report_told _ _).trans ht'),
          rfl⟩
      · exact .inl (.after (hc.trans (calm_storage ha)).alike
          (ht.trans ((e.storage.report_told _ _).trans ht')) (startProcessors_begun _ _ _))

/-- A start that got this far after a stride of a raw engine. -/
theorem Begun.controlled {e₁ : Engine} {x₁ : Site} {step : ControlProgress StartPhase × Engine × Site}
    (hs : e.Stride x.db e₁ x₁.db) (hl : e.lifecycle = .raw) (h : e₁.Begun x₁ step) :
    Controlled StartPhase.Sound e x step := by
  refine ⟨hs.told h.alike h.told, ⟨fun hn => absurd hl hn, fun hn => ?_⟩, fun q hq => ?_⟩
  · exact hn.elim (absurd hl) fun hr => absurd hr h.born
  · obtain ⟨reason, halts, rfl⟩ := h.closing q hq
    exact h.born

/-- A raw engine recovers what an earlier life of it left running. -/
theorem recover_stride (he : e.Sound) (hover : e.isOver = true) (hl : e.lifecycle = .raw)
    (hc : e.changing = true) (free : x.db.held = none) {s : Storage} {d : Database}
    {r : Storage.Progress} (h : e.storage.advance x.time x.db .recovering = (r, s, d)) :
    e.Stride x.db { e with storage := s } d ∧ ∀ p, r ≠ .going p := by
  obtain ⟨ha, aside, store, hr⟩ := e.storage.advance_recovering x.time x.db
  rw [h] at ha aside store hr
  have halike := alike_storage ha
  refine ⟨⟨halike.claimant, halike.sound he, later_of_rolls halike.rolls,
    .recovered hover (by simp [atRest, hl, hc]) ?_ free aside store⟩, hr⟩
  rw [halike.subjects, subjects, isOver_dispatches hover]
  rfl

theorem startFailed_controlled {e₁ : Engine} {x₁ : Site} {d : Database} (hc : e.Calm e₁)
    (he : e.Sound) (hl : e.lifecycle ≠ .raw) (hm : x.db.Mild d) (reason : EngineError) :
    Controlled StartPhase.Sound e x
      ((e₁.startFailed reason).1, (e₁.startFailed reason).2, { x₁ with db := d }) := by
  have ha : e₁.Alike (e₁.startFailed reason).2 := alike_of_eq rfl rfl rfl rfl
  exact (hc.alike.trans ha).controlled he hm (aged_of_born (fun _ => hc.lifecycle ▸ hl) hc.quiet)
    fun q h => nomatch h

theorem shutAfterFailure_controlled {e₁ : Engine} {x₁ : Site} (hc : e.Calm e₁) (he : e.Sound)
    (hl : e.lifecycle ≠ .raw) (hm : x.db.Mild x₁.db) (reason : EngineError) :
    Controlled StartPhase.Sound e x (e₁.shutAfterFailure x₁ reason) := by
  have hb := Storage.begin_gentle (hc.alike.storage.batcher.trans he.sync) x₁.db (c := .stop)
    trivial
  unfold shutAfterFailure
  split <;> rename_i heq <;> rw [heq] at hb
  · rename_i p storage d
    have hc' := hc.trans (calm_storage hb.alike)
    exact hc'.alike.controlled he (hm.trans hb.mild) hc'.placid.aged
      fun q h => by cases h; exact ⟨hc.lifecycle ▸ hl, hb.gentle p rfl⟩
  · exact startFailed_controlled (hc.trans (calm_storage hb.alike)) he hl (hm.trans hb.mild) reason

theorem closing_controlled (he : e.Sound) (hl : e.lifecycle ≠ .raw) (reason : EngineError)
    (halts : List Pool.StopProgress) :
    Controlled StartPhase.Sound e x (e.advanceStart x (.closing reason halts)) := by
  obtain ⟨hc, ht⟩ := advanceHalts_calm halts e x 0
  rcases hh : e.advanceHalts x 0 halts with ⟨halts', e₁, x₁⟩
  rw [hh] at hc ht
  have hl' : e₁.lifecycle ≠ .raw := hc.lifecycle ▸ hl
  simp only [advanceStart, hh]
  split
  · exact hc.alike.controlled he ht.mild hc.placid.aged fun q h => by cases h; exact hl'
  · rename_i failures _
    have ht' := ht.trans (tellFailures_told x₁ failures)
    refine shutAfterFailure_controlled hc he hl ?_ reason
    split
    · exact ht'.mild
    · exact (ht'.trans ((tellFailures x₁ failures).db.told_tell _)).mild

/-- **A step of a start.** -/
theorem advanceStart_controlled (he : e.Sound) (hraw : e.lifecycle = .raw → e.isOver = true)
    {s : StartPhase} (hs : s.Sound e) (hr : e.startReady x x.unlocked s = true) :
    Controlled StartPhase.Sound e x (e.advanceStart x s) := by
  cases s with
  | entering =>
    rw [advanceStart]
    split
    · rename_i hl
      have ha : e.Alike { e with changing := true } := alike_of_eq rfl rfl rfl rfl
      rcases startComponents_begun { e with changing := true } x with h | ⟨hc, ht, hg⟩
      · exact h.controlled (ha.stride he (.refl x.db)) hl
      · refine ⟨(ha.stride he (.refl x.db)).told hc.alike ht,
          ⟨fun hn => absurd hl hn, fun _ => hc.quiet⟩, fun q hq => ?_⟩
        rw [hg] at hq
        cases hq
        exact ⟨.inl rfl, hc.lifecycle.trans hl, hc.changing⟩
    · exact (Alike.refl e).controlled he (.refl x.db) (Calm.refl e).placid.aged
        fun q h => nomatch h
  | opening p =>
    obtain ⟨rfl | rfl, hl, hch⟩ := hs
    · obtain ⟨ha, hm, hp⟩ := e.storage.advance_sweeping x.time x.db
      rw [advanceStart]
      split <;> rename_i heq <;> rw [heq] at ha hm hp
      · rename_i p s d
        have hc := calm_storage ha
        exact hc.alike.controlled he hm hc.placid.aged
          fun q h => by cases h; exact ⟨hp p rfl, hl, hch⟩
      · rename_i r s d
        exact (startProcessors_begun _ _ r).controlled ((alike_storage ha).stride he hm) hl
    · have hfree : x.db.held = none := Option.isNone_iff_eq_none.1 hr
      rw [advanceStart]
      split <;> rename_i heq <;>
        obtain ⟨hst, hno⟩ := recover_stride he (hraw hl) hl hch hfree heq
      · exact absurd rfl (hno _)
      · rename_i r s d
        exact (startProcessors_begun _ _ r).controlled hst hl
  | closing reason halts => exact closing_controlled he hs reason halts
  | shutting reason p =>
    have hb := Storage.advance_gentle he.sync x.time x.db hs.2
    rw [advanceStart]
    split <;> rename_i heq <;> rw [heq] at hb
    · rename_i p storage d
      have hc := calm_storage hb.alike
      exact hc.alike.controlled he hb.mild hc.placid.aged
        fun q h => by cases h; exact ⟨hs.1, hb.gentle p rfl⟩
    · exact startFailed_controlled (calm_storage hb.alike) he hs.1 hb.mild reason

end Engine

end Resumption
