import Resumption.Proofs.Engine.Asking

/-!
# Dispatching

A runner is faithful to an instance when everything it ends with has the id of the instance, and so
has the callback that it suspends the instance on (`Run.Faithful`). A dispatch of a faithful run
settles that instance and no other.

**Result.** `advanceDispatch_carried`: each step of a dispatch either commits one command on its
instance and ends the dispatch, or commits nothing and is the business of no instance that runs or is
finished. So a dispatch that goes on has committed nothing.
-/

namespace Resumption

/-! ## Faithful runs -/

/-- The run ends with the instance that it began with, whatever it is answered. -/
def Run.Faithful (id : Uuid) : Run → Prop
  | .finished w => w.id = some id
  | .suspended w => w.id = some id ∧ ∀ c, w.callback = some c → c.instanceId = id
  | .failed w _ => w.id = some id
  | .panicked w _ => w.id = some id
  | .pause _ next => next.Faithful id
  | .ask a next => ∀ x, a.MayGive x → (next x).Faithful id
  | .visit next => ∀ n, (next n).Faithful id

/-- The dispatch is to settle this instance. -/
def DispatchPhase.Faithful (id : Uuid) : DispatchPhase → Prop
  | .fresh => True
  | .running r => r.Faithful id
  | .pausing _ next => next.Faithful id
  | .asking p next => p.Gentle ∧ ∀ x, p.MayGive x → (next x).Faithful id
  | .settling p s => p.Settles id ∧ ∀ w, s = .suspension w → w.id = some id

/-- The dispatch is to settle the instance that it was claimed for. -/
def Dispatch.Faithful (d : Dispatch) : Prop := ∃ id, d.workflow.id = some id ∧ d.phase.Faithful id

/-- Each dispatch on the roll has its own number, and it is faithful. -/
structure Roll.Sound (r : Roll) : Prop where
  begun : ∀ d ∈ r.dispatches, d.serial < r.issued
  once : (r.dispatches.map (·.serial)).Nodup
  faithful : ∀ d ∈ r.dispatches, d.Faithful

namespace Engine

/-- The runners leave the id of a workflow and of its callback alone. -/
def Loyal (e : Engine) : Prop :=
  ∀ w id runner surroundings, e.registry.runner? w.type = some runner → w.id = some id →
    (runner surroundings (e.inject w)).Faithful id

/-- The engine writes every command in a transaction of its own, and its runners and dispatches are
faithful. -/
structure Sound (e : Engine) : Prop where
  sync : e.storage.batcher = none
  loyal : e.Loyal
  rolls : ∀ r, some r ∈ e.rolls → r.Sound

variable {e e' : Engine} {x : Site}

theorem Alike.loyal (h : e.Alike e') (hl : e.Loyal) : e'.Loyal := by
  intro w id runner surroundings hr hw
  rw [h.inject]
  exact hl w id runner surroundings (h.runner w.type ▸ hr) hw

theorem Alike.sound (h : e.Alike e') (hs : e.Sound) : e'.Sound :=
  ⟨h.storage.batcher.trans hs.sync, h.loyal hs.loyal, fun r hr => hs.rolls r (h.rolls ▸ hr)⟩

theorem Sound.set {place : Nat} {r' : Roll} (hs : e.Sound) {e₁ : Engine} (h : e.Alike e₁)
    (hp : e'.storage = e₁.storage ∧ e'.registry = e₁.registry ∧ e'.inject = e₁.inject)
    (hr : e'.rolls = e.rolls.set place (some r')) (h' : r'.Sound) : e'.Sound := by
  obtain ⟨h₁, h₂, h₃⟩ := hp
  have hl := h.loyal hs.loyal
  refine ⟨by rw [h₁]; exact h.storage.batcher.trans hs.sync, ?_, fun r hm => ?_⟩
  · unfold Loyal
    rw [h₂, h₃]
    exact hl
  · rw [hr] at hm
    rcases List.mem_or_eq_of_mem_set hm with hm | hm
    · exact hs.rolls r hm
    · cases hm
      exact h'

/-! ## Steps that commit nothing -/

/-- A step of a dispatch that commits nothing. -/
structure Goes (e : Engine) (x : Site) (id : Uuid) (step : DispatchProgress × Engine × Site) :
    Prop where
  calm : e.Calm step.2.1
  mild : x.db.Mild step.2.2.db
  faithful : ∀ q, step.1 = .going q → q.Faithful id

variable {id : Uuid}

theorem Goes.after {x' : Site} {step : DispatchProgress × Engine × Site} (hc : e.Calm e')
    (hm : x.db.Mild x'.db) (h : e'.Goes x' id step) : e.Goes x id step :=
  ⟨hc.trans h.calm, hm.trans h.mild, h.faithful⟩

theorem goes_over : e.Goes x id (.over, e, x) :=
  ⟨.refl e, .refl x.db, fun _ h => nomatch h⟩

theorem goes_on {q : DispatchPhase} {x' : Site} (hm : x.db.Mild x'.db) (h : q.Faithful id) :
    e.Goes x id (.going q, e, x') :=
  ⟨.refl e, hm, fun r hr => by cases hr; exact h⟩

theorem Goes.told {event : Event} {step : DispatchProgress × Engine × Site}
    (h : e.Goes (x.tell event) id step) : e.Goes x id step :=
  .after (.refl e) (x.db.told_tell event).mild h

variable (hs : e.storage.batcher = none)
include hs

theorem settle_goes {c : Storage.Call} (hc : c.Settles id) : e.Goes x id (e.settle x c) := by
  obtain ⟨p, hp, hq⟩ := Storage.begin_settling hs x.db hc
  rw [settle, hp]
  exact goes_on (.refl x.db) ⟨hq, fun _ h => nomatch h⟩

theorem settled_goes {s : Settlement} (h : ∀ w, s = .suspension w → w.id = some id)
    (r : Storage.Reply) : e.Goes x id (e.settled x s r) := by
  unfold settled
  split
  · rename_i w cause
    exact .told (settle_goes hs (c := .fail w cause.message) (h w rfl))
  · exact goes_over

omit hs in
theorem settled_over {s : Settlement} {r : Storage.Reply} (hr : ∀ cause, r ≠ .refused cause) :
    e.settled x s r = (.over, e, x) := by
  unfold settled
  split
  · exact absurd rfl (hr _)
  · rfl

theorem settleSuspension_goes {w : Workflow} (hw : w.id = some id) {c : Callback}
    (hc : w.callback = some c) (hid : c.instanceId = id) :
    e.Goes x id (e.settleSuspension x w) := by
  obtain ⟨p, hp, hq⟩ := Storage.begin_settling hs x.db (c := .suspend w) ⟨hw, c, hc, hid⟩
  rw [settleSuspension, hp]
  exact goes_on (.refl x.db) ⟨hq, fun v h => by cases h; exact hw⟩

theorem beginRun_goes (hl : e.Loyal) (found : Bool) {w : Workflow} (hw : w.id = some id) :
    e.Goes x id (e.beginRun x found w) := by
  unfold beginRun
  split
  · exact .told (settle_goes hs (c := .fail w _) hw)
  · split
    · exact .told (settle_goes hs (c := .fail w _) hw)
    · rename_i runner hr
      exact goes_on (q := .running _) (.refl x.db) (hl w id runner _ hr hw)

theorem continueRun_goes (claimed : Workflow) {r : Run} (hr : r.Faithful id) :
    e.Goes x id (e.continueRun x claimed r) := by
  cases r with
  | finished w => exact settle_goes hs (c := .finish w) hr
  | suspended w =>
    rw [continueRun]
    split
    · rename_i c hc
      exact settleSuspension_goes hs hr.1 hc (hr.2 c hc)
    · exact .told (settle_goes hs (c := .fail w _) hr.1)
  | failed w causes => exact .told (settle_goes hs (c := .fail w _) hr)
  | panicked w message => exact .told (settle_goes hs (c := .fail w _) hr)
  | pause d next => exact goes_on (q := .pausing _ next) (.refl x.db) hr
  | ask a next => exact goes_on (.refl x.db) ⟨trivial, hr⟩
  | visit next => exact goes_on (q := .running _) (.refl x.db) (hr _)

omit hs

/-! ## One step of a dispatch -/

/-- The command that a step from a phase commits, if it commits one. -/
def committed (e : Engine) (x : Site) : DispatchPhase → Option Command
  | .settling p _ => e.storage.committed x.db p
  | _ => none

/-- A step of a dispatch from a phase. Either it commits a command on the instance and the dispatch
is over, or it commits nothing. -/
structure Carried (e : Engine) (x : Site) (id : Uuid) (phase : DispatchPhase)
    (step : DispatchProgress × Engine × Site) : Prop where
  calm : e.Calm step.2.1
  effect :
    (∃ c, e.committed x phase = some c ∧ c.instanceId? = some id ∧ step.1 = .over ∧
        x.db.Aside step.2.2.db ∧ x.db.store.Spares (fun r => r.id ≠ id) step.2.2.db.store ∧
        x.db.store.execute e.storage.access.removeFinished c = (.ok (), step.2.2.db.store)) ∨
      e.committed x phase = none ∧ x.db.Mild step.2.2.db ∧
        ∀ q, step.1 = .going q → q.Faithful id

theorem Goes.carried {phase : DispatchPhase} {step : DispatchProgress × Engine × Site}
    (h : e.Goes x id step) (hn : e.committed x phase = none) : e.Carried x id phase step :=
  ⟨h.calm, .inr ⟨hn, h.mild, h.faithful⟩⟩

/-- **Each step of a dispatch** commits one command on its instance and is the last, or it commits
nothing. -/
theorem advanceDispatch_carried (he : e.Sound) (hd : x.db.Timely) (found : Bool)
    {claimed : Workflow} (hw : claimed.id = some id) {phase : DispatchPhase}
    (hp : phase.Faithful id) :
    e.Carried x id phase (e.advanceDispatch x found claimed phase) := by
  cases phase with
  | fresh => exact (beginRun_goes he.sync he.loyal found hw).carried rfl
  | running r => exact (continueRun_goes he.sync claimed hp).carried rfl
  | pausing due next =>
    have h : e.Goes x id (.going (.running next), e, x.resume) := goes_on (.refl x.db) hp
    exact h.carried rfl
  | asking p next =>
    have h := advanceAsk_asked (x := x) he.sync hp.1
    rw [advanceDispatch]
    refine Goes.carried ?_ rfl
    split <;> rename_i heq <;> rw [heq] at h
    · rename_i q e₁ x₁
      obtain ⟨hq, hg⟩ := h.going q rfl
      exact .after h.calm h.mild (goes_on (.refl _) ⟨hq, fun a ha => hp.2 a (hg a ha)⟩)
    · exact .after h.calm h.mild (goes_on (.refl _) hw)
    · rename_i a e₁ x₁ _
      exact .after h.calm h.mild (goes_on (.refl _) (hp.2 a (h.ends a rfl)))
  | settling p s =>
    obtain ⟨ha, h⟩ := Storage.advance_settling he.sync x.time hd hp.1
    rw [advanceDispatch]
    split <;> rename_i heq <;> rw [heq] at ha h
    · rename_i q s₁ d₁
      refine ⟨calm_storage ha, ?_⟩
      rcases h with ⟨c, reply, -, -, hover, -⟩ | ⟨hn, hm, hq⟩
      · cases hover
      · exact .inr ⟨hn, hm, fun q' h => by cases h; exact ⟨hq q rfl, hp.2⟩⟩
    · rename_i r s₁ d₁
      rcases h with ⟨c, reply, hc, hid, hover, hr, heffect⟩ | ⟨hn, hm, hq⟩
      · cases hover
        rw [settled_over hr]
        exact ⟨calm_storage ha, .inl ⟨c, hc, hid, rfl, heffect⟩⟩
      · have hg := settled_goes (e := { e with storage := s₁ }) (x := { x with db := d₁ })
          (ha.batcher.trans he.sync) hp.2 r
        exact (Goes.after (calm_storage ha) hm hg).carried hn

end Engine

end Resumption
