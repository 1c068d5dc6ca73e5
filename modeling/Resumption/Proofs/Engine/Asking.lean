import Resumption.Proofs.Engine.Roll

/-!
# Asking an engine

Whatever is asked of an engine, by a caller or by a runner, is the business of no instance that runs
or is finished: it stores new instances, delivers responses and restarts failed ones. `advanceAsk_asked`
says so of each step of an ask, along with the only thing that a runner has to know of the answers: a
workflow comes back from a registration with the id it had and with a callback on that id
(`Ask.MayGive`).
-/

namespace Resumption

/-- The engine may answer this. -/
def Ask.MayGive : Ask → Answer → Prop
  | .register w _ _ _, .registered w' =>
    w'.id = w.id ∧ ∀ c, w'.callback = some c → w.id = some c.instanceId
  | _, .registered _ => False
  | _, _ => True

/-- The answer is no registered workflow. -/
def Answer.Plain (a : Answer) : Prop := ∀ w, a ≠ .registered w

theorem Answer.Plain.mayGive {x : Answer} (h : x.Plain) (a : Ask) : a.MayGive x := by
  unfold Ask.MayGive
  split
  · exact absurd rfl (h _)
  · exact absurd rfl (h _)
  · trivial

namespace AskPhase

/-- A gentle ask goes through this phase. -/
def Gentle : AskPhase → Prop
  | .arriving _ => True
  | .storing p _ => p.Gentle
  | .waking a _ => a.Plain

/-- The ask may be answered like this. -/
def MayGive : AskPhase → Answer → Prop
  | .arriving a, x => a.MayGive x
  | _, x => x.Plain

end AskPhase

namespace Engine

/-- A step of an ask whose answers satisfy `P`. -/
structure Asked (e : Engine) (x : Site) (P : Answer → Prop) (step : AskProgress × Engine × Site) :
    Prop where
  calm : e.Calm step.2.1
  mild : x.db.Mild step.2.2.db
  going : ∀ q, step.1 = .going q → q.Gentle ∧ ∀ a, q.MayGive a → P a
  ends : ∀ a, step.1 = .over a → P a

variable {e : Engine} {x : Site} {P : Answer → Prop}

theorem Asked.imp {Q : Answer → Prop} {step : AskProgress × Engine × Site}
    (h : e.Asked x P step) (hpq : ∀ a, P a → Q a) : e.Asked x Q step :=
  ⟨h.calm, h.mild, fun q hq => ⟨(h.going q hq).1, fun a ha => hpq a ((h.going q hq).2 a ha)⟩,
    fun a ha => hpq a (h.ends a ha)⟩

theorem Asked.after {e' : Engine} {x' : Site} {step : AskProgress × Engine × Site}
    (hc : e.Calm e') (hm : x.db.Mild x'.db) (h : e'.Asked x' P step) : e.Asked x P step :=
  ⟨hc.trans h.calm, hm.trans h.mild, h.going, h.ends⟩

theorem Asked.stored {s : Storage} {d : Database} {step : AskProgress × Engine × Site}
    (ha : e.storage.Alike s) (hm : x.db.Mild d)
    (h : Asked { e with storage := s } { x with db := d } P step) : e.Asked x P step :=
  .after (calm_storage ha) hm h

theorem asked_over {a : Answer} (h : P a) : e.Asked x P (.over a, e, x) :=
  ⟨.refl e, .refl x.db, fun _ h => (nomatch h), fun b hb => by cases hb; exact h⟩

theorem asked_going {q : AskPhase} (h : q.Gentle) (ha : ∀ a, q.MayGive a → P a) :
    e.Asked x P (.going q, e, x) :=
  ⟨.refl e, .refl x.db, fun r hr => by cases hr; exact ⟨h, ha⟩, fun _ h => (nomatch h)⟩

/-! ## Preparing work and waking pools -/

theorem resolvePool_told (e : Engine) (d : Database) (w : Workflow) :
    d.Told (e.resolvePool d w).2 := by
  unfold resolvePool
  split
  · exact .refl d
  · split
    · exact .refl d
    · exact d.told_tell _

theorem resolvePool_id (e : Engine) (d : Database) (w : Workflow) :
    (e.resolvePool d w).1.id = w.id := by
  unfold resolvePool
  split
  · rfl
  · split <;> rfl

theorem prepareOne_told (e : Engine) (x : Site) (w : Workflow) :
    x.db.Told (e.prepareOne x w).2.db := by
  unfold prepareOne
  cases w.id with
  | some id => exact e.resolvePool_told x.db _
  | none => exact e.resolvePool_told x.db _

theorem prepare_told (e : Engine) (batch : List Submission) :
    ∀ x : Site, x.db.Told (e.prepare x batch).2.db := by
  induction batch with
  | nil => exact fun x => .refl x.db
  | cons s batch ih =>
    intro x
    cases s with
    | transient t => exact .refl x.db
    | durable w => exact (e.prepareOne_told x w).trans (ih _)

theorem wakePool_calm (e : Engine) (d : Database) (pool : String) :
    e.Calm (e.wakePool d pool).1 ∧ d.Told (e.wakePool d pool).2 := by
  unfold wakePool
  split
  · refine ⟨e.calm_map (fun p => ?_) fun p h => ?_, .refl d⟩
    · split
      · cases p <;> rfl
      · rfl
    · split
      · cases p
        · exact h
        · rfl
      · exact h
  · exact ⟨.refl e, d.told_tell _⟩

/-- A registration only tells, and what it gives back has its id and a callback on it. -/
theorem register_told (e : Engine) (d : Database) (w : Workflow) (quorum : Quorum)
    (timeout : Option Duration) (correlations : List String) :
    d.Told (e.register d w quorum timeout correlations).2 ∧
      (Ask.register w quorum timeout correlations).MayGive
        (e.register d w quorum timeout correlations).1 := by
  unfold register
  split
  · exact ⟨.refl d, trivial⟩
  · split
    · exact ⟨.refl d, trivial⟩
    · rename_i id hid
      have ht := e.resolvePool_told d w
      have hi := e.resolvePool_id d w
      split
      rename_i w' d' he
      rw [he] at ht hi
      split
      · rename_i c hc
        refine ⟨ht, hi, fun c' hc' => ?_⟩
        cases hc'
        unfold Callback.create at hc
        split at hc <;> cases hc
        exact hid
      · exact ⟨ht, trivial⟩

/-! ## The way of an ask -/

theorem submittedAnswer_plain (ids : List Uuid) (single : Bool) :
    (submittedAnswer ids single).Plain := by
  intro w
  unfold submittedAnswer
  split <;> exact fun h => nomatch h

theorem conclude_asked (e : Engine) (x : Site) (errand : Errand) (r : Storage.Reply) :
    e.Asked x Answer.Plain (e.conclude x errand r) := by
  unfold conclude
  split
  · exact asked_over fun _ h => nomatch h
  · exact asked_over fun _ h => nomatch h
  · exact asked_going (submittedAnswer_plain _ _) fun _ h => h
  · exact asked_over fun _ h => nomatch h
  · exact asked_going trivial fun _ h => h
  · exact asked_going (fun _ h => nomatch h) fun _ h => h
  · exact asked_going (fun _ h => nomatch h) fun _ h => h
  · exact asked_over fun _ h => nomatch h

theorem stored_going {p : Storage.Phase} {s : Storage} {d : Database}
    (h : e.storage.Eases x.db (.going p, s, d)) (errand : Errand) :
    e.Asked x Answer.Plain
      (.going (.storing p errand), { e with storage := s }, { x with db := d }) :=
  .stored h.alike h.mild (asked_going (h.gentle p rfl) fun _ h => h)

theorem stored_over {r : Storage.Reply} {s : Storage} {d : Database}
    (h : e.storage.Eases x.db (.over r, s, d)) (errand : Errand) :
    e.Asked x Answer.Plain (conclude { e with storage := s } { x with db := d } errand r) :=
  .stored h.alike h.mild (conclude_asked _ _ errand r)

theorem storeHeld_asked (batch : List Submission) :
    e.Asked x Answer.Plain (e.storeHeld x batch) := by
  have ht := (e.prepare_told batch x).mild
  unfold storeHeld
  split <;> rename_i he <;> rw [he] at ht
  · exact .after (.refl e) ht (asked_over fun _ h => nomatch h)
  · rename_i work x₁
    refine .after (.refl e) ht ?_
    obtain ⟨ha, hm⟩ := e.storage.insertHeld_gentle x₁.db (work.map (·.2))
    dsimp only
    split <;> rename_i he <;> rw [he] at ha hm <;> refine .stored ha hm ?_
    · exact asked_over fun _ h => nomatch h
    · exact asked_over fun _ h => nomatch h
    · exact asked_going (fun _ h => nomatch h) fun _ h => h

variable (hs : e.storage.batcher = none)
include hs

theorem send_asked {c : Storage.Call} (hc : c.Gentle) (errand : Errand) :
    e.Asked x Answer.Plain (e.send x c errand) := by
  have h := Storage.begin_gentle hs x.db hc
  unfold send
  split <;> rename_i he <;> rw [he] at h
  · exact stored_going h errand
  · exact stored_over h errand

theorem sendWork_asked (single : Bool) (batch : List Submission) :
    e.Asked x Answer.Plain (e.sendWork x single batch) := by
  have ht := (e.prepare_told batch x).mild
  unfold sendWork
  split <;> rename_i he <;> rw [he] at ht
  · exact .after (.refl e) ht (asked_over fun _ h => nomatch h)
  · refine .after (.refl e) ht ?_
    split
    · exact asked_over fun _ h => nomatch h
    · exact send_asked hs (c := .insert _) trivial _

theorem accept_asked (a : Ask) : e.Asked x a.MayGive (e.accept x a) := by
  have plain : ∀ {step}, e.Asked x Answer.Plain step → e.Asked x a.MayGive step :=
    fun h => h.imp fun _ hp => hp.mayGive a
  cases a with
  | register w quorum timeout correlations =>
    obtain ⟨ht, hr⟩ := e.register_told x.db w quorum timeout correlations
    exact .after (.refl e) ht.mild (asked_over hr)
  | submit batch => exact plain (sendWork_asked hs false batch)
  | submitOne one => exact plain (sendWork_asked hs true [one])
  | submitHeld batch => exact plain (storeHeld_asked batch)
  | notify r => exact plain (send_asked hs (c := .notify r) trivial _)
  | notifyAll rs => exact plain (send_asked hs (c := .notifyAll rs) trivial _)
  | restart id => exact plain (send_asked hs (c := .restart id) trivial _)
  | restartAll => exact plain (send_asked hs (c := .restartAll) trivial _)

/-- **Each step of an ask** is calm and the business of no instance that runs or is finished, and
the ask is answered as it may be. -/
theorem advanceAsk_asked {p : AskPhase} (hp : p.Gentle) :
    e.Asked x p.MayGive (e.advanceAsk x p) := by
  cases p with
  | arriving a =>
    rw [advanceAsk]
    split
    · split
      · exact accept_asked hs a
      · exact asked_over (Answer.Plain.mayGive (fun w h => by cases h) a)
    · exact accept_asked hs a
  | storing p errand =>
    have h := Storage.advance_gentle hs x.time x.db hp
    rw [advanceAsk]
    split <;> rename_i he <;> rw [he] at h
    · exact stored_going h errand
    · exact stored_over h errand
  | waking a pools =>
    cases pools with
    | nil => exact asked_over hp
    | cons pool pools =>
      obtain ⟨hc, ht⟩ := e.wakePool_calm x.db pool
      exact .after hc ht.mild (asked_going hp fun _ h => h)

end Engine

end Resumption
