import Resumption.Cluster.Basic
import Resumption.Proofs.Engine.Control

/-!
# Tasks of a cluster

What callers may want of an engine (`Demand.Allowed`): to ask it anything, to have its storage do
what neither claims nor settles a run, and to start and stop it. What is excluded is to do behind the
back of an engine what its start and its dispatches do.

`advanceTask_stride` is the step of a request. Besides the stride of the engine it says when the
engine moves on in its life: only a start lets an engine at rest begin something, and only where no
other start or stop is under way.
-/

namespace Resumption

/-- A caller may want this of an engine. -/
def Demand.Allowed : Demand → Prop
  | .call c => c.Gentle
  | .startProcessor _ => False
  | _ => True

namespace Task

/-- The task may be this with this engine. -/
def Sound (e : Engine) : Task → Prop
  | .arriving d => d.Allowed
  | .asking p => p.Gentle
  | .storing p => p.Gentle
  | .starting p => p.Sound e
  | .stopping p => p.Sound e
  | .halting _ _ => True

/-- A start opens the storage. -/
def isOpening : Task → Bool
  | .starting (.opening _) => true
  | _ => false

variable {e e' : Engine} {t : Task}

theorem Sound.opening (h : t.Sound e) (ho : t.isOpening = true) :
    e.lifecycle = .raw ∧ e.changing = true := by
  unfold isOpening at ho
  split at ho
  · exact h.2
  · cases ho

theorem Sound.aged (h : t.Sound e) (ha : e.Aged e') (ho : t.isOpening = false) : t.Sound e' := by
  cases t with
  | starting p =>
    cases p with
    | entering => trivial
    | opening p => cases ho
    | closing reason halts => exact ha.born h
    | shutting reason p => exact ⟨ha.born h.1, h.2⟩
  | stopping p =>
    cases p with
    | entering => trivial
    | closing halts => exact ha.born h
    | shutting outcome p => exact ⟨ha.born h.1, h.2⟩
  | _ => exact h

theorem Sound.placid (h : t.Sound e) (hp : e.Placid e') : t.Sound e' := by
  by_cases ho : t.isOpening = true
  · unfold isOpening at ho
    split at ho
    · exact ⟨h.1, hp.lifecycle.trans h.2.1, hp.changing.trans h.2.2⟩
    · cases ho
  · exact h.aged hp.aged (Bool.eq_false_iff.2 ho)

end Task

namespace Engine

theorem Placid.atRest {e e' : Engine} (h : e.Placid e') (hr : e.atRest = true) :
    e'.atRest = true := by
  simp only [Engine.atRest, Bool.and_eq_true] at hr ⊢
  exact ⟨h.quiet hr.1, by rw [h.lifecycle, h.changing]; exact hr.2⟩

end Engine

/-- A step of a task with an engine. -/
structure TaskStride (e : Engine) (x : Site) (t : Task)
    (step : Cluster.TaskProgress × Engine × Site) : Prop where
  stride : e.Stride x.db step.2.1 step.2.2.db
  aged : e.Aged step.2.1
  going : ∀ t', step.1 = .going t' → t'.Sound step.2.1
  opens : ∀ t', step.1 = .going t' → t'.isOpening = true → t.isOpening = true ∨ e.changing = false
  others : e.Placid step.2.1 ∨ e.lifecycle ≠ .raw ∨ e.changing = false ∨ t.isOpening = true
  rest : t ≠ .starting .entering → e.atRest = true → step.2.1.atRest = true

/-- Another task is still where the engine allows it to be, when not both open the storage. -/
theorem TaskStride.keeps {e : Engine} {x : Site} {t q : Task}
    {step : Cluster.TaskProgress × Engine × Site} (h : TaskStride e x t step) (hq : q.Sound e)
    (hn : q.isOpening = true → t.isOpening ≠ true) : q.Sound step.2.1 := by
  by_cases ho : q.isOpening = true
  · obtain ⟨hl, hc⟩ := hq.opening ho
    rcases h.others with hp | hne | hno | hto
    · exact hq.placid hp
    · exact absurd hl hne
    · rw [hno] at hc
      cases hc
    · exact absurd hto (hn ho)
  · exact hq.aged h.aged (Bool.eq_false_iff.2 ho)

namespace Cluster

variable {e e' : Engine} {x x' : Site} {t : Task}

theorem calm_task {r : TaskProgress} (he : e.Sound) (hc : e.Calm e') (hm : x.db.Mild x'.db)
    (hg : ∀ t', r = .going t' → t'.Sound e' ∧ t'.isOpening = false) :
    TaskStride e x t (r, e', x') :=
  ⟨hc.alike.stride he hm, hc.placid.aged, fun t' h => (hg t' h).1,
    fun t' h ho => absurd ho (by rw [(hg t' h).2]; exact Bool.false_ne_true), .inl hc.placid,
    fun _ hr => hc.placid.atRest hr⟩

theorem takeUp_stride (he : e.Sound) {d : Demand} (hd : d.Allowed) :
    TaskStride e x (.arriving d) (takeUp e x d) := by
  cases d with
  | ask a =>
    exact calm_task he (.refl e) (.refl x.db) fun t' h => by cases h; exact ⟨trivial, rfl⟩
  | call c =>
    have hb := Storage.begin_gentle he.sync x.db hd
    rw [takeUp]
    split <;> rename_i heq <;> rw [heq] at hb
    · rename_i p s d
      exact calm_task he (Engine.calm_storage hb.alike) hb.mild
        fun t' h => by cases h; exact ⟨hb.gentle p rfl, rfl⟩
    · exact calm_task he (Engine.calm_storage hb.alike) hb.mild fun t' h => nomatch h
  | start => exact calm_task he (.refl e) (.refl x.db) fun t' h => by cases h; exact ⟨trivial, rfl⟩
  | stop => exact calm_task he (.refl e) (.refl x.db) fun t' h => by cases h; exact ⟨trivial, rfl⟩
  | startProcessor place => exact hd.elim
  | stopProcessor place =>
    rw [takeUp]
    split
    · exact calm_task he (.refl e) (.refl x.db) fun t' h => nomatch h
    · rename_i p hp
      obtain ⟨hr, ho⟩ := Engine.beginStop_roll p
      have hc := Engine.calm_set hp hr ho
      dsimp only
      split
      · exact calm_task he hc (.refl x.db) fun t' h => by cases h; exact ⟨trivial, rfl⟩
      · exact calm_task he hc (.refl x.db) fun t' h => nomatch h

/-- Where a start or a stop may be: no other is under way, or it opens the storage, or the engine was
started already. -/
theorem starting_cases {p : Engine.StartPhase} (hs : p.Sound e) {free : Bool}
    (hr : e.startReady x free p = true) :
    e.lifecycle ≠ .raw ∨ e.changing = false ∨ (Task.starting p).isOpening = true := by
  cases p with
  | entering => exact .inr (.inl (by simpa [Engine.startReady] using hr))
  | opening p => exact .inr (.inr rfl)
  | closing reason halts => exact .inl hs
  | shutting reason p => exact .inl hs.1

theorem starting_rest (ha : e.Aged e') {p : Engine.StartPhase} (hs : p.Sound e)
    (hp : Task.starting p ≠ .starting .entering) (hr : e.atRest = true) : e'.atRest = true := by
  cases p with
  | entering => exact absurd rfl hp
  | opening p =>
    simp only [Engine.atRest, hs.2.1, hs.2.2, beq_self_eq_true, Bool.and_self, Bool.not_true,
      Bool.and_false, Bool.false_eq_true] at hr
  | closing reason halts => exact ha.atRest hs hr
  | shutting reason p => exact ha.atRest hs.1 hr

theorem starting_stride (he : e.Sound) (hraw : e.lifecycle = .raw → e.isOver = true)
    {p : Engine.StartPhase} (hs : p.Sound e) (hr : e.startReady x x.unlocked p = true) :
    TaskStride e x (.starting p) (advanceTask e x (.starting p)) := by
  have h := Engine.advanceStart_controlled he hraw hs hr
  have hc := starting_cases hs hr
  have hrest := fun hp hr => starting_rest h.aged hs hp hr
  rw [advanceTask]
  split <;> rename_i heq <;> rw [heq] at h hrest
  · rename_i q e₁ x₁
    refine ⟨h.stride, h.aged, fun t' ht => by cases ht; exact h.going q rfl, fun t' ht ho => ?_,
      .inr hc, hrest⟩
    cases ht
    have hl : e₁.lifecycle = .raw := (Task.Sound.opening (t := .starting q) (h.going q rfl) ho).1
    rcases hc with hc | hc | hc
    · exact absurd hl (h.aged.born hc)
    · exact .inr hc
    · exact .inl hc
  · exact ⟨h.stride, h.aged, fun t' ht => (nomatch ht), fun t' ht => (nomatch ht), .inr hc, hrest⟩

theorem stopping_stride (he : e.Sound) {p : Engine.StopPhase} (hs : p.Sound e)
    (hr : e.stopReady x x.unlocked p = true) :
    TaskStride e x (.stopping p) (advanceTask e x (.stopping p)) := by
  have h := Engine.advanceStop_controlled (x := x) he hs
  have hc : e.lifecycle ≠ .raw ∨ e.changing = false := by
    cases p with
    | entering => exact .inr (by simpa [Engine.stopReady] using hr)
    | closing halts => exact .inl hs
    | shutting outcome p => exact .inl hs.1
  have hrest : e.atRest = true → (e.advanceStop x p).2.1.atRest = true := by
    intro hrest
    by_cases hl : e.lifecycle = .raw
    · cases p with
      | entering =>
        rw [Engine.advanceStop, if_neg (by rw [hl]; exact fun h => by cases h)]
        exact hrest
      | closing halts => exact absurd hl hs
      | shutting outcome p => exact absurd hl hs.1
    · exact h.aged.atRest hl hrest
  rw [advanceTask]
  split <;> rename_i heq <;> rw [heq] at h hrest
  · rename_i q e₁ x₁
    exact ⟨h.stride, h.aged, fun t' ht => by cases ht; exact h.going q rfl,
      fun t' ht ho => (by cases ht; cases ho), .inr (hc.imp_right .inl), fun _ => hrest⟩
  · exact ⟨h.stride, h.aged, fun t' ht => (by cases ht), fun t' ht => (by cases ht),
      .inr (hc.imp_right .inl), fun _ => hrest⟩

/-- **A step of a request.** -/
theorem advanceTask_stride {c : Cluster} (he : e.Sound)
    (hraw : e.lifecycle = .raw → e.isOver = true) (ht : t.Sound e)
    (hr : c.taskReady c.site.unlocked e t = true) :
    TaskStride e c.site t (advanceTask e c.site t) := by
  cases t with
  | arriving d => exact takeUp_stride he ht
  | asking p =>
    have h := Engine.advanceAsk_asked (x := c.site) he.sync ht
    rw [advanceTask]
    split <;> rename_i heq <;> rw [heq] at h
    · rename_i p e₁ x₁
      exact calm_task he h.calm h.mild fun t' ht' => by cases ht'; exact ⟨(h.going p rfl).1, rfl⟩
    · exact calm_task he h.calm h.mild fun t' h => nomatch h
  | storing p =>
    have hb := Storage.advance_gentle he.sync c.site.time c.site.db ht
    rw [advanceTask]
    split <;> rename_i heq <;> rw [heq] at hb
    · rename_i p s d
      exact calm_task he (Engine.calm_storage hb.alike) hb.mild
        fun t' h => by cases h; exact ⟨hb.gentle p rfl, rfl⟩
    · exact calm_task he (Engine.calm_storage hb.alike) hb.mild fun t' h => nomatch h
  | starting p => exact starting_stride he hraw ht hr
  | stopping p => exact stopping_stride he ht hr
  | halting place p =>
    obtain ⟨hc, hm⟩ := e.advanceHalt_calm c.site place (.going p)
    rw [advanceTask]
    split <;> rename_i heq <;> rw [heq] at hc hm
    · exact calm_task he hc hm.mild fun t' h => by cases h; exact ⟨trivial, rfl⟩
    · exact calm_task he hc hm.mild fun t' h => nomatch h

end Cluster

end Resumption
