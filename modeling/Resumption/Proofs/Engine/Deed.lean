import Resumption.Proofs.Engine.Dispatching

/-!
# What a step of an engine does

A step of an engine does one of four things (`Engine.Deed`): it settles the run of one instance and
ends its dispatch; it claims instances and gives each a dispatch; it recovers what an earlier life of
the engine left running, while nothing goes on in its pools; or it is the business of no instance
that runs or is finished, and begins no dispatch.

`Engine.Stride` is what else is kept: the name that the engine claims with, its soundness, and that
rolls move forward. `stepDispatch_stride` and `stepPoll_stride` are the steps of dispatches and poll
loops; neither moves the engine on in its life (`Engine.Placid`).

A dispatch settles its instance exactly when it commits a command on it (`Engine.outcome?`), and then
it is over and does to the store what the command says (`stepDispatch_outcome`).
-/

namespace Resumption

namespace Engine

/-- The instances whose dispatches are under way. -/
def subjects (e : Engine) : List (Option Uuid) := e.dispatches.map (·.workflow.id)

/-- What a step does to the instances of an engine and to the store. The run that it may settle is
that of the subject. -/
inductive Deed (e e' : Engine) (d d' : Database) (subject : Option Uuid) : Prop where
  | mild (subjects : e'.subjects.Sublist e.subjects) (store : d.Mild d')
  | settled (l₁ l₂ : List (Option Uuid)) (before : e.subjects = l₁ ++ subject :: l₂)
      (after : e'.subjects = l₁ ++ l₂) (free : d.held = none) (aside : d.Aside d')
      (store : d.store.Spares (fun r => some r.id ≠ subject) d'.store)
  | claimed (pool : String) (most : Nat) (ws : List Workflow)
      (subjects : e'.subjects.Perm (e.subjects ++ ws.map (·.id))) (free : d.held = none)
      (aside : d.Aside d') (store : d.store.claim e.claimant pool most = (ws, d'.store))
  | recovered (quiet : e.isOver = true) (awake : e.atRest = false) (after : e'.subjects = [])
      (free : d.held = none) (aside : d.Aside d')
      (store : d.store.Spares (fun r => r.status ≠ .running e.claimant) d'.store)

/-- What a step keeps, and what it does. -/
structure Stride (e : Engine) (d : Database) (e' : Engine) (d' : Database)
    (subject : Option Uuid := none) : Prop where
  claimant : e'.claimant = e.claimant
  sound : e'.Sound
  later : e.Later e'
  deed : e.Deed e' d d' subject

/-- The step does not move the engine on in its life, and begins nothing where nothing goes on. -/
structure Placid (e e' : Engine) : Prop where
  lifecycle : e'.lifecycle = e.lifecycle
  changing : e'.changing = e.changing
  quiet : e.isOver = true → e'.isOver = true

variable {e e' e₁ : Engine} {d d' : Database} {subject : Option Uuid}

theorem Alike.subjects (h : e.Alike e') : e'.subjects = e.subjects :=
  congrArg (List.map _) h.dispatches

theorem Alike.stride (h : e.Alike e') (he : e.Sound) (hm : d.Mild d') : e.Stride d e' d' subject :=
  ⟨h.claimant, h.sound he, later_of_rolls h.rolls, .mild (by rw [h.subjects]) hm⟩

theorem Deed.told {e₂ : Engine} {d₂ : Database} (h : e.Deed e' d d' subject)
    (hs : e₂.subjects = e'.subjects) (ht : d'.Told d₂) : e.Deed e₂ d d₂ subject := by
  have aside : d.Aside d' → d.Aside d₂ := fun ha => ha.trans ht.mild.aside
  cases h with
  | mild hsub hm => exact .mild (hs ▸ hsub) (hm.trans ht.mild)
  | settled l₁ l₂ before after free ha store =>
    exact .settled l₁ l₂ before (hs.trans after) free (aside ha) (ht.store ▸ store)
  | claimed pool most ws subjects free ha store =>
    exact .claimed pool most ws (hs ▸ subjects) free (aside ha) (ht.store ▸ store)
  | recovered quiet awake after free ha store =>
    exact .recovered quiet awake (hs.trans after) free (aside ha) (ht.store ▸ store)

theorem Stride.told {e₂ : Engine} {d₂ : Database} (h : e.Stride d e' d' subject)
    (ha : e'.Alike e₂) (ht : d'.Told d₂) : e.Stride d e₂ d₂ subject :=
  ⟨ha.claimant.trans h.claimant, ha.sound h.sound, fun place r' hr' =>
    h.later place r' (ha.rolls ▸ hr'), h.deed.told ha.subjects ht⟩

theorem Calm.placid (h : e.Calm e') : e.Placid e' := ⟨h.lifecycle, h.changing, h.quiet⟩

/-! ## Changing one pool -/

section
variable {place : Nat} {p p' : Pool}

theorem set_rolls (hc : e.Calm e₁) (p' : Pool) :
    (e₁.setPool place p').rolls = e.rolls.set place (some p'.roll) := by
  rw [setPool_rolls, hc.alike.rolls]

theorem roll_of_calm (hc : e.Calm e₁) (hp : e₁.pool? place = some p) :
    e.rolls[place]? = some (some p.roll) := hc.alike.rolls ▸ roll_of_pool hp

theorem pool_of_calm (hc : e.Calm e₁) (hp : e.pool? place = some p) :
    ∃ p₁, e₁.pool? place = some p₁ ∧ p₁.roll = p.roll :=
  pool_of_roll (by rw [hc.alike.rolls]; exact roll_of_pool hp)

/-- A calm step, after which one pool is changed so that its roll is sound and moves forward. -/
theorem Calm.stride_set (hc : e.Calm e₁) (he : e.Sound) (hp : e₁.pool? place = some p)
    (hs : p'.roll.Sound) (hl : p.roll.Later p'.roll)
    (hd : e.Deed (e₁.setPool place p') d d' subject) :
    e.Stride d (e₁.setPool place p') d' subject :=
  ⟨hc.alike.claimant, he.set hc.alike ⟨rfl, rfl, rfl⟩ (set_rolls hc p') hs,
    later_set (roll_of_calm hc hp) (set_rolls hc p') hl, hd⟩

theorem Calm.placid_set (hc : e.Calm e₁) (hp : e₁.pool? place = some p)
    (ho : p.isOver = true → p'.isOver = true) : e.Placid (e₁.setPool place p') :=
  ⟨hc.lifecycle, hc.changing, fun h => isOver_setPool (hc.quiet h) (ho (isOver_pool (hc.quiet h) hp))⟩

theorem subjects_set (hc : e.Calm e₁) (hp : e₁.pool? place = some p) (p' : Pool) :
    ∃ l₁ l₂, e.subjects = l₁ ++ p.dispatches.map (·.workflow.id) ++ l₂ ∧
      (e₁.setPool place p').subjects = l₁ ++ p'.dispatches.map (·.workflow.id) ++ l₂ := by
  obtain ⟨l₁, l₂, h, h'⟩ := dispatches_set (roll_of_calm hc hp) (set_rolls hc p')
  refine ⟨l₁.map (·.workflow.id), l₂.map (·.workflow.id), ?_, ?_⟩
  · rw [subjects, h]
    simp only [List.map_append]
    rfl
  · rw [subjects, h']
    simp only [List.map_append]
    rfl

end

/-! ## Dispatches -/

theorem endDispatch_later (p : Pool) (serial : Nat) : p.roll.Later (p.endDispatch serial).roll :=
  ⟨Nat.le_refl _, fun d hd => .inl ⟨d, (List.mem_filter.1 hd).1, rfl⟩⟩

theorem endDispatch_sound {p : Pool} (h : p.roll.Sound) (serial : Nat) :
    (p.endDispatch serial).roll.Sound :=
  ⟨fun d hd => h.begun d (List.mem_filter.1 hd).1,
    (List.Sublist.map _ List.filter_sublist).nodup h.once,
    fun d hd => h.faithful d (List.mem_filter.1 hd).1⟩

theorem setPhase_serials (p : Pool) (serial : Nat) (found : Bool) (phase : DispatchPhase) :
    (p.setPhase serial found phase).dispatches.map (·.serial) = p.dispatches.map (·.serial) := by
  simp only [Pool.setPhase, List.map_map]
  exact List.map_congr_left fun d _ => by dsimp only [Function.comp]; split <;> rfl

theorem setPhase_subjects (p : Pool) (serial : Nat) (found : Bool) (phase : DispatchPhase) :
    (p.setPhase serial found phase).dispatches.map (·.workflow.id) =
      p.dispatches.map (·.workflow.id) := by
  simp only [Pool.setPhase, List.map_map]
  exact List.map_congr_left fun d _ => by dsimp only [Function.comp]; split <;> rfl

theorem setPhase_later (p : Pool) (serial : Nat) (found : Bool) (phase : DispatchPhase) :
    p.roll.Later (p.setPhase serial found phase).roll := by
  refine ⟨Nat.le_refl _, fun d' hd' => .inl ?_⟩
  obtain ⟨d, hd, rfl⟩ := List.mem_map.1 hd'
  exact ⟨d, hd, by split <;> rfl⟩

theorem setPhase_sound {p : Pool} (h : p.roll.Sound) {x : Dispatch} (hx : x ∈ p.dispatches)
    {id : Uuid} (hid : x.workflow.id = some id) (found : Bool) {phase : DispatchPhase}
    (hf : phase.Faithful id) : (p.setPhase x.serial found phase).roll.Sound := by
  refine ⟨fun d' hd' => ?_, ?_, fun d' hd' => ?_⟩
  · obtain ⟨d, hd, rfl⟩ := List.mem_map.1 hd'
    have := h.begun d hd
    split <;> exact this
  · show ((p.setPhase x.serial found phase).dispatches.map (·.serial)).Nodup
    rw [setPhase_serials]
    exact h.once
  · obtain ⟨d, hd, rfl⟩ := List.mem_map.1 hd'
    split
    · rename_i hs
      obtain rfl : d = x := List.inj_on_of_nodup_map h.once hd hx hs
      exact ⟨id, hid, hf⟩
    · exact h.faithful d hd

theorem dispatch?_some {p : Pool} {serial : Nat} {x : Dispatch} (h : p.dispatch? serial = some x) :
    x ∈ p.dispatches ∧ x.serial = serial :=
  ⟨List.mem_of_find?_eq_some h, by simpa using List.find?_some h⟩

theorem endDispatch_split {p : Pool} (h : p.roll.Sound) {x : Dispatch} (hx : x ∈ p.dispatches) :
    ∃ l₁ l₂, p.dispatches = l₁ ++ x :: l₂ ∧ (p.endDispatch x.serial).dispatches = l₁ ++ l₂ := by
  obtain ⟨l₁, l₂, hl⟩ := List.append_of_mem hx
  have hn : (p.dispatches.map (·.serial)).Nodup := h.once
  rw [hl, List.map_append, List.map_cons, List.nodup_middle, List.nodup_cons] at hn
  have hne : ∀ d ∈ l₁ ++ l₂, d.serial ≠ x.serial := fun d hd he =>
    hn.1 (by rw [← List.map_append]; exact he ▸ List.mem_map_of_mem hd)
  refine ⟨l₁, l₂, hl, ?_⟩
  show p.dispatches.filter _ = _
  rw [hl, List.filter_append, List.filter_cons_of_neg (by simp), ← List.filter_append]
  exact List.filter_eq_self.2 fun d hd => decide_eq_true (hne d hd)

theorem not_isOver {p : Pool} {x : Dispatch} (hx : x ∈ p.dispatches) : ¬ p.isOver = true := by
  intro h
  simp only [Pool.isOver, Bool.and_eq_true, List.isEmpty_iff] at h
  rw [h.2] at hx
  cases hx

/-- What a dispatch commits, it commits while no transaction is held open. -/
theorem committed_free {e : Engine} {x : Site} {phase : DispatchPhase} {c : Command}
    (h : e.committed x phase = some c) (hr : e.dispatchReady x x.unlocked phase = true) :
    x.db.held = none := by
  unfold committed at h
  split at h
  · unfold Storage.committed at h
    split at h
    · exact Option.isNone_iff_eq_none.1 hr
    · cases h
  · cases h

section
variable {e e₁ : Engine} {d d' : Database} {place : Nat} {p p₁ : Pool} {y : Dispatch}
  {subject : Option Uuid}

theorem gone_stride (he : e.Sound) (hc : e.Calm e₁) (hm : d.Mild d')
    (hp : e₁.pool? place = some p) (hs : p.roll.Sound) (serial : Nat) :
    e.Stride d (e₁.setPool place (p.endDispatch serial)) d' subject := by
  refine hc.stride_set he hp (endDispatch_sound hs _) (endDispatch_later p _) (.mild ?_ hm)
  obtain ⟨l₁, l₂, h, h'⟩ := subjects_set hc hp (p.endDispatch serial)
  rw [h, h']
  have : ((p.endDispatch serial).dispatches.map (·.workflow.id)).Sublist
      (p.dispatches.map (·.workflow.id)) := List.filter_sublist.map _
  exact ((List.Sublist.refl l₁).append this).append (.refl l₂)

theorem settled_stride (he : e.Sound) (hc : e.Calm e₁) (hp : e₁.pool? place = some p)
    (hs : p.roll.Sound) (hy : y ∈ p.dispatches) (free : d.held = none) (aside : d.Aside d')
    (store : d.store.Spares (fun r => some r.id ≠ y.workflow.id) d'.store) :
    e.Stride d (e₁.setPool place (p.endDispatch y.serial)) d' y.workflow.id := by
  refine hc.stride_set he hp (endDispatch_sound hs _) (endDispatch_later p _) ?_
  obtain ⟨l₁, l₂, h, h'⟩ := subjects_set hc hp (p.endDispatch y.serial)
  obtain ⟨m₁, m₂, hm, hm'⟩ := endDispatch_split hs hy
  rw [hm] at h
  rw [hm'] at h'
  refine .settled (l₁ ++ m₁.map (·.workflow.id)) (m₂.map (·.workflow.id) ++ l₂) ?_ ?_ free aside store
  · rw [h]
    simp
  · rw [h']
    simp

theorem going_stride (he : e.Sound) (hc : e.Calm e₁) (hm : d.Mild d')
    (hp : e₁.pool? place = some p) (hs : p.roll.Sound) (hy : y ∈ p.dispatches) {id : Uuid}
    (hid : y.workflow.id = some id) (found : Bool) {phase : DispatchPhase}
    (hf : phase.Faithful id) :
    e.Stride d (e₁.setPool place (p.setPhase y.serial found phase)) d' subject := by
  refine hc.stride_set he hp (setPhase_sound hs hy hid found hf) (setPhase_later p _ _ _)
    (.mild ?_ hm)
  obtain ⟨l₁, l₂, h, h'⟩ := subjects_set hc hp (p.setPhase y.serial found phase)
  rw [h, h', setPhase_subjects]

end

/-- The command that a step of a dispatch commits, and the instance that was claimed. -/
def outcome? (e : Engine) (x : Site) (place serial : Nat) : Option (Option Uuid × Command) :=
  (e.pool? place).bind fun p => (p.dispatch? serial).bind fun y =>
    if p.aborting then none else (e.committed x y.phase).map fun c => (y.workflow.id, c)

theorem outcome?_eq {e : Engine} {x : Site} {place serial : Nat} {p : Pool} {y : Dispatch}
    (hp : e.pool? place = some p) (hy : p.dispatch? serial = some y) (hab : p.aborting = false) :
    e.outcome? x place serial = (e.committed x y.phase).map fun c => (y.workflow.id, c) := by
  simp [outcome?, hp, hy, hab]

theorem outcome?_some {e : Engine} {x : Site} {place serial : Nat} {subject : Option Uuid}
    {c : Command} (h : e.outcome? x place serial = some (subject, c)) :
    ∃ p y, e.pool? place = some p ∧ p.dispatch? serial = some y ∧ p.aborting = false ∧
      e.committed x y.phase = some c ∧ y.workflow.id = subject := by
  obtain ⟨p, hp, h⟩ := Option.bind_eq_some_iff.1 h
  obtain ⟨y, hy, h⟩ := Option.bind_eq_some_iff.1 h
  split at h
  · cases h
  · rename_i hab
    obtain ⟨c', hc, h⟩ := Option.map_eq_some_iff.1 h
    cases h
    exact ⟨p, y, hp, hy, Bool.eq_false_iff.2 hab, hc, rfl⟩

/-- **A step of a dispatch** settles its instance and is the last, or it settles nothing. -/
theorem stepDispatch_stride {e : Engine} (he : e.Sound) {x : Site} (hd : x.db.Timely) (alive : Bool)
    (place serial : Nat)
    (hr : ∀ p y, e.pool? place = some p → p.dispatch? serial = some y →
      p.aborting = true ∨ e.dispatchReady x x.unlocked y.phase = true) :
    e.Stride x.db (e.stepDispatch x alive place serial).1
        (e.stepDispatch x alive place serial).2.db ((e.outcome? x place serial).bind Prod.fst) ∧
      e.Placid (e.stepDispatch x alive place serial).1 := by
  unfold stepDispatch
  split
  · exact ⟨(Alike.refl e).stride he (.refl x.db), (Calm.refl e).placid⟩
  · rename_i p y hfind
    obtain ⟨p, hp, hpy⟩ := Option.bind_eq_some_iff.1 hfind
    obtain ⟨y, hy, hpair⟩ := Option.map_eq_some_iff.1 hpy
    cases hpair
    have hready := hr p y hp hy
    obtain ⟨hmem, rfl⟩ := dispatch?_some hy
    have hroll := he.rolls p.roll (List.mem_of_getElem? (roll_of_pool hp))
    split
    · exact ⟨gone_stride he (.refl e) (x.db.told_tell _).mild hp hroll _,
        (Calm.refl e).placid_set hp fun h => absurd h (not_isOver hmem)⟩
    · rename_i hab
      have hout := outcome?_eq (x := x) hp hy (Bool.eq_false_iff.2 hab)
      obtain ⟨id, hid, hf⟩ := hroll.faithful y hmem
      have h := advanceDispatch_carried he hd (alive && p.attached) hid hf
      obtain ⟨p₁, hp₁, he₁⟩ := pool_of_calm h.calm hp
      have hroll₁ : p₁.roll.Sound := he₁ ▸ hroll
      have hmem₁ : y ∈ p₁.dispatches := by
        have : p₁.dispatches = p.dispatches := congrArg Roll.dispatches he₁
        rw [this]
        exact hmem
      have placid : ∀ p', e.Placid (Engine.setPool
          (e.advanceDispatch x (alive && p.attached) y.workflow y.phase).2.1 place p') := fun p' =>
        h.calm.placid_set hp₁ fun ho => absurd ho (not_isOver hmem₁)
      dsimp only
      split <;> rename_i heq <;> rw [heq] at h hp₁ placid <;>
        refine ⟨?_, by rw [modifyPool, hp₁]; exact placid _⟩ <;> rw [modifyPool, hp₁]
      · rename_i phase e₁ x₁
        rcases h.effect with ⟨c, -, -, hover, -⟩ | ⟨-, hm, hq⟩
        · cases hover
        · exact going_stride he h.calm hm hp₁ hroll₁ hmem₁ hid _ (hq phase rfl)
      · rename_i e₁ x₁
        rcases h.effect with ⟨c, hc, -, -, aside, store, -⟩ | ⟨-, hm, -⟩
        · rw [hout, hc]
          exact settled_stride he h.calm hp₁ hroll₁ hmem₁
            (committed_free hc (hready.resolve_left hab)) aside
            (store.weaken fun r hne heq => hne (by rw [heq, hid]))
        · exact gone_stride he h.calm hm hp₁ hroll₁ _

theorem not_spent {e : Engine} {place serial : Nat} {p : Pool} {y : Dispatch}
    (hp : e.pool? place = some p) (hy : p.dispatch? serial = some y) : ¬ e.Spent place serial := by
  intro h
  obtain ⟨hmem, rfl⟩ := dispatch?_some hy
  exact (h p.roll (roll_of_pool hp)).2 y hmem rfl

/-- The step of a dispatch that is not canceled, when the dispatch is over by it. -/
theorem stepDispatch_over {e : Engine} {x : Site} {alive : Bool} {place serial : Nat} {p p₁ : Pool}
    {y : Dispatch} (hp : e.pool? place = some p) (hy : p.dispatch? serial = some y)
    (hab : p.aborting = false) {e₁ : Engine} {x₁ : Site}
    (h : e.advanceDispatch x (alive && p.attached) y.workflow y.phase = (.over, e₁, x₁))
    (hp₁ : e₁.pool? place = some p₁) :
    e.stepDispatch x alive place serial = (e₁.setPool place (p₁.endDispatch serial), x₁) := by
  simp only [stepDispatch, hp, hy, Option.bind_some, Option.map_some, hab, Bool.false_eq_true,
    ↓reduceIte, h, modifyPool, hp₁]

/-- **A dispatch that commits a command** commits it on its instance, and does to the store what the
command says. It was under way before, and is spent by it. -/
theorem stepDispatch_outcome {e : Engine} (he : e.Sound) {x : Site} (hd : x.db.Timely)
    (alive : Bool) {place serial : Nat} {subject : Option Uuid} {c : Command}
    (h : e.outcome? x place serial = some (subject, c)) :
    c.instanceId? = subject ∧ subject.isSome ∧
      x.db.store.execute e.storage.access.removeFinished c =
        (.ok (), (e.stepDispatch x alive place serial).2.db.store) ∧
      ¬ e.Spent place serial ∧ (e.stepDispatch x alive place serial).1.Spent place serial := by
  obtain ⟨p, y, hp, hy, hab, hc, rfl⟩ := outcome?_some h
  obtain ⟨hmem, hserial⟩ := dispatch?_some hy
  have hroll := he.rolls p.roll (List.mem_of_getElem? (roll_of_pool hp))
  obtain ⟨id, hid, hf⟩ := hroll.faithful y hmem
  have hcarried := advanceDispatch_carried he hd (alive && p.attached) hid hf
  rcases hcarried.effect with ⟨c', hc', hcid, hover, -, -, hstore⟩ | ⟨hn, -⟩
  · cases hc.symm.trans hc'
    obtain ⟨p₁, hp₁, he₁⟩ := pool_of_calm hcarried.calm hp
    rcases hstep : e.advanceDispatch x (alive && p.attached) y.workflow y.phase with ⟨r, e₁, x₁⟩
    have hcalm := hcarried.calm
    rw [hstep] at hcalm hover hstore hp₁
    cases hover
    rw [stepDispatch_over hp hy hab hstep hp₁]
    refine ⟨hcid.trans hid.symm, by rw [hid]; rfl, hstore, not_spent hp hy, fun r hr => ?_⟩
    rw [set_rolls hcalm, List.getElem?_set_self', roll_of_pool hp] at hr
    cases hr
    refine ⟨?_, fun d hm => by simpa using (List.mem_filter.1 hm).2⟩
    have hb := hroll.begun y hmem
    rw [hserial, ← he₁] at hb
    exact hb
  · rw [hn] at hc
    cases hc

/-! ## Poll loops -/

/-- The numbers of new dispatches follow those of the ones before. -/
theorem dispatchAll_serials (p : Pool) (ws : List Workflow) :
    (p.dispatchAll ws).dispatches.map (·.serial) =
      p.dispatches.map (·.serial) ++ List.range' p.issued ws.length := by
  have : (ws.mapIdx fun i w => (⟨p.issued + i, w, .fresh, false⟩ : Dispatch)).map (·.serial) =
      List.range' p.issued ws.length := by
    refine List.ext_getElem (by simp) fun i h₁ h₂ => ?_
    simp
  rw [Pool.dispatchAll, List.map_append, this]

theorem dispatchAll_subjects (p : Pool) (ws : List Workflow) :
    (p.dispatchAll ws).dispatches.map (·.workflow.id) =
      p.dispatches.map (·.workflow.id) ++ ws.map (·.id) := by
  have : (ws.mapIdx fun i w => (⟨p.issued + i, w, .fresh, false⟩ : Dispatch)).map (·.workflow.id) =
      ws.map (·.id) := List.ext_getElem (by simp) fun i h₁ h₂ => by simp
  rw [Pool.dispatchAll, List.map_append, this]

theorem dispatchAll_later (p : Pool) (ws : List Workflow) :
    p.roll.Later (p.dispatchAll ws).roll := by
  refine ⟨Nat.le_add_right _ _, fun d' hd' => ?_⟩
  rcases List.mem_append.1 hd' with hd' | hd'
  · exact .inl ⟨d', hd', rfl⟩
  · obtain ⟨i, hi, rfl⟩ := List.mem_mapIdx.1 hd'
    exact .inr (Nat.le_add_right _ _)

theorem dispatchAll_sound {p : Pool} (h : p.roll.Sound) {ws : List Workflow}
    (hws : ∀ w ∈ ws, ∃ id, w.id = some id) : (p.dispatchAll ws).roll.Sound := by
  refine ⟨fun d hd => ?_, ?_, fun d hd => ?_⟩
  · rcases List.mem_append.1 hd with hd | hd
    · exact Nat.lt_of_lt_of_le (h.begun d hd) (Nat.le_add_right _ _)
    · obtain ⟨i, hi, rfl⟩ := List.mem_mapIdx.1 hd
      exact Nat.add_lt_add_left hi _
  · show ((p.dispatchAll ws).dispatches.map (·.serial)).Nodup
    rw [dispatchAll_serials]
    refine List.nodup_append.2 ⟨h.once, List.nodup_range', fun a ha b hb hab => ?_⟩
    obtain ⟨d, hd, rfl⟩ := List.mem_map.1 ha
    have := h.begun d hd
    have := (List.mem_range'_1.1 hb).1
    simp only [Pool.roll] at *
    omega
  · rcases List.mem_append.1 hd with hd | hd
    · exact h.faithful d hd
    · obtain ⟨i, hi, rfl⟩ := List.mem_mapIdx.1 hd
      obtain ⟨id, hid⟩ := hws _ (List.getElem_mem hi)
      exact ⟨id, hid, trivial⟩

theorem claim_ids {s s' : Store} {engine pool : String} {most : Nat} {ws : List Workflow}
    (h : s.claim engine pool most = (ws, s')) : ∀ w ∈ ws, ∃ id, w.id = some id := by
  intro w hw
  have : ws = (s.claim engine pool most).1 := by rw [h]
  rw [this] at hw
  obtain ⟨r, -, rfl⟩ := List.mem_map.1 hw
  exact ⟨r.id, rfl⟩

theorem afterClaim_roll (p : Pool) (time slots : Nat) (ws : List Workflow) :
    (p.afterClaim time slots ws).roll = (p.dispatchAll ws).roll := by
  unfold Pool.afterClaim
  dsimp only
  split <;> rfl

section
variable {e : Engine} {x : Site} {place : Nat} {p : Pool}

/-- The poll loop claims instances, or its claim fails and nothing is claimed. -/
theorem claiming_stride (he : e.Sound) (hd : x.db.Timely) (free : x.db.held = none)
    (hp : e.pool? place = some p) {n : Nat} (hpoll : p.poll = .claiming n) :
    ∃ p' s d, p.stepPoll x.time e.storage x.db = (p', s, d) ∧
      e.Stride x.db (Engine.setPool { e with storage := s } place p') d ∧
      e.Placid (Engine.setPool { e with storage := s } place p') := by
  have hroll := he.rolls p.roll (List.mem_of_getElem? (roll_of_pool hp))
  have hbusy : ∀ {q : Pool}, p.isOver = true → q.isOver = true := fun h => by
    simp [Pool.isOver, hpoll] at h
  obtain ⟨ha, aside, h⟩ := e.storage.state_claim hd p.settings.id n
  rcases hs : e.storage.state x.db (.claim p.settings.id n) with ⟨reply, s, d⟩
  rw [hs] at ha aside h
  have hc : e.Calm { e with storage := s } := calm_storage ha
  have hp₁ : Engine.pool? { e with storage := s } place = some p := hp
  -- nothing was claimed
  have idle : ∀ {p' : Pool} {d' : Database}, p'.roll = p.roll → d.store = x.db.store →
      d.Told d' →
      e.Stride x.db (Engine.setPool { e with storage := s } place p') d' ∧
        e.Placid (Engine.setPool { e with storage := s } place p') := fun hr hst ht =>
    have hc' := hc.trans (calm_setPool hp₁ hr hbusy)
    ⟨hc'.alike.stride he ((Database.mild_of_store aside hst).trans ht.mild), hc'.placid⟩
  rcases h with ⟨ws, rfl, hclaim⟩ | ⟨hno, hst⟩
  · refine ⟨p.afterClaim x.time n ws, s, d, by simp only [Pool.stepPoll, hpoll, hs], ?_,
      hc.placid_set hp₁ hbusy⟩
    have hr := afterClaim_roll p x.time n ws
    refine hc.stride_set he hp₁ (hr ▸ dispatchAll_sound hroll (claim_ids hclaim))
      (hr ▸ dispatchAll_later p ws) (.claimed p.settings.id n ws ?_ free aside hclaim)
    obtain ⟨l₁, l₂, h, h'⟩ := subjects_set hc hp₁ (p.afterClaim x.time n ws)
    have hw : (p.afterClaim x.time n ws).dispatches = (p.dispatchAll ws).dispatches :=
      congrArg Roll.dispatches hr
    rw [h, h', hw, dispatchAll_subjects]
    simp only [List.append_assoc]
    exact (List.perm_append_comm.append_left _).append_left l₁
  · cases reply with
    | claimed ws => exact absurd rfl (hno ws)
    | crashed m =>
      exact ⟨{ p with free := p.free + n, poll := .broken }, s, d,
        by simp only [Pool.stepPoll, hpoll, hs], idle rfl hst (.refl d)⟩
    | _ =>
      refine ⟨p.afterClaim x.time n [], s, d.tell (.fault "dequeue failed"),
        by simp only [Pool.stepPoll, hpoll, hs], ?_⟩
      refine idle ?_ hst (d.told_tell _)
      rw [afterClaim_roll]
      simp [Pool.roll, Pool.dispatchAll]

/-- **A step of a poll loop** claims instances and gives each a dispatch, or it begins none. -/
theorem stepPoll_stride (he : e.Sound) (hd : x.db.Timely)
    (hr : ∀ p, e.pool? place = some p → p.pollReady x.time x.unlocked = true) :
    e.Stride x.db (e.stepPoll x place).1 (e.stepPoll x place).2.db ∧
      e.Placid (e.stepPoll x place).1 := by
  unfold stepPoll
  split
  · exact ⟨(Alike.refl e).stride he (.refl x.db), (Calm.refl e).placid⟩
  · rename_i p hp
    have hready := hr p hp
    have keeps : ∀ {p' : Pool}, p'.roll = p.roll → (p.isOver = true → p'.isOver = true) →
        e.Stride x.db (e.setPool place p') x.db ∧ e.Placid (e.setPool place p') := fun hr ho =>
      have hc := calm_setPool hp hr ho
      ⟨hc.alike.stride he (.refl x.db), hc.placid⟩
    unfold Pool.pollReady at hready
    split at hready
    · rename_i hpoll
      simp only [Pool.stepPoll, hpoll]
      split
      · exact keeps rfl fun h => by simp [Pool.isOver, hpoll] at h
      · exact keeps rfl fun h => by simp [Pool.isOver, hpoll] at h
    · rename_i n hpoll
      obtain ⟨p', s, d, hstep, h⟩ := claiming_stride he hd (Option.isNone_iff_eq_none.1 hready) hp
        hpoll
      rw [hstep]
      exact h
    · rename_i due hpoll
      simp only [Pool.stepPoll, hpoll]
      split
      · exact keeps rfl fun h => by simp [Pool.isOver, hpoll] at h
      · exact keeps rfl fun h => by simp [Pool.isOver, hpoll] at h
    · cases hready

end

end Engine

end Resumption
