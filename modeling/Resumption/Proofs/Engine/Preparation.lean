import Resumption.Proofs.Engine.Asking

/-!
# Preparing a batch

A batch is prepared as a whole before anything of it is stored. The first transient workflow refuses
it (`Engine.prepare_transient`). Otherwise each workflow has got an id, its own if it has one, and a
pool that the engine knows, its own if it is known and the default pool if not; and nothing is left
behind but one fault in the journal for each workflow that names an unknown pool
(`Engine.prepare_durable`).

What an engine knows of its pools is given as a function `known`, for a batch is prepared, stored and
announced at different times, and it is all that has to be the same at these times.
-/

namespace Resumption

/-- The transient workflow, if it is one. -/
def Submission.transient? : Submission → Option Transient
  | .durable _ => none
  | .transient t => some t

/-- Tells of a workflow that names an unknown pool. -/
def Event.unknownPool : Event := .fault "unknown processor pool, using the default pool"

namespace Workflow

/-- The pool that a submitted workflow gets: its own if it is known, and else the default pool. -/
def poolAmong (known : String → Bool) (w : Workflow) : String :=
  match w.pool with
  | some pool => if known pool then pool else defaultPool
  | none => defaultPool

/-- The workflow names a pool that is not known. -/
def strays (known : String → Bool) (w : Workflow) : Bool := w.pool.any fun pool => !known pool

/-- The workflow as it is submitted under an id. -/
def enlist (known : String → Bool) (id : Uuid) (w : Workflow) : Workflow :=
  { w with id := some id, pool := some (w.poolAmong known) }

/-- The pool of a submitted workflow is known, if the default pool is. -/
theorem poolAmong_known {known : String → Bool} (hk : known defaultPool = true) (w : Workflow) :
    known (w.poolAmong known) = true := by
  unfold poolAmong
  split
  · split
    · assumption
    · exact hk
  · exact hk

theorem enlist_pool (known : String → Bool) (id : Uuid) (w : Workflow) :
    (w.enlist known id).effectivePool = w.poolAmong known := rfl

end Workflow

/-- Every batch is durable altogether, or up to its first transient workflow. -/
theorem Submission.split_batch (batch : List Submission) :
    (batch.findSome? transient? = none ∧
      batch = (batch.filterMap durable?).map .durable) ∨
    ∃ (ws : List Workflow) (t : Transient) (rest : List Submission),
      batch.findSome? transient? = some t ∧
      batch = ws.map .durable ++ .transient t :: rest := by
  induction batch with
  | nil => exact .inl ⟨rfl, rfl⟩
  | cons x batch ih =>
    cases x with
    | transient t => exact .inr ⟨[], t, batch, rfl, rfl⟩
    | durable w =>
      rcases ih with ⟨hn, hb⟩ | ⟨ws, t, rest, ht, hb⟩
      · exact .inl ⟨hn, congrArg (.durable w :: ·) hb⟩
      · exact .inr ⟨w :: ws, t, rest, ht, congrArg (.durable w :: ·) hb⟩

/-- The first occurrences of what is new: each once, and nothing else. -/
theorem Callback.keepNew_spec (cs : List String) : ∀ seen : List String,
    (keepNew seen cs).Nodup ∧ ∀ c, c ∈ keepNew seen cs ↔ c ∈ cs ∧ c ∉ seen := by
  induction cs with
  | nil => exact fun _ => ⟨List.nodup_nil, fun c => by simp [keepNew]⟩
  | cons x cs ih =>
    intro seen
    rw [keepNew]
    split
    · rename_i hx
      obtain ⟨hn, hm⟩ := ih seen
      refine ⟨hn, fun c => (hm c).trans ⟨fun h => ⟨List.mem_cons_of_mem x h.1, h.2⟩, fun h => ?_⟩⟩
      rcases List.mem_cons.1 h.1 with rfl | hc
      · exact absurd hx h.2
      · exact ⟨hc, h.2⟩
    · rename_i hx
      obtain ⟨hn, hm⟩ := ih (x :: seen)
      refine ⟨List.nodup_cons.2 ⟨fun h => ((hm x).1 h).2 List.mem_cons_self, hn⟩, fun c => ?_⟩
      rw [List.mem_cons, hm, List.mem_cons, List.mem_cons, not_or]
      by_cases hc : c = x
      · simp [hc, hx]
      · simp [hc]

theorem Callback.keepNew_sublist (cs : List String) :
    ∀ seen : List String, (keepNew seen cs).Sublist cs := by
  induction cs with
  | nil => exact fun _ => .slnil
  | cons x cs ih =>
    intro seen
    rw [keepNew]
    split
    · exact (ih seen).cons x
    · exact (ih _).cons_cons x

theorem Engine.poolsOf_length (ws : List Workflow) : (poolsOf ws).length ≤ ws.length := by
  have := (Callback.keepNew_sublist (ws.map Workflow.effectivePool) []).length_le
  rwa [List.length_map] at this

/-- Each pool of some workflows is among their pools once. -/
theorem Engine.poolsOf_spec (ws : List Workflow) :
    (poolsOf ws).Nodup ∧ ∀ pool, pool ∈ poolsOf ws ↔ ∃ w ∈ ws, w.effectivePool = pool := by
  obtain ⟨hn, hm⟩ := Callback.keepNew_spec (ws.map Workflow.effectivePool) []
  refine ⟨hn, fun pool => (hm pool).trans ?_⟩
  simp only [List.mem_map, List.not_mem_nil, not_false_eq_true, and_true]

/-- The workflows are prepared, each under the id that it is paired with. -/
def Prepared (known : String → Bool) (ws : List Workflow) (work : List (Uuid × Workflow)) : Prop :=
  List.Forall₂ (fun w p => p.2 = w.enlist known p.1 ∧ ∀ id, w.id = some id → p.1 = id) ws work

namespace Prepared

variable {known : String → Bool} {ws : List Workflow} {work : List (Uuid × Workflow)}

theorem named (h : Prepared known ws work) : ∀ p ∈ work, p.2.id = some p.1 := by
  induction h with
  | nil => exact fun _ hp => nomatch hp
  | cons hp _ ih =>
    refine List.forall_mem_cons.2 ⟨?_, ih⟩
    rw [hp.1]
    rfl

/-- The pools of prepared workflows are those that the workflows get. -/
theorem pools (h : Prepared known ws work) :
    (work.map (·.2)).map Workflow.effectivePool = ws.map (Workflow.poolAmong known) := by
  induction h with
  | nil => rfl
  | cons hp _ ih => rw [List.map_cons, List.map_cons, ih, hp.1, Workflow.enlist_pool, List.map_cons]

theorem mem_poolsOf (h : Prepared known ws work) (pool : String) :
    pool ∈ Engine.poolsOf (work.map (·.2)) ↔ ∃ w ∈ ws, w.poolAmong known = pool := by
  rw [(Engine.poolsOf_spec _).2, ← List.mem_map, h.pools, List.mem_map]

end Prepared

namespace Engine

variable {known : String → Bool}

theorem resolvePool_eq (e : Engine) (d : Database) (w : Workflow) :
    e.resolvePool d w =
      ({ w with pool := some (w.poolAmong e.processors.knows) },
        if w.strays e.processors.knows then d.tell .unknownPool else d) := by
  unfold resolvePool Workflow.poolAmong Workflow.strays
  cases hp : w.pool with
  | none => rfl
  | some pool =>
    have hw : { w with pool := some pool } = w := by rw [← hp]
    cases hk : e.processors.knows pool with
    | true => simp [hk, hw]
    | false => simp [hk, Event.unknownPool]

theorem prepareOne_eq (e : Engine) (x : Site) (w : Workflow) :
    ∃ id issued, e.prepareOne x w =
        ((id, w.enlist e.processors.knows id),
          { x with
            issued
            db := if w.strays e.processors.knows then x.db.tell .unknownPool else x.db }) ∧
      ∀ i, w.id = some i → id = i := by
  unfold prepareOne
  cases hid : w.id with
  | some id =>
    refine ⟨id, x.issued, ?_, fun i hi => Option.some.inj hi⟩
    simp only [resolvePool_eq]
    rfl
  | none =>
    refine ⟨x.issue.1, x.issue.2.issued, ?_, fun i hi => nomatch hi⟩
    simp only [resolvePool_eq]
    rfl

/-- **Durable workflows are prepared** in order, and each that strays is told of. -/
theorem prepare_durable (e : Engine) (ws : List Workflow) (x : Site) :
    ∃ work issued, e.prepare x (ws.map .durable) =
        (.ok work, { x with
          issued
          db := x.db.tellAll
            (List.replicate (ws.countP (Workflow.strays e.processors.knows)) .unknownPool) }) ∧
      Prepared e.processors.knows ws work := by
  induction ws generalizing x with
  | nil => exact ⟨[], x.issued, rfl, .nil⟩
  | cons w ws ih =>
    obtain ⟨id, issued, hw, hid⟩ := e.prepareOne_eq x w
    obtain ⟨work, issued', hws, hp⟩ := ih
      { x with
        issued
        db := if w.strays e.processors.knows then x.db.tell .unknownPool else x.db }
    refine ⟨(id, w.enlist e.processors.knows id) :: work, issued', ?_, .cons ⟨rfl, hid⟩ hp⟩
    rw [List.map_cons, prepare, hw]
    simp only [hws, List.countP_cons]
    cases w.strays e.processors.knows with
    | true => rfl
    | false => rfl

/-- **The first transient workflow refuses the batch.** -/
theorem prepare_transient (e : Engine) (ws : List Workflow) (t : Transient)
    (rest : List Submission) (x : Site) :
    ∃ issued, e.prepare x (ws.map .durable ++ .transient t :: rest) =
      (.error (.notPersistent t.type), { x with
        issued
        db := x.db.tellAll
          (List.replicate (ws.countP (Workflow.strays e.processors.knows)) .unknownPool) }) := by
  induction ws generalizing x with
  | nil => exact ⟨x.issued, rfl⟩
  | cons w ws ih =>
    obtain ⟨id, issued, hw, -⟩ := e.prepareOne_eq x w
    obtain ⟨issued', hws⟩ := ih
      { x with
        issued
        db := if w.strays e.processors.knows then x.db.tell .unknownPool else x.db }
    refine ⟨issued', ?_⟩
    rw [List.map_cons, List.cons_append, prepare, hw]
    simp only [hws, List.countP_cons]
    cases w.strays e.processors.knows with
    | true => rfl
    | false => rfl

theorem prepare_known {e : Engine} (hk : e.processors.knows Workflow.defaultPool = true)
    {batch : List Submission} {x x' : Site} {work : List (Uuid × Workflow)}
    (h : e.prepare x batch = (.ok work, x')) :
    ∀ w ∈ work.map (·.2), e.processors.knows w.effectivePool = true := by
  rcases Submission.split_batch batch with ⟨-, hb⟩ | ⟨ws, t, rest, -, hb⟩
  · obtain ⟨work', issued, he, hw⟩ :=
      e.prepare_durable (batch.filterMap Submission.durable?) x
    rw [hb, he] at h
    cases h
    intro w hmem
    have hp := List.mem_map_of_mem (f := Workflow.effectivePool) hmem
    rw [hw.pools] at hp
    obtain ⟨v, -, hv⟩ := List.mem_map.1 hp
    rw [← hv]
    exact v.poolAmong_known hk
  · obtain ⟨issued, he⟩ := e.prepare_transient ws t rest x
    rw [hb, he] at h
    cases h

end Engine

end Resumption
