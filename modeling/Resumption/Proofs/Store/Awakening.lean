import Resumption.Proofs.Database.Session
import Resumption.Proofs.Store.Discipline

/-!
# What a claim tells

A claim hands out an instance with responses and with a mark that says whether its wait was cut
short. Both are written when a wait ends, taken by the claim, and left alone by everything else, so
whatever an earlier wait left behind would show in a later claim.

`Turn.Tells` says what the two have to be, given the turn in which the instance became ready and the
turns before it: nothing after a promotion of a new instance, a restart or a recovery; the answers
to the last callback when an answer ended the wait; and what had come in so far when the deadline
did.

**Invariant.** `Store.Accounted`: an instance that waits does so on the last callback that it was
suspended on, and what is on a ready one is what the last turn that made it ready has to tell.
`Change.tells` is the step for the turn that makes an instance ready, and `Change.unchanged` the one
for a turn that finds it ready and leaves it so.

**Result.** `claim_tells_truth`: under the discipline of dispatch all that a claim hands out is told
by the last turn that made the instance ready.
-/

namespace Resumption

/-! ## Becoming ready -/

/-- The stage of a stored instance. -/
def Store.stageOf (s : Store) (id : Uuid) : Option Stage := (s.find? id).map Record.stage

/-- What a stored instance waits for, if it waits. -/
def Store.suspensionOf (s : Store) (id : Uuid) : Option Suspension :=
  (s.find? id).bind Record.suspension?

/-- The turn makes the instance ready. -/
def Turn.Wakes (t : Turn) (id : Uuid) : Prop :=
  t.before.stageOf id ≠ some .ready ∧ t.after.stageOf id = some .ready

/-- The callback on which the turn suspends the instance. -/
def Turn.call? (t : Turn) (id : Uuid) : Option Callback :=
  t.action.callback?.filter fun c => c.instanceId = id

/-- The last callback on which the turns suspend the instance. -/
def lastCall (ts : List Turn) (id : Uuid) : Option Callback :=
  (ts.filterMap fun t => t.call? id).getLast?

/-- The responses are answers to a callback that end the wait on it: one to each of its ids, in
order, or one to any of them. -/
structure Callback.AnsweredBy (c : Callback) (responses : List Response) : Prop where
  all : c.quorum = .all → responses.map (·.correlation) = c.correlations
  first : c.quorum = .first → ∃ x, responses = [x] ∧ x.correlation ∈ c.correlations

/-- The suspension is on a callback whose deadline has come, and the responses are the answers that
came in before, in the order of their ids. -/
structure Callback.CutShort (c : Callback) (z : Suspension) (now : Instant)
    (responses : List Response) : Prop where
  asks : z.Asks c
  due : ∃ d, c.deadline = some d ∧ d ≤ now
  answers : responses = z.answers
  answered : responses.map (·.correlation) =
    (z.waits.filter fun w => !w.isOpen).map (·.correlation)

/-- What responses and mark have to be when the turn makes the instance ready, after the turns in
`past`. -/
def Turn.Tells (t : Turn) (past : List Turn) (id : Uuid) (responses : List Response)
    (expired : Bool) : Prop :=
  match t.action, t.before.suspensionOf id with
  | .deliver _, _ | .suspend _ _, _ =>
    expired = false ∧ ∃ c, lastCall (past ++ [t]) id = some c ∧ c.AnsweredBy responses
  | .promote now _, some z =>
    expired = true ∧ ∃ c, lastCall past id = some c ∧ c.CutShort z now responses
  | _, _ => expired = false ∧ responses = []

/-- Responses and mark are what the last of the turns that made the instance ready has to tell. -/
def Told (ts : List Turn) (id : Uuid) (responses : List Response) (expired : Bool) : Prop :=
  ∃ past t later, ts = past ++ t :: later ∧ t.Wakes id ∧ (∀ u ∈ later, ¬ u.Wakes id) ∧
    t.Tells past id responses expired

theorem lastCall_snoc (ts : List Turn) (t : Turn) (id : Uuid) :
    lastCall (ts ++ [t]) id = (t.call? id).or (lastCall ts id) := by
  unfold lastCall
  rw [List.filterMap_append, List.getLast?_append]
  cases h : t.call? id <;> simp [h]

theorem Told.snoc {ts : List Turn} {id : Uuid} {responses : List Response} {expired : Bool}
    (h : Told ts id responses expired) {t : Turn} (ht : ¬ t.Wakes id) :
    Told (ts ++ [t]) id responses expired := by
  obtain ⟨past, u, later, rfl, hw, hl, htell⟩ := h
  refine ⟨past, u, later ++ [t], by simp, hw, ?_, htell⟩
  intro v hv
  rcases List.mem_append.1 hv with hv | hv
  · exact hl v hv
  · rw [List.mem_singleton.1 hv]; exact ht

theorem told_now {ts : List Turn} {t : Turn} {id : Uuid} {responses : List Response}
    {expired : Bool} (hw : t.Wakes id) (ht : t.Tells ts id responses expired) :
    Told (ts ++ [t]) id responses expired :=
  ⟨ts, t, [], rfl, hw, by simp, ht⟩

/-! ## How waits end -/

namespace Suspension

/-- The answers that came in are to the ids of the waits that are no longer open. -/
theorem answers_correlations {ws : List Wait} (h : Matched ws) :
    (ws.filterMap (·.answer)).map (·.correlation) =
      (ws.filter fun w => !w.isOpen).map (·.correlation) := by
  induction ws with
  | nil => rfl
  | cons w ws ih =>
    have ih := ih fun v hv => h v (List.mem_cons_of_mem _ hv)
    cases ha : w.answer with
    | none =>
      rw [List.filterMap_cons_none ha, List.filter_cons_of_neg (by simp [Wait.isOpen, ha]), ih]
    | some a =>
      rw [List.filterMap_cons_some ha, List.filter_cons_of_pos (by simp [Wait.isOpen, ha]),
        List.map_cons, List.map_cons, ih, h w List.mem_cons_self a ha]

/-- The answers of a sound suspension with the one that ends it answer the callback. -/
theorem Sound.answeredBy {z : Suspension} {c : Callback} (h : z.Sound c) {x : Response}
    (hx : 0 < openCount z.waits x.correlation) (hr : (z.answered x).resolvedByAnswer = true) :
    c.AnsweredBy (z.answered x).answers := by
  constructor
  · intro hq
    have hall : (z.answered x).waits.all (fun w => !w.isOpen) = true := by
      have hq' : (z.answered x).quorum = .all := h.asks.quorum.trans hq
      simpa only [resolvedByAnswer, hq'] using hr
    have hm : Matched (z.answered x).waits := matched_answerFirst hx h.matched
    rw [answers, answers_correlations hm, List.filter_eq_self.2 (List.all_eq_true.1 hall)]
    exact (h.asks.answered x).correlations
  · intro hq
    obtain ⟨w, hw, ho⟩ := List.countP_pos_iff.1 hx
    refine ⟨x, answers_answered (h.unresolved.first (h.asks.quorum.trans hq)) hx, ?_⟩
    rw [← h.asks.correlations, ← (opens_iff.1 ho).2]
    exact List.mem_map_of_mem hw

/-- The answers of a sound suspension whose deadline has come are what came in before. -/
theorem Sound.cutShort {z : Suspension} {c : Callback} (h : z.Sound c) {now : Instant}
    (hd : z.dueAt now = true) : c.CutShort z now z.answers := by
  refine ⟨h.asks, ?_, rfl, answers_correlations h.matched⟩
  rw [← h.asks.deadline]
  unfold dueAt at hd
  split at hd
  · rename_i d hz; exact ⟨d, hz, of_decide_eq_true hd⟩
  · cases hd

end Suspension

/-! ## The invariant -/

namespace Store

/-- Waiting instances wait on the last callback that they were suspended on, and ready ones carry
what the last turn that made them ready has to tell. -/
structure Accounted (ts : List Turn) (s : Store) : Prop where
  unique : s.Unique
  tidy : s.Tidy
  asked : ∀ r ∈ s.records, ∀ z, r.status = .waiting z →
    ∃ c, lastCall ts r.id = some c ∧ z.Sound c
  told : ∀ r ∈ s.records, r.status = .ready → Told ts r.id r.delivered r.waitExpired

theorem Unique.stageOf {s : Store} (hu : s.Unique) {r : Record} (hr : r ∈ s.records) :
    s.stageOf r.id = some r.stage := by rw [Store.stageOf, hu.find? hr, Option.map_some]

theorem Unique.suspensionOf {s : Store} (hu : s.Unique) {r : Record} (hr : r ∈ s.records) :
    s.suspensionOf r.id = r.suspension? := by
  rw [Store.suspensionOf, hu.find? hr, Option.bind_some]

theorem stage_ready {r : Record} : r.stage = .ready ↔ r.status = .ready := by
  unfold Record.stage
  cases r.status <;> simp [Status.stage]

variable {s : Store} {a : Action} {r r' : Record}

/-- Under the discipline an instance that waits is not suspended anew. -/
theorem call?_none (ho : Turn.OnRunning ⟨s, a⟩) (hr : r ∈ s.records) {z : Suspension}
    (hz : r.status = .waiting z) : Turn.call? ⟨s, a⟩ r.id = none := by
  have hn : r.stage ≠ .running := by
    rw [Record.stage, hz]
    intro h
    cases h
  refine Option.filter_eq_none_iff.2 fun c hc he => hn (ho r hr ?_)
  cases a with
  | suspend c' payload => cases hc; exact congrArg some (of_decide_eq_true he)
  | _ => cases hc

theorem call?_suspend {c : Callback} (payload : Json) (hid : r.id = c.instanceId) :
    Turn.call? ⟨s, .suspend c payload⟩ r.id = some c := by
  show Option.filter _ (some c) = some c
  rw [Option.filter_some, if_pos (decide_eq_true hid.symm)]

/-- A turn that finds an instance ready and leaves it so does not touch it. -/
theorem Change.unchanged (h : s.Change a r r') (ho : Turn.OnRunning ⟨s, a⟩) (hr : r ∈ s.records)
    (hb : r.status = .ready) (ha : r'.status = .ready) : r' = r := by
  cases h with
  | same _ => rfl
  | deliver hw =>
    obtain ⟨z, hz, -⟩ := Record.wants_iff.1 hw
    rw [hb] at hz
    cases hz
  | suspend hid =>
    obtain ⟨e, he⟩ := Record.status_of_running (ho r hr (congrArg some hid.symm))
    rw [hb] at he
    cases he
  | restart _ hf => rw [hb] at hf; cases hf
  | restartAll hf => rw [hb] at hf; cases hf
  | promote hd => simp [Record.dueAt, hb] at hd
  | recover hf => rw [hb] at hf; cases hf
  | _ => cases ha

/-- What is on an instance when a turn makes it ready is what the turn has to tell. -/
theorem Change.tells {ts : List Turn} (hs : s.Accounted ts) (h : s.Change a r r')
    (ho : Turn.OnRunning ⟨s, a⟩) (hr : r ∈ s.records) (hb : r.status ≠ .ready)
    (ha : r'.status = .ready) :
    Turn.Tells ⟨s, a⟩ ts r.id r'.delivered r'.waitExpired := by
  obtain ⟨hd, he⟩ := hs.tidy r hr hb
  have hz := hs.unique.suspensionOf hr
  cases h with
  | same _ => exact absurd ha hb
  | @deliver x r hw =>
    obtain ⟨z, hst, hx⟩ := Record.wants_iff.1 hw
    obtain ⟨c, hc, hsound⟩ := hs.asked r hr z hst
    rw [Record.answer_waiting hst] at ha ⊢
    by_cases hres : (z.answered x).resolvedByAnswer = true
    · rw [if_pos hres]
      refine ⟨rfl, c, ?_, ?_⟩
      · rw [lastCall_snoc, call?_none ho hr hst, hc,
          Option.none_or]
      · show c.AnsweredBy (r.delivered ++ (z.answered x).answers)
        rw [hd]
        exact hsound.answeredBy hx hres
    · rw [if_neg hres] at ha
      cases ha
  | @suspend c payload r hid =>
    rcases s.suspended_outcome c payload r with ⟨z, hw, -⟩ | ⟨z, x, hsound, hx, hres, hw⟩
    · rw [hw] at ha
      cases ha
    · rw [hw]
      refine ⟨rfl, c, ?_, ?_⟩
      · rw [lastCall_snoc, call?_suspend payload hid, Option.some_or]
      · show c.AnsweredBy (r.delivered ++ (z.answered x).answers)
        rw [hd]
        exact hsound.answeredBy hx hres
  | @promote now most r hdue =>
    unfold Turn.Tells
    rw [hz]
    cases hst : r.status with
    | waiting z =>
      obtain ⟨c, hc, hsound⟩ := hs.asked r hr z hst
      have hdz : z.dueAt now = true := by simpa only [Record.dueAt, hst] using hdue
      simp only [Record.suspension?, Record.promote, hst]
      refine ⟨rfl, c, hc, ?_⟩
      show c.CutShort z now (r.delivered ++ z.answers)
      rw [hd]
      exact hsound.cutShort hdz
    | _ =>
      simp only [Record.suspension?, Record.promote, hst]
      exact ⟨he, hd⟩
  | restart _ _ => exact ⟨he, hd⟩
  | restartAll _ => exact ⟨he, hd⟩
  | recover _ => exact ⟨he, hd⟩
  | _ => cases ha

theorem accounted_asked {ts : List Turn} (hs : s.Accounted ts) (ho : Turn.OnRunning ⟨s, a⟩) :
    ∀ r' ∈ (s.act a).2.records, ∀ z', r'.status = .waiting z' →
      ∃ c, lastCall (ts ++ [⟨s, a⟩]) r'.id = some c ∧ z'.Sound c := by
  intro r' hr' z' hz'
  rcases act_records hs.unique a hr' with ⟨r, hr, hc⟩ | ⟨w, id, -, -, -, rfl⟩
  · rw [lastCall_snoc, hc.id]
    rcases hc.sound hz' with ⟨z, hz, hk⟩ | ⟨c, payload, rfl, hid, hsound⟩
    · obtain ⟨c, hlast, hsound⟩ := hs.asked r hr z hz
      refine ⟨c, ?_, hk c hsound⟩
      rw [call?_none ho hr hz, hlast, Option.none_or]
    · exact ⟨c, by rw [call?_suspend payload hid, Option.some_or], hsound⟩
  · cases hz'

theorem accounted_told {ts : List Turn} (hs : s.Accounted ts) (ho : Turn.OnRunning ⟨s, a⟩) :
    ∀ r' ∈ (s.act a).2.records, r'.status = .ready →
      Told (ts ++ [⟨s, a⟩]) r'.id r'.delivered r'.waitExpired := by
  intro r' hr' hst'
  have hafter : Store.stageOf (s.act a).2 r'.id = some .ready := by
    rw [(act_unique s a hs.unique).stageOf hr', stage_ready.2 hst']
  rcases act_records hs.unique a hr' with ⟨r, hr, hc⟩ | ⟨w, id, -, -, -, rfl⟩
  · have hbefore := hs.unique.stageOf hr
    -- What was ready before keeps its explanation, and anything else becomes ready in this turn.
    by_cases hst : r.status = .ready
    · have he := hc.unchanged ho hr hst hst'
      subst he
      refine (hs.told r' hr hst).snoc fun hw => hw.1 ?_
      rw [hbefore, stage_ready.2 hst]
    · rw [hc.id] at hafter ⊢
      refine told_now ⟨fun h => hst (stage_ready.1 ?_), hafter⟩ (hc.tells hs ho hr hst hst')
      exact Option.some.inj (hbefore.symm.trans h)
  · cases hst'

theorem accounted_act {ts : List Turn} (hs : s.Accounted ts) (ho : Turn.OnRunning ⟨s, a⟩) :
    (s.act a).2.Accounted (ts ++ [⟨s, a⟩]) :=
  ⟨act_unique s a hs.unique, tidy_act hs.unique hs.tidy ho, accounted_asked hs ho,
    accounted_told hs ho⟩

theorem run_accounted (qs : List Store.Request) (h : ∀ t ∈ empty.trail qs, t.OnRunning) :
    (empty.serveAll qs).Accounted (empty.trail qs) := by
  have hJ : Inductive fun ts s => (∀ t ∈ ts, t.OnRunning) → s.Accounted ts := by
    refine ⟨fun _ => ⟨unique_empty, ?_, ?_, ?_⟩, fun ts s a hts ho => ?_⟩
    · intro r hr; cases hr
    · intro r hr; cases hr
    · intro r hr; cases hr
    · refine accounted_act (hts fun t ht => ho t (List.mem_append_left _ ht)) ?_
      exact ho _ (List.mem_append_right _ (List.mem_singleton_self _))
  exact hJ.run qs h

end Store

/-- **What a claim tells.** A claim comes after committed transactions and the operations so far of
its own. If only running instances were suspended, finished and failed, then each instance that is
handed out was made ready by some turn and by none later, and its responses and mark are what that
turn has to tell. -/
theorem claim_tells_truth (clock : Instant) (txs : List (List Store.Request))
    (qs : List Store.Request) (a : Access) (pool : String) (most : Nat) {ws : List Workflow}
    (ho : ∀ t ∈ Store.empty.trail (txs.flatten ++ qs), t.OnRunning)
    (hc : ((Work.perform a (.claim pool most)).on ((Database.create clock).underway txs qs)).1 =
      .ok (.claimed ws)) :
    ∀ w ∈ ws, ∃ id, w.id = some id ∧
      Told (Store.empty.trail (txs.flatten ++ qs)) id w.responses w.waitExpired := by
  obtain ⟨hs, hf⟩ := Database.underway_store (d := Database.create clock) rfl txs qs
  rw [Work.perform_quiet hf, hs] at hc
  cases hc
  intro w hw
  obtain ⟨r, hr, rfl⟩ := List.mem_map.1 hw
  refine ⟨r.id, rfl, (Store.run_accounted _ ho).told r ?_ (Store.claimList_ready hr)⟩
  exact (Store.mem_claimList hr).1

/-- The instance of this run is handed out with the response that it waited for. -/
theorem claim_tells_oneWait :
    Told (Store.empty.trail ((Store.oneWait.take 5).flatten ++ [])) ⟨1⟩
      [⟨"a", .ok .null, .epoch, none⟩] false := by
  let w : Workflow := { Workflow.create "t" .null with
    id := some ⟨1⟩, pool := some Workflow.defaultPool, stage := .running
    responses := [⟨"a", .ok .null, .epoch, none⟩] }
  have hw : ((Store.empty.serveAll ((Store.oneWait.take 5).flatten ++ [])).claim "engine"
      Workflow.defaultPool 1).1 = [w] := by decide +kernel
  have hc : ((Work.perform ⟨"engine", true⟩ (.claim Workflow.defaultPool 1)).on
      ((Database.create .epoch).underway (Store.oneWait.take 5) [])).1 = .ok (.claimed [w]) := by
    obtain ⟨hs, hf⟩ := Database.underway_store (d := Database.create .epoch) rfl
      (Store.oneWait.take 5) []
    rw [Work.perform_quiet hf, hs]
    exact congrArg (fun ws => Except.ok (Outcome.claimed ws)) hw
  obtain ⟨id, hid, h⟩ := claim_tells_truth .epoch (Store.oneWait.take 5) [] ⟨"engine", true⟩
    Workflow.defaultPool 1 (by decide +kernel) hc w List.mem_cons_self
  cases hid
  exact h

end Resumption
