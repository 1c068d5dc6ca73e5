import Mathlib.Data.List.Induction
import Resumption.Proofs.Cluster.Charge
import Resumption.Proofs.Engine.Life

/-!
# An engine among its callers

An engine is one of a cluster, and from then on it is started, stopped and asked by any number of
callers, who take their steps in any order, while its storage, its pools and the other engines take
theirs.

`Kept.happen` is the step: what holds of the engine is kept (`Cluster.Kept`), and the engine goes
through the moment as its life demands (`Cluster.Passage`). What its callers meet then is
`Cluster.Reception`. `Kept.run` is the induction, and `Kept.letIn` says of every ask that is past the
gate that it found the engine started there.

**Result.** `life_lawful`: at every moment the engine is as one is that stands where it does in its life
(`Engine.Lawful`), and whatever may happen next is such a passage and such a reception.
-/

namespace Resumption

namespace Engine

/-- Why an engine takes no work whose gate is open. -/
inductive Declines (e : Engine) : EngineError → Prop
  | ended (h : e.lifecycle = .shuttingDown ∨ e.lifecycle = .stopped) : Declines e .shuttingDown
  | failed (h : e.lifecycle = .failed) : Declines e (.illegalState .started .failed)

/-- An ask that needs admission finds the engine started, or is refused, and nothing else happens. -/
theorem advanceAsk_arriving {e : Engine} (hl : e.lifecycle ≠ .raw) {a : Ask}
    (ha : a.needsAdmission = true) (x : Site) :
    e.lifecycle = .started ∨ ∃ cause, e.Declines cause ∧
      e.advanceAsk x (.arriving a) = (.over (.refused cause), e, x) := by
  simp only [advanceAsk, ha, if_true, admission]
  cases h : e.lifecycle with
  | raw => exact absurd h hl
  | started => exact .inl rfl
  | shuttingDown => exact .inr ⟨_, .ended (.inl h), rfl⟩
  | stopped => exact .inr ⟨_, .ended (.inr h), rfl⟩
  | failed => exact .inr ⟨_, .failed h, rfl⟩

end Engine

def Task.IsInside : Task → Prop
  | .asking (.arriving _) => False
  | .asking _ => True
  | _ => False

namespace Cluster

def TaskProgress.reply? : TaskProgress → Option Reply
  | .going _ => none
  | .over a => some a

/-- The request to the engine at the place that is answered when this happens. -/
def answer? (c : Cluster) (place : Nat) (x : Happening) : Option (Request × Reply) :=
  (c.turn? place x).bind fun t => (advanceTask t.1 c.site t.2.task).1.reply?.map fun a => (t.2, a)

def answered (c : Cluster) (r : Request) (a : Reply) : Cluster :=
  { c with
    requests := c.requests.filter fun q => q.serial ≠ r.serial
    replies := (r.serial, a) :: c.replies }

/-- The ask of a run of the engine at the place that goes on when this happens. -/
def innerAsk? (c : Cluster) (place : Nat) : Happening → Option AskPhase
  | .goes (.dispatch p q serial) =>
    if p = place then
      ((c.engines[place]?).bind (·.pool? q)).bind fun pool =>
        if pool.aborting then none
        else (pool.dispatch? serial).bind fun d =>
          match d.phase with
          | .asking p _ => some p
          | _ => none
    else none
  | _ => none

/-- **How an engine goes through a moment**, which has given the orders `log` before. -/
structure Passage (c : Cluster) (place : Nat) (e₀ e : Engine) (log : List Order) (x : Happening)
    (e' : Engine) : Prop where
  /-- The engine moves along the steps that a life is made of. -/
  moves : e'.lifecycle = e.lifecycle ∨ e.lifecycle.canBecome e'.lifecycle = true
  /-- The gate stays open. -/
  stays : e.gate.isOpen = true → e'.gate.isOpen = true
  /-- The gate opens only when a start is over. -/
  opens : e.gate.isOpen = false → e'.gate.isOpen = true →
    ∃ r p a, c.answer? place x = some (r, a) ∧ r.task = .starting p
  /-- When a start is over that did not come too late, the gate has opened, and the engine is started or
  has failed and is shut down. -/
  start : ∀ r p a, c.answer? place x = some (r, a) → r.task = .starting p →
    p = .entering ∧ e.lifecycle ≠ .raw ∨
      e.gate.isOpen = false ∧ e'.gate.isOpen = true ∧
        (a = .control (.ok ()) ∧ e'.lifecycle = .started ∨
          (∃ reason, a = .control (.error (.startupFailed reason))) ∧ e'.lifecycle = .failed ∧
            e₀.Shut e' (log ++ c.orders place x) ∧ e'.storage.loopsOver = true)
  /-- When a stop is over that found the engine started, the engine is stopped and shut down, whatever
  the stop is answered. -/
  stop : ∀ r p a, c.answer? place x = some (r, a) → r.task = .stopping p →
    p = .entering ∧ e.lifecycle ≠ .started ∨
      e'.lifecycle = .stopped ∧ e₀.Shut e' (log ++ c.orders place x) ∧ e'.storage.loopsOver = true

/-- **What callers meet** who come to an engine. -/
structure Reception (c : Cluster) (place : Nat) (e : Engine) (x : Happening) : Prop where
  /-- Who is answered has the answer. -/
  replies : ∀ r a, c.answer? place x = some (r, a) →
    (c.happen x).replies = (r.serial, a) :: c.replies
  /-- A start of an engine that is not raw is refused, and nothing else happens. -/
  lateStart : ∀ r, c.turn? place x = some (e, r) → r.task = .starting .entering →
    e.lifecycle ≠ .raw →
      c.happen x = c.answered r (.control (.error (.illegalState .raw e.lifecycle)))
  /-- A stop of an engine that is not started is refused, and nothing else happens. -/
  vainStop : ∀ r, c.turn? place x = some (e, r) → r.task = .stopping .entering →
    e.lifecycle ≠ .started →
      c.happen x = c.answered r (.control (.error (.illegalState .started e.lifecycle)))
  /-- A submission waits exactly as long as the gate is closed. -/
  waiting : ∀ r ∈ c.requests, ∀ a, r.engine = place → r.task = .asking (.arriving a) →
    a.needsAdmission = true → (c.requestReady c.site.unlocked r = true ↔ e.gate.isOpen = true)
  /-- A submission passes the open gate, and finds the engine started or is refused, and then nothing
  else happens. -/
  submission : ∀ r a, c.turn? place x = some (e, r) → r.task = .asking (.arriving a) →
    a.needsAdmission = true → e.gate.isOpen = true ∧
      (e.lifecycle = .started ∨ ∃ cause, e.Declines cause ∧
        c.happen x = c.answered r (.engine (.refused cause)))
  /-- So does a submission of a run. -/
  innerSubmission : ∀ a, c.innerAsk? place x = some (.arriving a) → a.needsAdmission = true →
    e.gate.isOpen = true ∧ (e.lifecycle = .started ∨ ∃ cause, e.Declines cause ∧
      e.advanceAsk c.site (.arriving a) = (.over (.refused cause), e, c.site))

/-- The ask of the request was at the gate in all this, and found it open and the engine started if it
needs admission. -/
def LetIn (c : Cluster) (place : Nat) (xs : List Happening) (serial : Nat) : Prop :=
  ∃ past x later, xs = past ++ x :: later ∧
    ∃ e r a, (c.run past).turn? place x = some (e, r) ∧ r.serial = serial ∧
      r.task = .asking (.arriving a) ∧
        (a.needsAdmission = true → e.gate.isOpen = true ∧ e.lifecycle = .started)

variable {c c' : Cluster} {place : Nat} {e₀ e e' : Engine} {log : List Order} {x : Happening}
  {r : Request} {a : Reply}

/-! ## Answers -/

theorem answer?_some (h : c.answer? place x = some (r, a)) :
    ∃ e, c.turn? place x = some (e, r) ∧ (advanceTask e c.site r.task).1 = .over a := by
  obtain ⟨⟨e, q⟩, ht, h⟩ := Option.bind_eq_some_iff.1 h
  rcases ha : (advanceTask e c.site q.task).1 with t | b <;> rw [ha] at h <;> cases h
  exact ⟨e, ht, ha⟩

theorem answer?_of_turn (ht : c.turn? place x = some (e, r)) {q : Request} :
    c.answer? place x = some (q, a) ↔ q = r ∧ (advanceTask e c.site r.task).1 = .over a := by
  rw [answer?, ht, Option.bind_some]
  cases h : (advanceTask e c.site r.task).1 <;>
    simp [TaskProgress.reply?, eq_comm]

theorem goOn_over (h : (advanceTask e c.site r.task).1 = .over a) :
    (c.goOn e r).replies = (r.serial, a) :: c.replies := by
  unfold goOn
  split <;> rename_i heq <;> rw [heq] at h <;> cases h
  rfl

theorem goOn_answered (he : c.engines[r.engine]? = some e)
    (h : advanceTask e c.site r.task = (.over a, e, c.site)) : c.goOn e r = c.answered r a := by
  obtain ⟨hlt, he⟩ := List.getElem?_eq_some_iff.1 he
  rw [goOn, h]
  simp only [put, answered, ← he, List.set_getElem_self]

/-! ## The step -/

theorem Spared.kept (hs : c.Spared place e c') (hk : c.Kept place e₀ e log) :
    ∃ e', c'.Kept place e₀ e' log ∧ e.Steady e' := by
  obtain ⟨e', he', hst⟩ := hs.engine
  obtain ⟨t, hc, hstage⟩ := hk.stage
  refine ⟨e', ⟨hs.numbered, fun q hq hp => ?_, he', ⟨t, hs.inCharge.trans hc, hstage.steady hst⟩,
    hst.components.trans hk.components⟩, hst⟩
  rcases hs.tasks q hq hp with hq | ⟨d, hd, ho⟩
  · exact hk.tasks q hq hp
  · rw [hd]
    exact ho

/-- An engine stays where it is in its life, and it is no turn of a start or a stop, but of one that is
refused. -/
theorem Passage.steady (h : e.Steady e')
    (start : ∀ t p, c.turn? place x = some t → t.2.task = .starting p →
      p = .entering ∧ e.lifecycle ≠ .raw)
    (stop : ∀ t p, c.turn? place x = some t → t.2.task = .stopping p →
      p = .entering ∧ e.lifecycle ≠ .started) : c.Passage place e₀ e log x e' where
  moves := .inl h.lifecycle
  stays hg := by rw [h.gate, hg]
  opens hg hg' := by
    rw [h.gate, hg] at hg'
    cases hg'
  start r p a ha hr := by
    obtain ⟨o, ht, -⟩ := answer?_some ha
    exact .inl (start _ p ht hr)
  stop r p a ha hr := by
    obtain ⟨o, ht, -⟩ := answer?_some ha
    exact .inl (stop _ p ht hr)

theorem Kept.lawful (hk : c.Kept place e₀ e log) : e₀.Lawful e log := by
  obtain ⟨t, -, hstage⟩ := hk.stage
  exact hstage.lawful hk.components

theorem controlled_over {φ : Type} {task : φ → Task} {p : Engine.ControlProgress φ}
    (h : controlled task p = .over a) : ∃ res, p = .over res ∧ a = .control res := by
  cases p <;> cases h
  exact ⟨_, rfl, rfl⟩

/-- **A start goes on or is over.** -/
theorem passage_start {p : Engine.StartPhase} (ht : c.turn? place x = some (e, r))
    (task : r.task = .starting p) (gate : e.gate.isOpen = false)
    (led : Engine.Led .starting Engine.StartEnds e log (e.startOrders c.site p)
      (e.advanceStart c.site p))
    (lawful : e₀.Lawful (e.advanceStart c.site p).2.1 (log ++ c.orders place x)) :
    c.Passage place e₀ e log x (e.advanceStart c.site p).2.1 := by
  have hstep := advanceTask_starting e c.site p
  rw [← task] at hstep
  have hstage := led.stage
  refine ⟨led.moves, (fun hg => by rw [gate] at hg; cases hg), fun _ hg => ?_,
    fun q p' a ha hq => .inr ?_, fun q p' a ha hq => ?_⟩
  -- a start that goes on keeps the gate closed
  · rcases hs : (e.advanceStart c.site p).1 with p' | res
    · rw [hs] at hstage
      exact absurd rfl ((hstage.gate.1 hg).2 p')
    · exact ⟨r, p, .control res, (answer?_of_turn ht).2 ⟨rfl, by rw [hstep, hs]; rfl⟩, task⟩
  · obtain ⟨rfl, ha⟩ := (answer?_of_turn ht).1 ha
    rw [hstep] at ha
    obtain ⟨res, hs, rfl⟩ := controlled_over ha
    rw [hs] at hstage
    have hbears := lawful.bears
    obtain ⟨rfl, hl⟩ | ⟨⟨reason, rfl⟩, hl, hloops⟩ := led.ends res hs
    · exact ⟨gate, hstage.gate.2 ⟨by rw [hl]; decide, fun _ h => nomatch h⟩, .inl ⟨rfl, hl⟩⟩
    · have hg := hstage.gate.2 ⟨by rw [hl]; decide, fun _ h => nomatch h⟩
      rw [hl] at hbears
      exact ⟨gate, hg, .inr ⟨⟨reason, rfl⟩, hl, hbears hg, hloops⟩⟩
  · obtain ⟨rfl, -⟩ := (answer?_of_turn ht).1 ha
    cases task.symm.trans hq

/-- **A stop goes on or is over.** -/
theorem passage_stop {p : Engine.StopPhase} (ht : c.turn? place x = some (e, r))
    (task : r.task = .stopping p) (past : e.lifecycle ≠ .raw) (gate : e.gate.isOpen = true)
    (led : Engine.Led .stopping Engine.StopEnds e log (e.stopOrders c.site p)
      (e.advanceStop c.site p))
    (lawful : e₀.Lawful (e.advanceStop c.site p).2.1 (log ++ c.orders place x)) :
    c.Passage place e₀ e log x (e.advanceStop c.site p).2.1 := by
  have hstep := advanceTask_stopping e c.site p
  rw [← task] at hstep
  have hstage := led.stage
  -- an engine that stops is past its start
  have hnot : ∀ p', (e.advanceStop c.site p).1.task? .stopping ≠ some (.starting p') := by
    cases (e.advanceStop c.site p).1 <;> exact fun _ h => nomatch h
  refine ⟨led.moves, fun _ => hstage.gate.2 ⟨fun hl => ?_, hnot⟩,
    (fun hg => by rw [gate] at hg; cases hg), fun q p' a ha hq => ?_, fun q p' a ha hq => .inr ?_⟩
  · rcases led.moves with h | h <;> rw [hl] at h
    · exact past h.symm
    · cases he : e.lifecycle <;> rw [he] at h <;> cases h
  · obtain ⟨rfl, -⟩ := (answer?_of_turn ht).1 ha
    cases task.symm.trans hq
  · obtain ⟨rfl, ha⟩ := (answer?_of_turn ht).1 ha
    rw [hstep] at ha
    obtain ⟨res, hs, rfl⟩ := controlled_over ha
    obtain ⟨hl, hloops⟩ := led.ends res hs
    have hbears := lawful.bears
    rw [hl] at hbears
    exact ⟨hl, hbears.2, hloops⟩

theorem Kept.passage (hk : c.Kept place e₀ e log) (ht : c.turn? place x = some (e, r))
    (hg : c.Going place e log r) :
    c.Passage place e₀ e log x (advanceTask e c.site r.task).2.1 := by
  obtain ⟨-, hr, hp, -⟩ := turn?_some ht
  have hlawful := (hk.goOn hr hp hg).lawful
  rw [show taskOrders e c.site r.task = c.orders place x by rw [orders, ht]; rfl] at hlawful
  cases hg with
  | plain hs hst =>
    refine .steady (advanceTask_plain (hk.tasks r hr hp) hs hst c.site).1 (fun t p h htask => ?_)
      fun t p h htask => ?_ <;> cases ht.symm.trans h
    · exact absurd htask (hs p)
    · exact absurd htask (hst p)
  | vainStart task hl =>
    have hstep : advanceTask e c.site r.task = _ := task ▸ advanceTask_vainStart hl c.site
    refine .steady (by rw [hstep]; exact .refl e) (fun t p h htask => ?_) fun t p h htask => ?_ <;>
      cases ht.symm.trans h <;> cases task.symm.trans htask
    exact ⟨rfl, hl⟩
  | vainStop task hl =>
    have hstep : advanceTask e c.site r.task = _ := task ▸ advanceTask_vainStop hl c.site
    refine .steady (by rw [hstep]; exact .refl e) (fun t p h htask => ?_) fun t p h htask => ?_ <;>
      cases ht.symm.trans h <;> cases task.symm.trans htask
    exact ⟨rfl, hl⟩
  | @start p task gate _ led =>
    rw [task, advanceTask_starting] at hlawful ⊢
    exact passage_start ht task gate led hlawful
  | @stop p task gate _ led =>
    rw [task, advanceTask_stopping] at hlawful ⊢
    obtain ⟨_, -, hstage⟩ := hk.stage
    exact passage_stop ht task (hstage.gate.1 gate).1 gate led hlawful

/-! ## Callers -/

theorem innerAsk?_some {p : AskPhase} (hx : c.Ordinary place x) (he : c.engines[place]? = some e)
    (h : c.innerAsk? place x = some p) : e.askReady c.site.unlocked p = true := by
  unfold innerAsk? at h
  split at h
  · rename_i o q serial
    split at h
    · subst o
      rw [he, Option.bind_some] at h
      obtain ⟨pool, hpool, h⟩ := Option.bind_eq_some_iff.1 h
      split at h
      · cases h
      · rename_i ha
        obtain ⟨d, hd, h⟩ := Option.bind_eq_some_iff.1 h
        split at h <;> cases h
        rename_i next hphase
        have hx : c.ready (.dispatch place q serial) = true := hx
        simpa [ready, readyWhen, he, hpool, hd, ha, hphase, Engine.dispatchReady] using hx
    · cases h
  · cases h

/-- **What callers meet.** -/
theorem Kept.reception (hk : c.Kept place e₀ e log) (hx : c.Ordinary place x) :
    c.Reception place e x := by
  obtain ⟨_, -, hstage⟩ := hk.stage
  refine ⟨fun r a ha => ?_, fun r ht task hl => ?_, fun r ht task hl => ?_,
    fun r hr a hp task ha => ?_, fun r a ht task ha => ?_, fun a hi ha => ?_⟩
  · obtain ⟨o, ht, ha⟩ := answer?_some ha
    obtain ⟨-, -, -, -, -, hstep⟩ := turn?_some ht
    rw [hstep, goOn_over ha]
  · obtain ⟨-, -, rfl, he, -, hstep⟩ := turn?_some ht
    rw [hstep]
    exact goOn_answered he (by rw [task, advanceTask_vainStart hl])
  · obtain ⟨-, -, rfl, he, -, hstep⟩ := turn?_some ht
    rw [hstep]
    exact goOn_answered he (by rw [task, advanceTask_vainStop hl])
  · simp [requestReady, hp, hk.engine, taskReady, task, Engine.askReady, ha]
  · obtain ⟨-, -, rfl, he, hready, hstep⟩ := turn?_some ht
    have hg : e.gate.isOpen = true := by
      simpa [task, taskReady, Engine.askReady, ha] using hready
    refine ⟨hg, (Engine.advanceAsk_arriving (hstage.gate.1 hg).1 ha c.site).imp_right ?_⟩
    rintro ⟨cause, hc, h⟩
    refine ⟨cause, hc, ?_⟩
    rw [hstep]
    exact goOn_answered he (by rw [task, advanceTask, h])
  · have hready := innerAsk?_some hx hk.engine hi
    have hg : e.gate.isOpen = true := by
      simpa [Engine.askReady, ha] using hready
    exact ⟨hg, Engine.advanceAsk_arriving (hstage.gate.1 hg).1 ha c.site⟩

/-! ## The run -/

/-- **One moment**: what holds of the engine is kept, and the engine goes through the moment. -/
theorem Kept.happen (hk : c.Kept place e₀ e log) (hb : e₀.Unborn) (hx : c.Ordinary place x) :
    ∃ e', (c.happen x).Kept place e₀ e' (log ++ c.orders place x) ∧
      c.Passage place e₀ e log x e' := by
  cases ht : c.turn? place x with
  | none =>
    obtain ⟨e', hk', hsteady⟩ := (hk.spared hx ht).kept hk
    rw [show c.orders place x = [] by rw [orders, ht]; rfl, List.append_nil]
    refine ⟨e', hk', .steady hsteady (fun t p h => ?_) fun t p h => ?_⟩ <;>
    · rw [ht] at h
      cases h
  | some t =>
    obtain ⟨o, r⟩ := t
    obtain ⟨rfl, hg⟩ := hk.going hb.started hb.stopped ht
    obtain ⟨-, hr, hp, -, -, hstep⟩ := turn?_some ht
    have hk' := hk.goOn hr hp hg
    rw [← hstep, show taskOrders o c.site r.task = c.orders place x by rw [orders, ht]; rfl] at hk'
    exact ⟨_, hk', hk.passage ht hg⟩

theorem Kept.run (hk : c.Kept place e₀ e log) (hb : e₀.Unborn) {xs : List Happening}
    (hx : c.OrdinaryRun place xs) :
    ∃ e', (c.run xs).Kept place e₀ e' (log ++ c.ordersIn place xs) := by
  induction xs generalizing c e log with
  | nil => exact ⟨e, by rw [ordersIn, List.append_nil]; exact hk⟩
  | cons x xs ih =>
    obtain ⟨e₁, hk₁, -⟩ := hk.happen hb hx.1
    rw [ordersIn, ← List.append_assoc]
    exact ih hk₁ hx.2

/-- At first nothing was ordered of an engine that was not asked yet. -/
theorem kept_unborn (hn : c.Numbered) (hr : ∀ r ∈ c.requests, r.engine ≠ place)
    (he : c.engines[place]? = some e) (hb : e.Unborn) : c.Kept place e e [] := by
  refine ⟨hn, fun r hm hp => absurd hp (hr r hm), he, ⟨none, ?_, .raw hb.pose hb.settled⟩, rfl⟩
  exact List.filterMap_eq_nil_iff.2 fun r hm => if_neg (hr r hm)

/-! ## Past the gate -/

/-- What is past the gate was an ask before, and found the engine started if it was at the gate. -/
theorem advanceTask_inside {t t' : Task} {x : Site} (h : (advanceTask e x t).1 = .going t')
    (hi : t'.IsInside) : t.IsInside ∨ ∃ a, t = .asking (.arriving a) := by
  cases t with
  | asking p => cases p <;> first | exact .inr ⟨_, rfl⟩ | exact .inl trivial
  | arriving d =>
    cases d with
    | call k =>
      rw [advanceTask, takeUp] at h
      split at h <;> cases h
      exact hi.elim
    | startProcessor q =>
      rw [advanceTask, takeUp] at h
      split at h <;> cases h
    | stopProcessor q =>
      rw [advanceTask, takeUp] at h
      split at h
      · cases h
      · dsimp only at h
        split at h <;> cases h
        exact hi.elim
    | _ =>
      cases h
      exact hi.elim
  | _ =>
    rw [advanceTask] at h
    split at h <;> cases h
    exact hi.elim

/-- **One moment**: an ask that is past the gate was so before, or is let in. -/
theorem Kept.letIn_step (hk : c.Kept place e₀ e log) (hb : e₀.Unborn) (hx : c.Ordinary place x)
    (hr : r ∈ (c.happen x).requests) (hp : r.engine = place) (hi : r.task.IsInside) :
    (∃ q ∈ c.requests, q.engine = place ∧ q.task.IsInside ∧ q.serial = r.serial) ∨
      ∃ e q a, c.turn? place x = some (e, q) ∧ q.serial = r.serial ∧
        q.task = .asking (.arriving a) ∧
          (a.needsAdmission = true → e.gate.isOpen = true ∧ e.lifecycle = .started) := by
  cases ht : c.turn? place x with
  | none =>
    rcases (hk.spared hx ht).tasks r hr hp with hr | ⟨d, hd, -⟩
    · exact .inl ⟨r, hr, hp, hi, rfl⟩
    · rw [hd] at hi
      exact hi.elim
  | some t =>
    obtain ⟨o, q⟩ := t
    obtain ⟨rfl, -⟩ := hk.going hb.started hb.stopped ht
    obtain ⟨-, hq, hqp, -, -, hstep⟩ := turn?_some ht
    rw [hstep] at hr
    rcases goOn_requests hk.numbered hq o r hr with hr | ⟨t, hgoing, rfl⟩
    · exact .inl ⟨r, hr, hp, hi, rfl⟩
    · rcases advanceTask_inside hgoing hi with hi | ⟨a, htask⟩
      · exact .inl ⟨q, hq, hqp, hi, rfl⟩
      · refine .inr ⟨o, q, a, rfl, rfl, htask, fun ha => ?_⟩
        obtain ⟨hg, h⟩ := (hk.reception hx).submission q a ht htask ha
        refine ⟨hg, h.resolve_right ?_⟩
        -- a submission that is refused is over
        rintro ⟨cause, -, h⟩
        rw [← hstep, h] at hr
        simpa using (List.mem_filter.1 hr).2

theorem ordinaryRun_append {past later : List Happening} :
    c.OrdinaryRun place (past ++ later) ↔
      c.OrdinaryRun place past ∧ (c.run past).OrdinaryRun place later := by
  induction past generalizing c with
  | nil => exact ⟨fun h => ⟨trivial, h⟩, And.right⟩
  | cons x past ih => exact (and_congr_right fun _ => ih).trans and_assoc.symm

theorem LetIn.append {xs : List Happening} {serial : Nat} (h : c.LetIn place xs serial)
    (ys : List Happening) : c.LetIn place (xs ++ ys) serial := by
  obtain ⟨past, x, later, rfl, h⟩ := h
  exact ⟨past, x, later ++ ys, by rw [List.append_assoc, List.cons_append], h⟩

/-- **Every ask that is past the gate was let in.** -/
theorem Kept.letIn (hk : c.Kept place e₀ e log) (hb : e₀.Unborn)
    (hr : ∀ r ∈ c.requests, r.engine ≠ place) {xs : List Happening} (hx : c.OrdinaryRun place xs) :
    ∀ r ∈ (c.run xs).requests, r.engine = place → r.task.IsInside → c.LetIn place xs r.serial := by
  induction xs using List.reverseRecOn with
  | nil => exact fun r hm hp => absurd hp (hr r hm)
  | append_singleton xs x ih =>
    obtain ⟨hxs, hx, -⟩ := ordinaryRun_append.1 hx
    obtain ⟨e', hk'⟩ := hk.run hb hxs
    intro r hm hp hi
    rw [run_append] at hm
    rcases hk'.letIn_step hb hx hm hp hi with ⟨q, hq, hqp, hqi, hs⟩ | h
    · rw [← hs]
      exact (ih hxs q hq hqp hqi).append [x]
    · exact ⟨xs, x, [], rfl, h⟩

/-! ## The result -/

/-- **The life of an engine.** An engine that was just made is one of a cluster, where no request to it
is under way, and then anything happens but that a request to start or stop it is given up, its storage
or its processors are started or stopped by somebody else, or its process dies. At every moment the
engine is as one is that stands where it does in its life, every ask that is past its gate was let in,
and the engine goes through whatever happens next, and receives its callers, as it should. -/
theorem life_lawful (hn : c.Numbered) (hr : ∀ r ∈ c.requests, r.engine ≠ place)
    (he : c.engines[place]? = some e₀) (hb : e₀.Unborn) {xs : List Happening}
    (hx : c.OrdinaryRun place xs) :
    ∃ e, (c.run xs).engines[place]? = some e ∧ e₀.Lawful e (c.ordersIn place xs) ∧
      (∀ r ∈ (c.run xs).requests, r.engine = place → r.task.IsInside →
        c.LetIn place xs r.serial) ∧
      ∀ x, (c.run xs).Ordinary place x → ∃ e',
        ((c.run xs).happen x).engines[place]? = some e' ∧
          e₀.Lawful e' (c.ordersIn place xs ++ (c.run xs).orders place x) ∧
          (c.run xs).Passage place e₀ e (c.ordersIn place xs) x e' ∧
            (c.run xs).Reception place e x := by
  have hk := kept_unborn hn hr he hb
  obtain ⟨e, hk'⟩ := hk.run hb hx
  rw [List.nil_append] at hk'
  refine ⟨e, hk'.engine, hk'.lawful, hk.letIn hb hr hx, fun x hx' => ?_⟩
  obtain ⟨e', hk'', hpass⟩ := hk'.happen hb hx'
  exact ⟨e', hk''.engine, hk''.lawful, hpass, hk'.reception hx'⟩

end Cluster

/-! ## A start that fails -/

/-- An engine with two processors, of which the second does not start. -/
def Engine.lame : Engine :=
  .create "a" (Registry.empty.register "t" fun _ w => .finished w) (fun w => w)
    (.create "a" .standard none false)
    [.probe (.create Workflow.defaultPool false false), .probe (.create "b" true false)]

namespace Cluster

/-- A cluster with this engine. -/
def lame : Cluster := (create (.create .epoch)).addEngine .lame

/-- The engine is asked to start, and somebody submits work. The start brings all components up, fails
at the second processor and brings all down. -/
def lameMorning : List Happening :=
  [.asks 0 .start none, .asks 0 (.ask (.submit [])) none] ++
    ([.request 1, .request 0, .request 0, .request 0, .request 0, .request 0, .request 0, .updater 0,
      .updater 0, .reaper 0, .request 0] : List Actor).map .goes

theorem lameMorning_ordinary : lame.OrdinaryRun 0 lameMorning :=
  ordinaryRun_append.2 ⟨⟨fun _ => rfl, fun _ => trivial, trivial⟩, by decide +kernel⟩

/-- When the start is over all is shut down, and the submission that has waited for that is refused. -/
theorem life_lawful_lameMorning :
    ∃ e, (lame.run lameMorning).engines[0]? = some e ∧ e.lifecycle = .failed ∧
      Engine.lame.Shut e (Order.up ++ Order.down) ∧ ∃ r,
        (lame.run lameMorning).happen (.goes (.request 1)) = (lame.run lameMorning).answered r
          (.engine (.refused (.illegalState .started .failed))) := by
  obtain ⟨e, he, hl, -, hnext⟩ := @life_lawful lame 0 .lame
    ⟨fun _ h => (nomatch h), List.nodup_nil⟩ (fun _ h => nomatch h) rfl
    (Engine.create_unborn rfl rfl (by decide)) _ lameMorning_ordinary
  have hpose : ((lame.run lameMorning).engines[0]?).map (fun e => (e.lifecycle, e.gate.isOpen)) =
      some (.failed, true) := by decide +kernel
  have horders : lame.ordersIn 0 lameMorning = Order.up ++ Order.down := by decide +kernel
  rw [he, Option.map_some, Option.some.injEq, Prod.mk.injEq] at hpose
  obtain ⟨hf, hg⟩ := hpose
  have hbears := hl.bears
  rw [hf, horders] at hbears
  refine ⟨e, he, hf, hbears hg, ?_⟩
  obtain ⟨-, -, -, -, hmeets⟩ := hnext (.goes (.request 1))
    (by decide +kernel : (lame.run lameMorning).ready (.request 1) = true)
  have hr : (lame.run lameMorning).request? 1 =
      some ⟨1, 0, .asking (.arriving (.submit [])), none⟩ := rfl
  have ht := turn?_request hr he rfl hg
  obtain ⟨-, hstarted | ⟨cause, hc, h⟩⟩ := hmeets.submission _ _ ht rfl rfl
  · rw [hf] at hstarted
    cases hstarted
  · cases hc with
    | ended h' =>
      rw [hf] at h'
      rcases h' with h' | h' <;> cases h'
    | failed => exact ⟨_, h⟩

end Cluster

end Resumption
