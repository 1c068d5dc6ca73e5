import Resumption.Proofs.Engine.Settling
import Resumption.Proofs.Storage.Completion
import Resumption.Proofs.Store.Satisfaction

/-!
# Every dispatch settles its instance

The end of a dispatch in terms of the stored instance (`Dispatching.Conclusion`): it is finished or
removed, it waits on the callback of its run or is ready at once, or it has failed with the cause;
and where every command that was tried was refused, nothing was done.

**Result.** `Dispatching.dispatch_settles`: whatever its run comes to and whichever calls of the
store fail, a dispatch ends in one of these ways, told apart by what the writer answered; and it
does come to its end (`Course.finishes`). Where nothing fails, the first command is granted.
-/

namespace Resumption

/-- The run asks for nothing. -/
def Run.Alone : Run → Prop
  | .pause _ next => next.Alone
  | .ask _ _ => False
  | .visit next => ∀ n, (next n).Alone
  | _ => True

/-- From this phase on, nothing is asked for. -/
def DispatchPhase.Alone (e : Engine) (found : Bool) (w : Workflow) : DispatchPhase → Prop
  | .fresh => found = true → ∀ runner surroundings, e.registry.runner? w.type = some runner →
      (runner surroundings (e.inject w)).Alone
  | .running r => r.Alone
  | .pausing _ next => next.Alone
  | .asking _ _ => False
  | .settling _ _ => True

namespace Dispatching

open Interference (Clear Drift Room)

variable {b : Bounds} {quiet : Prop} {id : Uuid} {origin : Engine} {start : Database}
  {u : Upshot} {s : Settlement} {call : Storage.Call}
  {earlier answers : List (Except StoreError Unit)} {k : Dispatching}

/-! ## Every dispatch comes to its end -/

/-- A move of the worker or of the dispatch, or one that leaves the storage alone. -/
def Move.Serves : Move → Prop
  | .around (.works _) => True
  | .around _ => False
  | _ => True

theorem Move.Serves.within {m : Move} (h : m.Serves) : m.Within b ∧ m.Quiet := by
  cases m with
  | around m =>
    cases m with
    | works time => exact ⟨trivial, trivial⟩
    | _ => exact h.elim
  | _ => exact ⟨trivial, trivial⟩

/-- The dispatch comes to its end when it and the worker have had enough turns. -/
def Finishes (k : Dispatching) : Prop :=
  ∃ ms, (∀ m ∈ ms, m.Serves) ∧ (k.after ms).progress = .over

theorem finishes_of_next {m : Move} (h : (k.next m).Finishes) (serves : m.Serves) : k.Finishes := by
  obtain ⟨ms, hs, ends⟩ := h
  exact ⟨m :: ms, List.forall_mem_cons.2 ⟨serves, hs⟩, ends⟩

theorem mirror_serves {m : Recording.Move} (h : m.Serves) : (mirror m).Serves := by
  cases m with
  | goesOn => trivial
  | around m =>
    cases m with
    | works time => trivial
    | _ => exact h.elim

/-- The dispatch is over, or it has handed a plain call to the storage after another one. -/
def Closer (s : Settlement) (k : Dispatching) : Prop :=
  k.progress = .over ∨ s ≠ .plain ∧ ∃ p, k.progress = .going (.settling p .plain)

/-- When its call is over, the dispatch is, or it has handed a plain call to the storage. -/
theorem resume_over (k : Dispatching) (s : Settlement) (earlier : List (Except StoreError Unit))
    {R : Recording} {reply : Storage.Reply} (hr : R.progress = .over reply) :
    Closer s (k.resume s earlier R) := by
  simp only [Closer, resume, hr, Engine.proceed]
  unfold Engine.settled
  split
  · rename_i w cause
    rw [Engine.settle_eq]
    simp only [Site.tell]
    rcases R.storage.begin (R.database.tell (.fault "failed to persist register call"))
      (.fail w cause.message) with ⟨p | r, s', d'⟩
    · exact .inr ⟨fun h => (by cases h), p, rfl⟩
    · exact .inl rfl
  · exact .inl rfl

theorem closes_of_recording {s₀ : Storage} {d₀ : Database} (ms : List Recording.Move) :
    ∀ {k : Dispatching} {p : Storage.Phase} {answers : List (Except StoreError Unit)},
      k.progress = .going (.settling p s) → k.answers = earlier ++ answers →
      Recording.Course b s₀ d₀ call ⟨k.engine.storage, k.site.db, .going p, answers⟩ →
      (∀ m ∈ ms, m.Serves) →
      (∃ reply, (Recording.after ⟨k.engine.storage, k.site.db, .going p, answers⟩ ms).progress =
        .over reply) →
      ∃ ms', (∀ m ∈ ms', m.Serves) ∧ Closer s (k.after ms') := by
  induction ms with
  | nil =>
    rintro k p answers - - - - ⟨reply, stopped⟩
    cases stopped
  | cons m ms ih =>
    intro k p answers progress heard recording serves stopped
    obtain ⟨first, later⟩ := List.forall_mem_cons.1 serves
    have course := recording.next first.within
    cases recording with
    | ended going => cases going
    | crashed going => cases going
    | @attempts q c passage notes going attempt underway told akin =>
      cases going
      -- after one move, what is left of the call
      have moves := next_mirror progress heard m
      rw [Recording.after, List.foldl_cons] at stopped
      generalize Recording.next _ m = R at moves course stopped
      obtain ⟨storage, database, further, answers'⟩ := R
      rcases further with p' | reply
      · have heard' : (k.resume s earlier ⟨storage, database, .going p', answers'⟩).answers =
            earlier ++ answers' := by cases s <;> exact List.append_nil _
        obtain ⟨ms', serving, closer⟩ := ih rfl heard' course later stopped
        refine ⟨mirror m :: ms', List.forall_mem_cons.2 ⟨mirror_serves first, serving⟩, ?_⟩
        rw [after, List.foldl_cons, moves]
        exact closer
      · refine ⟨[mirror m], List.forall_mem_singleton.2 (mirror_serves first), ?_⟩
        rw [after, List.foldl_cons, moves]
        exact resume_over k s earlier rfl

theorem Course.serves (h : Course b quiet id origin start k)
    (fair : Fair b quiet id origin start k.claimed) {ms : List Move} (serves : ∀ m ∈ ms, m.Serves) :
    Course b quiet id origin start (k.after ms) :=
  h.after fair (fun m hm => (serves m hm).within.1)
    fun _ m hm => (Move.Serves.within (b := b) (serves m hm)).2

/-- With a call at the storage, the dispatch comes to its end. -/
theorem Course.finishes_settling (h : Course b quiet id origin start k)
    (fair : Fair b quiet id origin start k.claimed) {p : Storage.Phase}
    (progress : k.progress = .going (.settling p s)) : k.Finishes := by
  have closes : ∀ {k : Dispatching} {p s}, Course b quiet id origin start k →
      k.progress = .going (.settling p s) →
      ∃ ms, (∀ m ∈ ms, m.Serves) ∧ Closer s (k.after ms) := by
    intro k p s h progress
    cases h with
    | stands progress' stage => cases progress.symm.trans progress'; cases stage
    | ended progress' => cases progress.symm.trans progress'
    | crashed es progress' => cases progress.symm.trans progress'
    | settles progress' yields task led recording heard =>
      cases progress.symm.trans progress'
      obtain ⟨ms, serves, stopped⟩ := recording.finishes
      exact closes_of_recording ms progress' heard recording serves stopped
  obtain ⟨ms, serves, ends | ⟨-, p', going⟩⟩ := closes h progress
  · exact ⟨ms, serves, ends⟩
  -- a second call is plain
  have h' := h.serves fair serves
  obtain ⟨ms', serves', ends | ⟨other, -⟩⟩ := closes h' going
  · refine ⟨ms ++ ms', fun m hm => (List.mem_append.1 hm).elim (serves m) (serves' m), ?_⟩
    rw [after_append]
    exact ends
  · exact absurd rfl other

/-- What the dispatch hands to the storage comes to its end. -/
theorem Course.finishes_task (h : Course b quiet id origin start k)
    (fair : Fair b quiet id origin start k.claimed) {phase : DispatchPhase}
    (progress : k.progress = .going phase)
    (ready : k.engine.dispatchReady k.site k.site.unlocked phase = true) {c : Storage.Call}
    (ht : k.engine.task? k.found k.claimed phase = some (c, s)) : k.Finishes := by
  refine finishes_of_next ?_ (m := .goesOn) trivial
  have h' := h.next fair (m := .goesOn) trivial fun _ => trivial
  have fair' : Fair b quiet id origin start (k.next .goesOn).claimed :=
    (k.next_same .goesOn).2 ▸ fair
  cases h with
  | settles progress' => cases progress.symm.trans progress'; cases ht
  | ended progress' => cases progress.symm.trans progress'
  | crashed es progress' => cases progress.symm.trans progress'
  | stands progress' stage led silent =>
    obtain ⟨x, -, hk⟩ := next_task progress silent ready ht
    rcases hb : (Recording.begin k.engine.storage x.db c).progress with p | reply
    · exact h'.finishes_settling fair' (p := p) (s := s) (by rw [hk, resume, hb]; rfl)
    · rcases resume_over { k with site := x } s [] hb with ends | ⟨-, p, going⟩
      · exact ⟨[], List.forall_mem_nil _, hk ▸ ends⟩
      · exact h'.finishes_settling fair' (hk ▸ going)

theorem Course.finishes_pausing (h : Course b quiet id origin start k)
    (fair : Fair b quiet id origin start k.claimed) {due : Nat} {next : Run}
    (progress : k.progress = .going (.pausing due next))
    (goes : ∀ {k : Dispatching}, Course b quiet id origin start k →
      Fair b quiet id origin start k.claimed → k.progress = .going (.running next) → k.Finishes) :
    k.Finishes := by
  -- time passes
  refine finishes_of_next ?_ (m := .meanwhile k.engine { k.site with time := due }) trivial
  generalize hk : k.next (.meanwhile k.engine { k.site with time := due }) = k'
  have h' : Course b quiet id origin start k' := hk ▸ h.next fair trivial fun _ => trivial
  have fair' : Fair b quiet id origin start k'.claimed := hk ▸ fair
  have progress' : k'.progress = .going (.pausing due next) := hk ▸ progress
  have ready : k'.engine.dispatchReady k'.site k'.site.unlocked (.pausing due next) = true := by
    subst hk
    exact decide_eq_true (Nat.le_refl due)
  refine finishes_of_next (goes (h'.next fair' (m := .goesOn) trivial fun _ => trivial)
    ((k'.next_same .goesOn).2 ▸ fair') ?_) (m := .goesOn) trivial
  simp only [Dispatching.next, progress', ready, if_true]
  rfl

/-- A run that asks for nothing comes to its end, and the dispatch with it. -/
theorem Course.finishes_running {r : Run} : ∀ {k : Dispatching}, Course b quiet id origin start k →
    Fair b quiet id origin start k.claimed → k.progress = .going (.running r) → r.Alone →
    k.Finishes := by
  -- a result is handed to the storage at once
  have result : ∀ {r : Run} {k : Dispatching} {c s}, Course b quiet id origin start k →
      Fair b quiet id origin start k.claimed → k.progress = .going (.running r) →
      r.task? = some (c, s) → k.Finishes := fun h fair progress ht =>
    h.finishes_task fair progress rfl ht
  induction r with
  | finished w => exact fun h fair progress _ => result h fair progress rfl
  | suspended w => exact fun h fair progress _ => result h fair progress rfl
  | failed w causes => exact fun h fair progress _ => result h fair progress rfl
  | panicked w m => exact fun h fair progress _ => result h fair progress rfl
  | ask a next => exact fun _ _ _ alone => alone.elim
  | visit next ih =>
    intro k h fair progress alone
    have goes : (k.next .goesOn).progress =
        .going (.running (next (k.site.visit (k.claimed.id.getD default)).1)) := by
      simp only [Dispatching.next, progress]
      rfl
    have h' := h.next fair (m := .goesOn) trivial fun _ => trivial
    exact finishes_of_next (ih _ h' ((k.next_same .goesOn).2 ▸ fair) goes (alone _)) trivial
  | pause d next ih =>
    intro k h fair progress alone
    have goes : (k.next .goesOn).progress = .going (.pausing (k.site.time + d.nanos) next) := by
      simp only [Dispatching.next, progress]
      rfl
    have h' := h.next fair (m := .goesOn) trivial fun _ => trivial
    exact finishes_of_next (h'.finishes_pausing ((k.next_same .goesOn).2 ▸ fair) goes
      fun h fair progress => ih h fair progress alone) trivial

/-- A dispatch that has not begun its run comes to its end. -/
theorem Course.finishes_fresh (h : Course b quiet id origin start k)
    (fair : Fair b quiet id origin start k.claimed) (progress : k.progress = .going .fresh)
    (same : k.engine.registry = origin.registry ∧ k.engine.inject = origin.inject)
    (alone : DispatchPhase.Alone origin k.found k.claimed .fresh) : k.Finishes := by
  obtain ⟨registry, inject⟩ := same
  cases ht : k.engine.task? k.found k.claimed .fresh with
  | some task => exact h.finishes_task fair progress rfl ht
  | none =>
    obtain ⟨runner, found, hr⟩ : ∃ runner, k.found = true ∧
        k.engine.registry.runner? k.claimed.type = some runner := by
      simp only [Engine.task?] at ht
      split at ht
      · cases ht
      · rename_i hf
        split at ht
        · cases ht
        · rename_i runner hr
          exact ⟨runner, by simpa using hf, hr⟩
    have goes : (k.next .goesOn).progress = .going (.running
        (runner ⟨k.site.db.clock, k.engine.id, k.engine.lifecycle⟩
          (k.engine.inject k.claimed))) := by
      have ready : k.engine.dispatchReady k.site k.site.unlocked .fresh = true := rfl
      simp only [Dispatching.next, progress, ready, if_true, Engine.advanceDispatch,
        Engine.beginRun, found, Bool.not_true, Bool.false_eq_true, if_false, hr]
    have h' := h.next fair (m := .goesOn) trivial fun _ => trivial
    refine finishes_of_next (h'.finishes_running ((k.next_same .goesOn).2 ▸ fair) goes ?_) trivial
    rw [inject]
    exact alone found runner _ (registry ▸ hr)

/-- **Every dispatch comes to its end** once nothing more is asked for. -/
theorem Course.finishes (h : Course b quiet id origin start k)
    (fair : Fair b quiet id origin start k.claimed)
    (alone : ∀ p, k.progress = .going p → p.Alone origin k.found k.claimed) : k.Finishes := by
  cases h with
  | ended progress => exact ⟨[], List.forall_mem_nil _, progress⟩
  | crashed es progress => exact ⟨[], List.forall_mem_nil _, progress⟩
  | settles progress yields task led recording heard faultless =>
    exact finishes_settling (.settles progress yields task led recording heard faultless) fair progress
  | @stands phase progress stage led silent clear =>
    have course := Course.stands progress stage led silent clear
    have alone := alone phase progress
    cases stage with
    | fresh _ registry inject => exact course.finishes_fresh fair progress ⟨registry, inject⟩ alone
    | running => exact course.finishes_running fair progress alone
    | pausing =>
      exact course.finishes_pausing fair progress fun h fair progress =>
        h.finishes_running fair progress alone
    | asking => exact alone.elim

/-! ## The instance afterwards -/

/-- How a dispatch ends, by what there was to record and what the writer answered to it. -/
inductive Conclusion (removal : Bool → Prop) (others : Store → Store → Prop) (id : Uuid)
    (s s' : Store) : Upshot → List (Except StoreError Unit) → Prop where
  /-- The instance is finished or removed. -/
  | finished {remove : Bool} (hr : removal remove)
      (hs : s.Became others id
        (fun r => if remove then none else some { r with status := .finished }) s') :
      Conclusion removal others id s s' .finished [.ok ()]
  /-- The instance could not be finished, and has failed for that reason. -/
  | finishFailed {e : StoreError}
      (hs : s.Became others id (fun r => some { r with
        status := .failed, lastError := some ("finish failed: " ++ e.message) }) s') :
      Conclusion removal others id s s' .finished [.error e, .ok ()]
  /-- The instance has got its payload, and it waits on the callback or is ready at once. -/
  | suspended {c : Callback} {payload : Json} {s₁ s₂ : Store} {now : Record → Record}
      (before : others s s₁) (hs : s₁.Rewrites id (fun r => some (now r)) s₂)
      (hn : ∀ r : Record, r.SuspendedOn c payload s₁.unclaimed (now r)) (behind : others s₂ s') :
      Conclusion removal others id s s' (.suspended c payload) [.ok ()]
  /-- The callback could not be written, and the instance has failed for that reason. -/
  | suspensionFailed {c : Callback} {payload : Json} {e : StoreError}
      (hs : s.Became others id (fun r => some { r with
        status := .failed, lastError := some e.message }) s') :
      Conclusion removal others id s s' (.suspended c payload) [.error e, .ok ()]
  /-- The instance has failed with the cause. -/
  | failed {cause : String} (hs : s.Became others id (fun r => some { r with
        status := .failed, lastError := some cause }) s') :
      Conclusion removal others id s s' (.failed cause) [.ok ()]
  /-- Every command that was tried was refused, and nothing was done. -/
  | lost {u : Upshot} (es : List StoreError) (all : es.length = u.attempts) (hs : others s s') :
      Conclusion removal others id s s' u (es.map .error)

variable {id : Uuid} {t t' : Store} {u : Upshot} {answers : List (Except StoreError Unit)}

/-- The end of a dispatch, in terms of the stored instance. -/
theorem Conclusion.of_ends {b : Bounds} {acts : List Action}
    (h : Ends b.removal id u answers acts) (hs : t.Amid b.foreign acts t') :
    Conclusion b.removal (fun s s' => s.Amid b.foreign [] s') id t t' u answers := by
  cases h with
  | @finished remove hr =>
    obtain ⟨s₁, s₂, h₁, he, h₂⟩ := Store.Amid.moment_command (.finish id) remove hs
    exact .finished hr ⟨s₁, s₂, h₁, Store.rewrites_finish he, h₂⟩
  | finishFailed e =>
    obtain ⟨s₁, s₂, h₁, he, h₂⟩ :=
      Store.Amid.moment_command (.fail id ("finish failed: " ++ e.message)) true hs
    exact .finishFailed ⟨s₁, s₂, h₁, Store.rewrites_fail he, h₂⟩
  | @suspended c hc payload =>
    obtain ⟨s₁, s₂, h₁, he, h₂⟩ := Store.Amid.moment_command (.suspend c payload) true hs
    exact .suspended h₁ (hc ▸ Store.rewrites_suspend he) (s₁.suspended_settles c payload) h₂
  | suspensionFailed c payload e =>
    obtain ⟨s₁, s₂, h₁, he, h₂⟩ := Store.Amid.moment_command (.fail id e.message) true hs
    exact .suspensionFailed ⟨s₁, s₂, h₁, Store.rewrites_fail he, h₂⟩
  | failed cause =>
    obtain ⟨s₁, s₂, h₁, he, h₂⟩ := Store.Amid.moment_command (.fail id cause) true hs
    exact .failed ⟨s₁, s₂, h₁, Store.rewrites_fail he, h₂⟩
  | lost es all => exact .lost es all hs

variable {removal : Bool → Prop} {others others' : Store → Store → Prop}

theorem Conclusion.mono (ho : ∀ s s', others s s' → others' s s')
    (h : Conclusion removal others id t t' u answers) :
    Conclusion removal others' id t t' u answers := by
  cases h with
  | finished hr hs => exact .finished hr (hs.mono ho)
  | finishFailed hs => exact .finishFailed (hs.mono ho)
  | suspended before hs hn behind => exact .suspended (ho _ _ before) hs hn (ho _ _ behind)
  | suspensionFailed hs => exact .suspensionFailed (hs.mono ho)
  | failed hs => exact .failed (hs.mono ho)
  | lost es all hs => exact .lost es all (ho _ _ hs)

/-- Every command that was tried for what there was to record was refused. -/
def Lost (u : Upshot) (answers : List (Except StoreError Unit)) : Prop :=
  ∃ es : List StoreError, answers = es.map .error ∧ es.length = u.attempts

theorem suspendedOn_idle {c : Callback} {payload : Json} {us : List Unclaimed} {r r' : Record}
    (h : r.SuspendedOn c payload us r') : r'.stage ≠ .running := by
  unfold Record.SuspendedOn at h
  split at h
  · obtain ⟨rs, -, rfl⟩ := h
    exact Stage.noConfusion
  · obtain ⟨z, -, rfl⟩ := h
    exact Stage.noConfusion

/-- Unless everything was refused, the instance was rewritten so that it does not run. -/
theorem Conclusion.written (h : Conclusion removal others id t t' u answers) :
    Lost u answers ∧ others t t' ∨
      ∃ now : Record → Option Record, (∀ r r', now r = some r' → r'.stage ≠ .running) ∧
        t.Became others id now t' := by
  cases h with
  | @finished remove hr hs =>
    refine .inr ⟨_, fun r r' hn => ?_, hs⟩
    cases remove <;> cases hn
    exact Stage.noConfusion
  | finishFailed hs => exact .inr ⟨_, fun r r' hn => by cases hn; exact Stage.noConfusion, hs⟩
  | suspended before hs hn behind =>
    refine .inr ⟨_, fun r r' he => ?_, _, _, before, hs, behind⟩
    cases he
    exact suspendedOn_idle (hn r)
  | suspensionFailed hs => exact .inr ⟨_, fun r r' hn => by cases hn; exact Stage.noConfusion, hs⟩
  | failed hs => exact .inr ⟨_, fun r r' hn => by cases hn; exact Stage.noConfusion, hs⟩
  | lost es all hs => exact .inl ⟨⟨es, rfl, all⟩, hs⟩

/-- Where others leave the store alone, only the instance changes, and it runs on only if everything
was refused. -/
theorem Conclusion.alone (h : Conclusion removal (fun s s' => s' = s) id t t' u answers) :
    (∀ j, j ≠ id → t'.find? j = t.find? j) ∧
      ((∃ r, t'.find? id = some r ∧ r.stage = .running) → Lost u answers) := by
  rcases h.written with ⟨lost, rfl⟩ | ⟨now, idle, s₁, s₂, rfl, ⟨⟨r, -, hr⟩, others⟩, rfl⟩
  · exact ⟨fun _ _ => rfl, fun _ => lost⟩
  · refine ⟨others, fun ⟨r', hr', running⟩ => ?_⟩
    exact absurd running (idle r r' (hr.symm.trans hr'))

/-! ## The result -/

/-- Nothing fails: when the dispatch begins, nothing is planned to fail and the writer takes
commands, others leave it at that, and nobody else removes the instance. -/
structure Undisturbed (b : Bounds) (id : Uuid) (e : Engine) (x : Site) (ms : List Move) : Prop where
  clear : Clear e.storage x.db
  quiet : ∀ m ∈ ms, m.Quiet
  kept : ¬ b.foreign (.finish true id)

/-- **Settled.** Let an instance be claimed, and dispatch it at any engine, whose storage others may
have used since its writer was new, whichever calls fail and whatever others do before and meanwhile
within the bounds. If the dispatch is over, it ended in one of the ways of `Conclusion` with what
there was to record; the answers by which the ways are told apart are those that the writer gave.
Where others leave the store alone, no other instance changed, and the instance runs on only if
every command that was tried was refused; where nothing fails, the first command was granted. A
dispatch crashes only without a batching writer and where a crash was planned, and then nothing was
done for it. And a dispatch comes to its end when it and the worker have had enough turns, once
nothing more is asked for. -/
theorem dispatch_settles (b : Bounds) {origin : Storage} {batch : Option BatchSettings}
    (fresh : origin.batcher = batch.map Batcher.create)
    (removal : b.removal origin.access.removeFinished) {d : Database} (free : d.held = none)
    (timely : d.Timely) (gentle : b.calm → d.Gentle) {earlier : List Interference}
    (before : ∀ m ∈ earlier, m.Within b) {e : Engine} {x : Site}
    (came : (e.storage, x.db) = Interference.all none earlier origin d) (loyal : e.Loyal)
    {s s' : Store} {engine pool : String} {most : Nat} {ws : List Workflow}
    (claim : s.claim engine pool most = (ws, s')) (since : s'.Amid b.foreign [] x.db.store)
    {w : Workflow} (hw : w ∈ ws) {id : Uuid} (hid : w.id = some id) (modest : Modest b e w)
    (found : Bool) {ms : List Move} (within : ∀ m ∈ ms, m.Within b) :
    let k := (begin e x found w).after ms
    (k.progress = .over → ∃ u, e.Yields found w u ∧
      (Conclusion b.removal (fun s s' => s.Amid b.foreign [] s') id x.db.store k.site.db.store u
          k.answers ∧
        ((∀ a, ¬ b.foreign a) →
          Conclusion b.removal (fun s s' => s' = s) id x.db.store k.site.db.store u k.answers ∧
          (∀ j, j ≠ id → k.site.db.store.find? j = x.db.store.find? j) ∧
          ((∃ r, k.site.db.store.find? id = some r ∧ r.stage = .running) → Lost u k.answers)) ∧
        (Undisturbed b id e x ms → k.answers = [.ok ()]) ∨
      (∃ es : List StoreError, k.answers = es.map .error ∧ es.length < u.attempts) ∧ ¬ b.calm ∧
        batch = none ∧ x.db.store.Amid b.foreign [] k.site.db.store ∧
        ¬ Undisturbed b id e x ms)) ∧
    ((∀ p, k.progress = .going p → p.Alone e found w) → k.Finishes) := by
  intro k
  have start : Room b none origin d := Recording.room_fresh fresh free timely gentle removal
  obtain ⟨room, akin⟩ := Interference.all_none before start
  rw [← came] at room akin
  have fair : Fair b (Undisturbed b id e x ms) id e x.db w :=
    ⟨hid, loyal, modest, fun q t ht => Store.find?_of_mem_ids
      ((since.append ht).mem_ids rfl q.kept (Store.mem_ids_of_claim claim hw hid))⟩
  have first : Course b (Undisturbed b id e x ms) id e x.db (begin e x found w) :=
    .stands rfl (.fresh rfl rfl rfl) room.led rfl fun q => q.clear
  have course : Course b (Undisturbed b id e x ms) id e x.db k :=
    first.after fair within fun q => q.quiet
  obtain ⟨same, claimed⟩ : k.found = found ∧ k.claimed = w := after_same ms (begin e x found w)
  refine ⟨fun ended => ?_, fun alone => course.finishes (claimed ▸ fair) (by rwa [same, claimed])⟩
  cases course with
  | stands progress => cases progress.symm.trans ended
  | settles progress => cases progress.symm.trans ended
  | ended _ yields ends _ chain granted =>
    rw [same, claimed] at yields
    have general := Conclusion.of_ends ends chain
    refine ⟨_, yields, .inl ⟨general, fun nobody => ?_, granted⟩⟩
    have alone : Conclusion b.removal (fun s s' => s' = s) id x.db.store k.site.db.store _
        k.answers := general.mono fun s s' h => by
      cases h.alone nobody
      rfl
    exact ⟨alone, alone.alone⟩
  | crashed es _ yields refused fewer loud direct _ chain never =>
    have batched : origin.batcher.isSome = false :=
      akin.batched.symm.trans (congrArg Option.isSome direct)
    have none : batch = none := by
      rwa [fresh, Option.isSome_map, Option.isSome_eq_false_iff, Option.isNone_iff_eq_none]
        at batched
    rw [same, claimed] at yields
    exact ⟨_, yields, .inr ⟨⟨es, refused, fewer⟩, loud, none, chain, never⟩⟩

end Dispatching

/-- This run waits for an answer to "c". -/
def Engine.expecting : Runner := fun _ w => .suspended { w with
  payload := .string "asked", callback := some ⟨w.id.getD default, .first, none, ["c"]⟩ }

def Engine.expectant : Engine :=
  .create "a" (Registry.empty.register "t" expecting) (fun w => w)
    (.create "a" .standard (some ⟨2, .zero, 10⟩) true) []

namespace Dispatching

/-- An instance that is ready. -/
def caller : Record := ⟨⟨1⟩, 1, "t", "p", 0, .null, .ready, none, [], false⟩

def answered : Store :=
  { Store.empty with records := [caller], unclaimed := [⟨⟨"c", .ok .null, .epoch, none⟩, .last⟩] }

theorem answered_claim : answered.claim "a" "p" 1 =
    ([caller.handedOut "a"], { answered with records := [caller.claim "a"] }) := by
  have line : answered.claimList "p" 1 = [caller] := by
    have ready : answered.records.filter (fun r => r.claimable "p") = [caller] := by
      decide +kernel
    rw [Store.claimList, ready, List.mergeSort_singleton]
    rfl
  rw [Store.claim, line]
  rfl

/-- The instance is claimed, and nothing is planned to fail. -/
def asked : Site := .create
  { store := { answered with records := [caller.claim "a"] }
    held := none, faults := [], clock := .epoch, journal := [] }

/-- The run comes to its end, and the worker executes what it hands over. -/
def toTheEnd : List Move :=
  [.goesOn, .goesOn] ++ List.replicate 4 (.around (.works 0)) ++ [.goesOn]

theorem expectant_runs {type : String} {runner : Runner}
    (h : Engine.expectant.registry.runner? type = some runner) : runner = Engine.expecting := by
  replace h : List.lookup type [("t", Engine.expecting)] = some runner := h
  rw [List.lookup_cons] at h
  split at h <;> cases h
  rfl

theorem expectant_loyal : Engine.expectant.Loyal := by
  intro w id runner surroundings h hid
  rw [expectant_runs h]
  refine ⟨hid, fun c hc => ?_⟩
  cases hc
  show w.id.getD default = id
  rw [hid, Option.getD_some]

/-- A run that waits for an answer that is there already leaves its instance ready, with the payload
of the run. -/
theorem dispatch_settles_answered :
    let b : Bounds := ⟨fun _ => False, fun remove => remove = false, True⟩
    let w := caller.handedOut "a"
    let k := (begin .expectant asked true w).after toTheEnd
    answered.claim "a" "p" 1 = ([w], asked.db.store) ∧ Engine.expectant.Loyal ∧
      Modest b .expectant w ∧ (∀ m ∈ toTheEnd, m.Within b) ∧
      Undisturbed b ⟨1⟩ .expectant asked toTheEnd ∧ (begin .expectant asked true w).Finishes ∧
      k.answers = [.ok ()] ∧ ∃ r, k.site.db.store.find? ⟨1⟩ = some r ∧ r.status = .ready ∧
        r.payload = .string "asked" := by
  intro b w k
  have modest : Modest b .expectant w := by
    intro runner surroundings h
    rw [expectant_runs h]
    trivial
  have alone : ∀ p, (begin .expectant asked true w).progress = .going p →
      p.Alone .expectant true w := by
    intro p hp
    cases hp
    intro _ runner surroundings h
    rw [expectant_runs h]
    trivial
  have timely : asked.db.Timely := fun f hf => absurd hf List.not_mem_nil
  have gentle : asked.db.Gentle := fun f hf => absurd hf List.not_mem_nil
  have within : ∀ m ∈ toTheEnd, m.Within b ∧ m.Quiet := by
    intro m hm
    simp only [toTheEnd, List.mem_append, List.mem_cons, List.mem_replicate, List.not_mem_nil,
      or_false, or_self] at hm
    rcases hm with (rfl | ⟨-, rfl⟩) | rfl <;> exact ⟨trivial, trivial⟩
  have undisturbed : Undisturbed b ⟨1⟩ .expectant asked toTheEnd :=
    ⟨⟨rfl, by decide +kernel⟩, fun m hm => (within m hm).2, fun h => h⟩
  have fresh : Engine.expectant.storage.batcher =
      (some ⟨2, .zero, 10⟩ : Option BatchSettings).map Batcher.create := rfl
  have settles := fun {ms : List Move} (hm : ∀ m ∈ ms, m.Within b) =>
    dispatch_settles b (d := asked.db) fresh rfl rfl timely (fun _ => gentle)
      (List.forall_mem_nil _) rfl expectant_loyal answered_claim (.nil _) List.mem_cons_self rfl
      modest true hm
  have finishes := (settles (List.forall_mem_nil _)).2 alone
  have h := (settles fun m hm => (within m hm).1).1
  have stopped : (match k.progress with | .over => true | .going _ => false) = true := by
    decide +kernel
  -- the run is not evaluated again from here
  have run : k = (begin .expectant asked true w).after toTheEnd := rfl
  clear_value k
  rw [← run] at h
  have ended : k.progress = .over := by
    rcases hp : k.progress with p | _
    · rw [hp] at stopped
      cases stopped
    · rfl
  obtain ⟨u, yields, ⟨-, alone, granted⟩ | ⟨-, never, -⟩⟩ := h ended
  · have answers := granted undisturbed
    refine ⟨answered_claim, expectant_loyal, modest, fun m hm => (within m hm).1, undisturbed,
      finishes, answers, ?_⟩
    have conclusion := (alone fun _ h => h).1
    obtain ⟨c, hc, asks⟩ : ∃ c, u = .suspended c (.string "asked") ∧ c.quorum = .first ∧
        c.correlations = ["c"] := by
      cases yields with
      | unavailable hf => cases hf
      | unregistered _ hr => cases hr
      | ran _ hr reaches hu =>
        rw [expectant_runs hr] at reaches
        rw [reaches.eq rfl] at hu
        cases hu
        exact ⟨_, rfl, rfl, rfl⟩
    subst hc
    generalize k.answers = heard at answers conclusion
    cases conclusion with
    | suspensionFailed => cases answers
    | lost es => cases es <;> cases answers
    | @suspended c _ s₁ s₂ now before hs hn behind =>
      obtain ⟨⟨r, -, hr⟩, -⟩ := hs
      have satisfied : c.satisfiedBy s₁.unclaimed = true := by
        rw [before, Callback.satisfiedBy_first asks.1, asks.2]
        exact ⟨_, List.mem_cons_self, List.mem_cons_self⟩
      have now_ready := hn r
      rw [Record.SuspendedOn, if_pos satisfied] at now_ready
      obtain ⟨rs, -, he⟩ := now_ready
      rw [behind]
      exact ⟨_, hr, by rw [he], by rw [he]⟩
  · exact absurd trivial never

end Dispatching

end Resumption
