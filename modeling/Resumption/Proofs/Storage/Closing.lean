import Mathlib.Algebra.GroupWithZero.Nat
import Resumption.Proofs.Storage.SharedWriterInvariant

/-!
# A batching writer around its shutdown

What the invariant of a batching writer says of its callers and of its shutdown: at every moment
(`SharedWriter.Accounted`), of everything that can come later (`SharedWriter.Leads`), and of how the
callers come to their results (`SharedWriter.Concludes`). Where it matters that the worker is not
killed, its phase is not `broken`.

Of those who shut the writer down only one gets hold of the worker and waits for it: the first,
unless another overtakes it between its two steps. `SharedWriter.Returned` says that it has returned.
The others do not wait, so that the first to return, and even the first to come, may leave commands
in line (`SharedWriter.shutdown_leaves_line`).

`SharedWriter.submissions_accounted` is the account of every run of moves, whatever the settings of the
writer and whatever is in the database. That no commit fails after it took effect is a hypothesis on
the environment, and it is there for what becomes of the store only.
-/

namespace Resumption

namespace SharedWriter

variable {h h' : SharedWriter} {m : Move}

/-- The shutdown that waits for the worker has returned. -/
def Returned (h : SharedWriter) : Prop := .back true ∈ h.closers

/-- The commands that took effect, in order. -/
def effects (log : List (Submitted × Except StoreError Unit)) : List Command :=
  log.flatMap fun x => Batcher.effective [x.1] x.2

/-- The settings for removal that were in force at some time. -/
def Removal (a : Access) (ms : List Move) (remove : Bool) : Prop :=
  remove = a.removeFinished ∨ .configure remove ∈ ms

/-! ## What may become of a caller -/

/-- The caller has its result or gave up. -/
def Caller.Finished (x : Caller) : Prop := (∃ r, x.stage = .told r) ∨ x.stage = .gone

/-- What may become of a caller: it keeps its command and its ticket, and once it is finished
nothing changes for it. -/
structure Caller.Becomes (x y : Caller) : Prop where
  command : y.command = x.command
  ticket : ∀ t, x.ticket = some t → y.ticket = some t
  final : x.Finished → y = x

theorem Caller.Becomes.refl (x : Caller) : x.Becomes x := ⟨rfl, fun _ h => h, fun _ => rfl⟩

theorem Caller.Becomes.trans {x y z : Caller} (h : x.Becomes y) (h' : y.Becomes z) :
    x.Becomes z where
  command := h'.command.trans h.command
  ticket t ticket := h'.ticket t (h.ticket t ticket)
  final finished := by
    obtain rfl := h.final finished
    exact h'.final finished

theorem Caller.holding_unfinished {x : Caller} (holding : x.stage = .holding) : ¬ x.Finished := by
  rintro (⟨r, told⟩ | gone)
  · rw [holding] at told
    cases told
  · rw [holding] at gone
    cases gone

theorem Caller.waiting_unfinished {x : Caller} (waiting : x.stage = .waiting) : ¬ x.Finished := by
  rintro (⟨r, told⟩ | gone)
  · rw [waiting] at told
    cases told
  · rw [waiting] at gone
    cases gone

/-- What a move does to the callers: nothing, or somebody comes, or somebody goes on. -/
theorem Sound.callers_cases (s : h.Sound) (does : Does h m h') :
    h'.callers = h.callers ∨
      (∃ c stage, (h.shut = true → stage = .told (.error .writerClosed)) ∧
        h'.callers = h.callers ++ [⟨c, none, stage⟩]) ∨
      ∃ place x y, h.callers[place]? = some x ∧ x.Becomes y ∧
        (m.Serves → y.stage ≠ .gone) ∧ h'.callers = h.callers.set place y := by
  cases does with
  | nothing | turned | settled | shut | took | missed | joined | configured | weathered =>
    exact .inl rfl
  | came c not_shut =>
    refine .inr (.inl ⟨c, _, fun shut => ?_, rfl⟩)
    rw [not_shut] at shut
    cases shut
  | late c shut => exact .inr (.inl ⟨c, _, fun _ => rfl, rfl⟩)
  | @queued place c t found not_closed whole =>
    obtain rfl : t = none := s.callers.fits _ (List.mem_of_getElem? found)
    have becomes : Caller.Becomes ⟨c, none, .holding⟩ ⟨c, some h.batcher.issued, .waiting⟩ :=
      ⟨rfl, fun _ ticket => (by cases ticket), fun fin => (Caller.holding_unfinished rfl fin).elim⟩
    exact .inr (.inr ⟨place, _, _, found, becomes, fun _ gone => (by cases gone), rfl⟩)
  | @refused place c t found =>
    obtain rfl : t = none := s.callers.fits _ (List.mem_of_getElem? found)
    have becomes : Caller.Becomes ⟨c, none, .holding⟩ ⟨c, none, .told (.error .writerClosed)⟩ :=
      ⟨rfl, fun _ ticket => ticket, fun fin => (Caller.holding_unfinished rfl fin).elim⟩
    exact .inr (.inr ⟨place, _, _, found, becomes, fun _ gone => (by cases gone), rfl⟩)
  | @heard place c t r found answer =>
    have becomes : Caller.Becomes ⟨c, some t, .waiting⟩ ⟨c, some t, .told r⟩ :=
      ⟨rfl, fun _ ticket => ticket, fun fin => (Caller.waiting_unfinished rfl fin).elim⟩
    exact .inr (.inr ⟨place, _, _, found, becomes, fun _ gone => (by cases gone), rfl⟩)
  | @gaveUp place x found there =>
    have becomes : x.Becomes { x with stage := .gone } := by
      refine ⟨rfl, fun _ ticket => ticket, fun fin => ?_⟩
      rcases there with holding | waiting
      · exact (Caller.holding_unfinished holding fin).elim
      · exact (Caller.waiting_unfinished waiting fin).elim
    exact .inr (.inr ⟨place, _, _, found, becomes, fun serves => serves.elim, rfl⟩)

theorem Sound.callers_become (s : h.Sound) (does : Does h m h') {i : Nat} {x : Caller}
    (found : h.callers[i]? = some x) :
    ∃ y, h'.callers[i]? = some y ∧ x.Becomes y ∧
      (m.Serves → x.stage ≠ .gone → y.stage ≠ .gone) := by
  rcases s.callers_cases does with
    same | ⟨c, stage, -, came⟩ | ⟨place, x', y, there, becomes, stays, went⟩
  · exact ⟨x, by rw [same]; exact found, .refl x, fun _ stays => stays⟩
  · obtain ⟨inside, -⟩ := List.getElem?_eq_some_iff.1 found
    refine ⟨x, ?_, .refl x, fun _ stays => stays⟩
    rw [came, List.getElem?_append_left inside]
    exact found
  · by_cases here : place = i
    · subst here
      rw [found] at there
      cases there
      refine ⟨y, ?_, becomes, fun serves _ => stays serves⟩
      rw [went, List.getElem?_set_self', found]
      rfl
    · refine ⟨x, ?_, .refl x, fun _ stays => stays⟩
      rw [went, List.getElem?_set_ne here]
      exact found

/-! ## What comes later -/

/-- The shutdown that waits for the worker has returned, and the worker was not killed. -/
def Closed (h : SharedWriter) : Prop := h.Returned ∧ h.batcher.phase ≠ .broken

theorem Sound.closed_ended (s : h.Sound) (closed : h.Closed) : h.batcher.phase = .ended := by
  have past := s.shutdown.joined closed.1
  simpa [Batcher.isOver, closed.2] using past

/-- Everything is as it stays after the shutdown. -/
structure Rests (h h' : SharedWriter) : Prop where
  closed : h'.Closed
  store : h'.database.store = h.database.store
  accepted : h'.accepted = h.accepted
  log : h'.log = h.log

/-- What one moment guarantees of a later one. -/
structure Leads (h h' : SharedWriter) : Prop where
  /-- What was put in line stays put, in its order. -/
  accepted : h.accepted <+: h'.accepted
  /-- What was executed stays executed, with its answer. -/
  log : h.log <+: h'.log
  /-- Every caller keeps its place, and its result when it has one. -/
  callers : ∀ (i : Nat) (x : Caller), h.callers[i]? = some x →
    ∃ y, h'.callers[i]? = some y ∧ x.Becomes y
  /-- Whoever comes after the entrance is closed finds the writer closed. -/
  late : h.shut = true → h'.shut = true ∧ ∀ (i : Nat) (x : Caller), h.callers.length ≤ i →
    h'.callers[i]? = some x → x.ticket = none ∧ x.stage = .told (.error .writerClosed)
  /-- When the shutdown has returned, nothing is put in line or executed any more. -/
  rests : h.Closed → h.Rests h'

theorem Leads.refl (h : SharedWriter) : h.Leads h := by
  refine ⟨List.prefix_refl _, List.prefix_refl _, fun i x found => ⟨x, found, .refl x⟩,
    fun shut => ⟨shut, fun i x outside found => ?_⟩, fun closed => ⟨closed, rfl, rfl, rfl⟩⟩
  rw [List.getElem?_eq_none outside] at found
  cases found

theorem Leads.trans {h₁ h₂ h₃ : SharedWriter} (l : h₁.Leads h₂) (l' : h₂.Leads h₃) : h₁.Leads h₃ := by
  refine ⟨l.accepted.trans l'.accepted, l.log.trans l'.log, fun i x found => ?_, fun shut => ?_,
    fun closed => ?_⟩
  · obtain ⟨y, found, becomes⟩ := l.callers i x found
    obtain ⟨z, found, becomes'⟩ := l'.callers i y found
    exact ⟨z, found, becomes.trans becomes'⟩
  · obtain ⟨shut, before⟩ := l.late shut
    obtain ⟨shut, after⟩ := l'.late shut
    refine ⟨shut, fun i x outside found => ?_⟩
    by_cases inside : h₂.callers.length ≤ i
    · exact after i x inside found
    · -- it came before the last moves, and they change nothing for it
      have there := List.getElem?_eq_getElem (Nat.lt_of_not_le inside)
      have turned_away := before i _ outside there
      obtain ⟨y, found', becomes⟩ := l'.callers i _ there
      obtain rfl := becomes.final (.inl ⟨_, turned_away.2⟩)
      rw [found] at found'
      cases found'
      exact turned_away
  · have rests := l.rests closed
    have rests' := l'.rests rests.closed
    exact ⟨rests'.closed, rests'.store.trans rests.store, rests'.accepted.trans rests.accepted,
      rests'.log.trans rests.log⟩

theorem Sound.rests_does (s : h.Sound) (does : Does h m h') (closed : h.Closed) : h.Rests h' := by
  have ended := s.closed_ended closed
  obtain ⟨returned, whole⟩ := closed
  cases does with
  | nothing | came | late | refused | gaveUp | configured | weathered =>
    exact ⟨⟨returned, whole⟩, rfl, rfl, rfl⟩
  | queued found not_closed whole =>
    rw [s.line.worker.ended ended] at not_closed
    cases not_closed
  | heard => exact ⟨⟨returned, whole⟩, rfl, rfl, rfl⟩
  | turned turns => exact ⟨⟨returned, fun broken => whole (turns.broken.1 broken)⟩, rfl, rfl, rfl⟩
  | settled executes =>
    rw [ended] at executes
    cases executes
  | shut => exact ⟨⟨List.mem_append_left _ returned, whole⟩, rfl, rfl, rfl⟩
  | took found =>
    exact ⟨⟨mem_set_of_ne found (fun h => (by cases h)) returned, whole⟩, rfl, rfl, rfl⟩
  | missed found =>
    exact ⟨⟨mem_set_of_ne found (fun h => (by cases h)) returned, whole⟩, rfl, rfl, rfl⟩
  | joined found =>
    exact ⟨⟨mem_set_of_ne found (fun h => (by cases h)) returned, whole⟩, rfl, rfl, rfl⟩

theorem Sound.leads_does (s : h.Sound) (does : Does h m h') : h.Leads h' := by
  refine ⟨?_, ?_, fun i x found => ?_, fun shut => ⟨?_, fun i x outside found => ?_⟩,
    s.rests_does does⟩
  · cases does with
    | queued => exact List.prefix_append _ _
    | _ => exact List.prefix_refl _
  · cases does with
    | settled => exact List.prefix_append _ _
    | _ => exact List.prefix_refl _
  · obtain ⟨y, found, becomes, -⟩ := s.callers_become does found
    exact ⟨y, found, becomes⟩
  · cases does with
    | shut => rfl
    | _ => exact shut
  · have none_there := List.getElem?_eq_none outside
    rcases s.callers_cases does with same | ⟨c, stage, away, came⟩ | ⟨place, x', y, -, -, -, went⟩
    · rw [same, none_there] at found
      cases found
    · rw [came, List.getElem?_append_right outside, List.getElem?_singleton] at found
      split at found
      · cases found
        exact ⟨rfl, away shut⟩
      · cases found
    · rw [went, List.getElem?_eq_none (by rw [List.length_set]; exact outside)] at found
      cases found

theorem Sound.leads (s : h.Sound) (ms : List Move) : h.Leads (h.after ms) := by
  induction ms generalizing h with
  | nil => exact .refl h
  | cons m ms ih => exact (s.leads_does (does_next s.line.worker m)).trans (ih (s.next m))

/-! ## What becomes of the store -/

theorem effects_settled (log : List (Submitted × Except StoreError Unit)) (done : List Submitted)
    (r : Except StoreError Unit) :
    effects (log ++ done.map fun x => (x, r)) = effects log ++ Batcher.effective done r := by
  rw [effects, List.flatMap_append, ← effects]
  congr 1
  induction done with
  | nil => cases r <;> rfl
  | cons x xs ih =>
    rw [List.map_cons, List.flatMap_cons, ih]
    cases r <;> rfl

/-- The store is what the commands that took effect make of the store from before. -/
structure Truthful (removal : Bool → Prop) (before : Store) (h : SharedWriter) : Prop where
  timely : h.database.Timely
  removes : removal h.access.removeFinished
  takes : before.Takes removal (effects h.log) h.database.store

theorem Truthful.does {removal : Bool → Prop} {before : Store} (t : h.Truthful removal before)
    (does : Does h m h') (timely : m.Timely)
    (configured : ∀ remove, m = .configure remove → removal remove) :
    h'.Truthful removal before := by
  cases does with
  | settled executes settles =>
    refine ⟨settles.aside.timely t.timely, t.removes, ?_⟩
    rw [effects_settled]
    exact t.takes.append (Store.takes_of_executeAll t.removes (settles.takes t.timely))
  | configured remove => exact ⟨t.timely, configured remove rfl, t.takes⟩
  | weathered faults clock => exact ⟨timely, t.removes, t.takes⟩
  | _ => exact ⟨t.timely, t.removes, t.takes⟩

theorem Sound.truthful {removal : Bool → Prop} {before : Store} {ms : List Move} :
    ∀ {h : SharedWriter}, h.Sound → h.Truthful removal before → (∀ m ∈ ms, m.Timely) →
      (∀ remove, .configure remove ∈ ms → removal remove) →
      (h.after ms).Truthful removal before := by
  induction ms with
  | nil => exact fun _ t _ _ => t
  | cons m ms ih =>
    intro h s t timely configured
    refine ih (s.next m) (t.does (does_next s.line.worker m) (timely m (by simp)) ?_)
      (fun m' hm => timely m' (by simp [hm])) fun remove hm => configured remove (by simp [hm])
    rintro remove rfl
    exact configured remove (by simp)

/-- Without faults, the answers and the store are those of one command after the other. -/
structure Obedient (remove : Bool) (before : Store) (h : SharedWriter) : Prop where
  quiet : h.database.faults = []
  removes : h.access.removeFinished = remove
  obeys : before.obeyAll remove (h.log.map fun x => x.1.command) =
    (h.log.map Prod.snd, h.database.store)

theorem Obedient.does {remove : Bool} {before : Store} (o : h.Obedient remove before)
    (does : Does h m h') (quiet : m.Quiet) : h'.Obedient remove before := by
  cases does with
  | @settled done r b d executes settles =>
    refine ⟨settles.aside.quiet o.quiet, o.removes, ?_⟩
    have obeys := settles.obeys o.quiet
    rw [o.removes] at obeys
    simp only [List.map_append, List.map_map, Function.comp_def, Store.obeyAll_append, o.obeys,
      obeys]
  | configured remove => exact quiet.elim
  | weathered faults clock => exact ⟨quiet, o.removes, o.obeys⟩
  | _ => exact ⟨o.quiet, o.removes, o.obeys⟩

theorem Sound.obedient {remove : Bool} {before : Store} {ms : List Move} :
    ∀ {h : SharedWriter}, h.Sound → h.Obedient remove before → (∀ m ∈ ms, m.Quiet) →
      (h.after ms).Obedient remove before := by
  induction ms with
  | nil => exact fun _ o _ => o
  | cons m ms ih =>
    intro h s o quiet
    exact ih (s.next m) (o.does (does_next s.line.worker m) (quiet m (by simp)))
      fun m' hm => quiet m' (by simp [hm])

/-! ## How the callers come to their results -/

/-- How many moves a caller needs at most, and its command in line. -/
def Caller.toil (x : Caller) : Nat :=
  match x.stage with
  | .holding => 7
  | .waiting => 1
  | _ => 0

/-- How many moves the callers and the worker need at most. -/
def work (h : SharedWriter) : Nat := h.batcher.distance + (h.callers.map Caller.toil).sum

theorem toil_set {callers : List Caller} {place : Nat} {x : Caller}
    (found : callers[place]? = some x) (y : Caller) :
    ((callers.set place y).map Caller.toil).sum + x.toil =
      (callers.map Caller.toil).sum + y.toil := by
  obtain ⟨l, r, hl, hs⟩ := split_place found
  rw [hs, hl]
  simp only [List.map_append, List.map_cons, List.sum_append, List.sum_cons]
  omega

/-- A serving move changes nothing or leaves less to do. -/
theorem Does.closer (does : Does h m h') (serves : m.Serves) : h' = h ∨ h'.work < h.work := by
  cases does with
  | nothing => exact .inl rfl
  | came | late | gaveUp | shut | took | missed | joined | configured | weathered =>
    exact serves.elim
  | @queued place c t found not_closed whole =>
    refine .inr ?_
    have toil := toil_set found ⟨c, some h.batcher.issued, .waiting⟩
    have distance : (h.batcher.queued c).distance = h.batcher.distance + 5 := by
      simp only [Batcher.distance, Batcher.queued, List.length_append, List.length_singleton]
      omega
    simp only [Caller.toil, work, distance] at toil ⊢
    omega
  | @refused place c t found =>
    refine .inr ?_
    have toil := toil_set found ⟨c, none, .told (.error .writerClosed)⟩
    simp only [Caller.toil, work] at toil ⊢
    omega
  | @heard place c t r found answer =>
    refine .inr ?_
    have toil := toil_set found ⟨c, some t, .told r⟩
    have distance : (h.batcher.forget t).distance = h.batcher.distance := rfl
    simp only [Caller.toil, work, distance] at toil ⊢
    omega
  | turned turns closed closer =>
    have := closer serves
    exact .inr (Nat.add_lt_add_right this _)
  | settled executes settles closer => exact .inr (Nat.add_lt_add_right closer _)

/-- A serving move that changes a caller leaves less to do. -/
theorem Sound.less_of_changed (s : h.Sound) {place : Nat} {x y : Caller} (serves : m.Serves)
    (found : h.callers[place]? = some x) (went : (h.next m).callers[place]? = some y)
    (differ : y ≠ x) : (h.next m).work < h.work := by
  rcases (does_next s.line.worker m).closer serves with same | less
  · rw [same, found] at went
    cases went
    exact absurd rfl differ
  · exact less

/-- With nothing in hand, a caller that is not finished can go on. -/
theorem Sound.caller_serves (s : h.Sound) (empty : h.batcher.inHand = []) {place : Nat} {x : Caller}
    (found : h.callers[place]? = some x) (unfinished : ¬ x.Finished) :
    ∃ m : Move, m.Serves ∧ (h.next m).work < h.work := by
  obtain ⟨c, t, stage⟩ := x
  cases stage with
  | holding =>
    have queue : h.batcher.queue = [] := (List.append_eq_nil_iff.1 empty).2
    have room : h.room = true := by
      simp only [room, queue, List.length_nil]
      exact decide_eq_true (by omega)
    have sent : h.next (.send place) = h.enter place c := by
      simp only [SharedWriter.next, found, room, Bool.or_true, if_true]
    refine ⟨.send place, trivial, ?_⟩
    rcases h.batcher.submit_cases c with ⟨-, -, entered⟩ | ⟨-, refused⟩
    · refine s.less_of_changed (y := ⟨c, some h.batcher.issued, .waiting⟩) trivial found ?_
        (by simp)
      simp only [sent, enter, entered, List.getElem?_set_self', found]
      rfl
    · refine s.less_of_changed (y := ⟨c, none, .told (.error .writerClosed)⟩) trivial found ?_
        (by simp)
      simp only [sent, enter, refused, List.getElem?_set_self', found]
      rfl
  | waiting =>
    obtain ⟨u, ticket, known⟩ := s.callers.fits _ (List.mem_of_getElem? found)
    cases ticket
    rw [empty] at known
    obtain ⟨r, answer⟩ := answer?_known known
    refine ⟨.hear place, trivial, ?_⟩
    refine s.less_of_changed (y := ⟨c, some u, .told r⟩) trivial found ?_ (by simp)
    simp only [SharedWriter.next, found, answer, List.getElem?_set_self']
    rfl
  | told r => exact absurd (.inl ⟨r, rfl⟩) unfinished
  | gone => exact absurd (.inr rfl) unfinished

theorem Sound.worker_serves (s : h.Sound) (busy : h.batcher.inHand ≠ []) :
    ∃ m : Move, m.Serves ∧ (h.next m).work < h.work := by
  have executes : h.batcher.phase.executes = true → (h.next .flush).work < h.work := by
    intro executes
    simp only [SharedWriter.next, executes, if_true]
    exact Nat.add_lt_add_right (Batcher.step_executes_distance executes) _
  cases phase : h.batcher.phase with
  | idle =>
    have line : h.batcher.queue ≠ [] := by
      intro line
      exact busy (by rw [Batcher.inHand, phase, line]; rfl)
    have collects : h.batcher.collects 0 =
        some ([], 0 + h.batcher.settings.flushInterval.nanos) := by
      simp only [Batcher.collects, phase]
    exact ⟨.receive 0, trivial, Nat.add_lt_add_right (Batcher.receive_distance collects line) _⟩
  | collecting batch due =>
    exact ⟨.expire, trivial, Nat.add_lt_add_right (Batcher.expire_distance phase) _⟩
  | flushing batch => exact ⟨.flush, trivial, executes (by rw [phase]; rfl)⟩
  | retrying rest => exact ⟨.flush, trivial, executes (by rw [phase]; rfl)⟩
  | ended | broken =>
    have line := s.line.worker.drained (by simp [Batcher.isOver, phase])
    exact absurd (by rw [Batcher.inHand, phase, line]; rfl) busy

/-- Everybody is finished, and everything that was put in line was executed. -/
def Settled (h : SharedWriter) : Prop :=
  (∀ x ∈ h.callers, x.Finished) ∧ h.accepted = h.log.map Prod.fst

theorem Sound.settled_or_less (s : h.Sound) :
    h.Settled ∨ ∃ m : Move, m.Serves ∧ (h.next m).work < h.work := by
  by_cases empty : h.batcher.inHand = []
  · by_cases finished : ∀ x ∈ h.callers, x.Finished
    · refine .inl ⟨finished, ?_⟩
      rw [s.line.order, empty, List.append_nil]
    · simp only [not_forall] at finished
      obtain ⟨x, hx, unfinished⟩ := finished
      obtain ⟨place, found⟩ := List.mem_iff_getElem?.1 hx
      exact .inr (s.caller_serves empty found unfinished)
  · exact .inr (s.worker_serves empty)

/-- How the callers come to their results when they and the worker go on. -/
structure Concludes (h : SharedWriter) : Prop where
  /-- Every serving move that changes something leaves less to do, so there is an end to them. -/
  closer : ∀ m : Move, m.Serves → h.next m = h ∨ (h.next m).work < h.work
  /-- Where no serving move changes anything, everything is settled. -/
  settled : (∀ m : Move, m.Serves → h.next m = h) → h.Settled
  /-- Serving moves settle everything, and bring every caller that did not give up to its result. -/
  results : ∃ ms : List Move, (∀ m ∈ ms, m.Serves) ∧ (h.after ms).Settled ∧
    ∀ (i : Nat) (x : Caller), h.callers[i]? = some x → x.stage ≠ .gone →
      ∃ y r, (h.after ms).callers[i]? = some y ∧ x.Becomes y ∧ y.stage = .told r

theorem Sound.served (s : h.Sound) :
    ∃ ms : List Move, (∀ m ∈ ms, m.Serves) ∧ (h.after ms).Settled := by
  induction least : h.work using Nat.strongRecOn generalizing h with
  | _ n ih =>
    rcases s.settled_or_less with settled | ⟨m, serves, less⟩
    · exact ⟨[], fun m hm => (by cases hm), settled⟩
    · obtain ⟨ms, all_serve, settled⟩ := ih _ (least ▸ less) (s.next m) rfl
      refine ⟨m :: ms, fun m' hm => ?_, settled⟩
      rcases List.mem_cons.1 hm with rfl | hm
      · exact serves
      · exact all_serve m' hm

theorem Sound.nobody_gives_up {ms : List Move} (serve : ∀ m ∈ ms, m.Serves) :
    ∀ {h : SharedWriter}, h.Sound → ∀ {i : Nat} {x : Caller}, h.callers[i]? = some x → x.stage ≠ .gone →
      ∃ y, (h.after ms).callers[i]? = some y ∧ x.Becomes y ∧ y.stage ≠ .gone := by
  induction ms with
  | nil => exact fun _ i x found stays => ⟨x, found, .refl x, stays⟩
  | cons m ms ih =>
    intro h s i x found stays
    obtain ⟨y, found, becomes, still⟩ := s.callers_become (does_next s.line.worker m) found
    obtain ⟨z, found, becomes', last⟩ := ih (fun m' hm => serve m' (by simp [hm])) (s.next m) found
      (still (serve m (by simp)) stays)
    exact ⟨z, found, becomes.trans becomes', last⟩

theorem Sound.concludes (s : h.Sound) : h.Concludes := by
  refine ⟨fun m serves => (does_next s.line.worker m).closer serves, fun stuck => ?_, ?_⟩
  · rcases s.settled_or_less with settled | ⟨m, serves, less⟩
    · exact settled
    · rw [stuck m serves] at less
      exact absurd less (Nat.lt_irrefl _)
  · obtain ⟨ms, serve, settled⟩ := s.served
    refine ⟨ms, serve, settled, fun i x found stays => ?_⟩
    obtain ⟨y, found, becomes, still⟩ := Sound.nobody_gives_up serve s found stays
    rcases settled.1 y (List.mem_of_getElem? found) with ⟨r, told⟩ | gone
    · exact ⟨y, r, found, becomes, told⟩
    · exact absurd gone still

/-! ## The account -/

/-- What the account says at a moment. -/
structure Accounted (h : SharedWriter) : Prop where
  /-- What was put in line was executed, from the front and with an answer, or is in hand. -/
  order : h.accepted = h.log.map Prod.fst ++ h.batcher.inHand
  /-- It has one ticket after the other, so nothing is there twice. -/
  numbered : h.accepted.map (·.ticket) = List.range h.batcher.issued
  /-- It is what the callers put in line. -/
  submissions : (h.callers.filterMap Caller.submission?).Perm h.accepted
  /-- A result is the answer to what the caller put in line, or says to one that put nothing there
  that the writer is closed. -/
  results : ∀ x ∈ h.callers, ∀ r, x.stage = .told r →
    (x.submission? = none ∧ r = .error .writerClosed) ∨
      ∃ y, x.submission? = some y ∧ (y, r) ∈ h.log
  /-- Whoever found the writer closed put nothing in line, while the worker is not killed. -/
  refused : h.batcher.phase ≠ .broken →
    ∀ x ∈ h.callers, x.stage = .told (.error .writerClosed) → x.submission? = none
  /-- When the shutdown that waits for the worker has returned, the line is empty, everything that was
  put in it was executed, and its caller finds the answer. -/
  drained : h.Closed → h.batcher.queue = [] ∧ h.accepted = h.log.map Prod.fst ∧
    ∀ x ∈ h.callers, x.stage ≠ .holding ∧
      (x.stage = .waiting → ∃ t r, x.ticket = some t ∧ h.batcher.answer? t = some r)
  /-- The first who shuts the writer down gets hold of the worker when it comes to that, unless
  somebody else takes the worker in between. -/
  first : h.closers = [] → ∀ ms : List Move, (∀ m ∈ ms, ∀ place, m ≠ .take place) →
    (((h.next .shutdown).after ms).next (.take 0)).closers[0]? = some .joining
  /-- Of all who shut it down, one at most gets hold of the worker. -/
  sole : h.closers.countP Closer.holds ≤ 1
  /-- When somebody has taken the worker, whoever comes for it returns without waiting. -/
  missed : h.handle = false → ∀ place, h.closers[place]? = some .closing →
    h.next (.take place) = { h with closers := h.closers.set place (.back false) }
  /-- A shutdown returns only when it has waited for the worker, or when another waits or has. -/
  waits : ∀ waited, .back waited ∈ h.closers → h.Returned ∨ .joining ∈ h.closers
  /-- When the entrance is closed, shutting the writer down changes nothing but who waits. -/
  again : h.shut = true → ∀ m : Move, m.Closes → ∃ handle closers,
    h.next m = { h with handle, closers }
  /-- Whoever comes then has its result at once, and nothing else changes. -/
  away : h.shut = true → ∀ c, h.next (.call c) =
    { h with callers := h.callers ++ [⟨c, none, .told (.error .writerClosed)⟩] }

theorem Sound.refused (s : h.Sound) (whole : h.batcher.phase ≠ .broken) {x : Caller}
    (hx : x ∈ h.callers) (closed : x.stage = .told (.error .writerClosed)) :
    x.submission? = none := by
  have fits := s.callers.fits x hx
  simp only [Caller.Fits, closed] at fits
  rcases fits with ⟨nothing, -⟩ | ⟨y, -, logged⟩
  · exact nothing
  · exact absurd rfl (s.line.unclosed whole _ logged)

theorem Sound.drained (s : h.Sound) (closed : h.Closed) :
    h.batcher.queue = [] ∧ h.accepted = h.log.map Prod.fst ∧
      ∀ x ∈ h.callers, x.stage ≠ .holding ∧
        (x.stage = .waiting → ∃ t r, x.ticket = some t ∧ h.batcher.answer? t = some r) := by
  have ended := s.closed_ended closed
  have queue := s.line.worker.drained (by simp [Batcher.isOver, ended])
  have empty : h.batcher.inHand = [] := by rw [Batcher.inHand, ended, queue]; rfl
  have order := s.line.order
  rw [empty, List.append_nil] at order
  refine ⟨queue, order, fun x hx => ⟨?_, fun waiting => ?_⟩⟩
  · exact (s.shutdown.closed (s.line.worker.ended ended)).2 x hx
  · have fits := s.callers.fits x hx
    simp only [Caller.Fits, waiting, empty] at fits
    obtain ⟨t, ticket, known⟩ := fits
    obtain ⟨r, answer⟩ := answer?_known known
    exact ⟨t, r, ticket, answer⟩

/-- The first has come, and the worker is there to be taken. -/
def Awaits (h : SharedWriter) : Prop := h.closers[0]? = some .closing ∧ h.handle = true

theorem Awaits.does (w : h.Awaits) (does : Does h m h') (other : ∀ place, m ≠ .take place) :
    h'.Awaits := by
  obtain ⟨first, free⟩ := w
  cases does with
  | shut =>
    obtain ⟨inside, -⟩ := List.getElem?_eq_some_iff.1 first
    exact ⟨(List.getElem?_append_left inside).trans first, free⟩
  | took | missed => exact absurd rfl (other _)
  | @joined place found done =>
    have elsewhere : place ≠ 0 := by
      rintro rfl
      cases first.symm.trans found
    exact ⟨(List.getElem?_set_ne elsewhere).trans first, free⟩
  | _ => exact ⟨first, free⟩

theorem Awaits.take (w : h.Awaits) : (h.next (.take 0)).closers[0]? = some .joining := by
  obtain ⟨first, free⟩ := w
  obtain ⟨inside, -⟩ := List.getElem?_eq_some_iff.1 first
  simp only [next, first, free, if_true, List.getElem?_set_self inside]

theorem Sound.awaits {ms : List Move} (others : ∀ m ∈ ms, ∀ place, m ≠ .take place) :
    ∀ {h : SharedWriter}, h.Sound → h.Awaits → (h.after ms).Awaits := by
  induction ms with
  | nil => exact fun _ w => w
  | cons m ms ih =>
    intro h s w
    exact ih (fun m' hm => others m' (by simp [hm])) (s.next m)
      (w.does (does_next s.line.worker m) (others m (by simp)))

theorem Sound.first (s : h.Sound) (nobody : h.closers = []) {ms : List Move}
    (others : ∀ m ∈ ms, ∀ place, m ≠ .take place) :
    (((h.next .shutdown).after ms).next (.take 0)).closers[0]? = some .joining := by
  have free : h.handle = true := by
    have holders := s.shutdown.taken
    rw [nobody] at holders
    by_contra taken
    rw [if_neg taken] at holders
    cases holders
  have start : (h.next .shutdown).Awaits := ⟨by rw [SharedWriter.next, nobody]; rfl, free⟩
  exact ((s.next .shutdown).awaits others start).take

theorem Sound.waits (s : h.Sound) {waited : Bool} (back : .back waited ∈ h.closers) :
    h.Returned ∨ .joining ∈ h.closers := by
  have taken : h.handle = false := by
    by_contra free
    cases s.shutdown.free (by simpa using free) _ back
  exact (s.shutdown.holder taken).symm

theorem closes_again (shut : h.shut = true) (closes : m.Closes) :
    ∃ handle closers, h.next m = { h with handle, closers } := by
  cases m with
  | shutdown =>
    refine ⟨h.handle, h.closers ++ [.closing], ?_⟩
    simp only [next, shut]
  | take place =>
    simp only [next]
    split
    · split
      · exact ⟨_, _, rfl⟩
      · exact ⟨h.handle, _, rfl⟩
    · exact ⟨h.handle, h.closers, rfl⟩
  | join place =>
    simp only [next]
    split
    · split
      · exact ⟨h.handle, _, rfl⟩
      · exact ⟨h.handle, h.closers, rfl⟩
    · exact ⟨h.handle, h.closers, rfl⟩
  | _ => exact closes.elim

theorem Sound.accounted (s : h.Sound) : h.Accounted where
  order := s.line.order
  numbered := s.line.numbered
  submissions := s.callers.submissions
  results x hx r told := by
    have fits := s.callers.fits x hx
    simpa only [Caller.Fits, told] using fits
  refused whole _ hx closed := s.refused whole hx closed
  drained closed := s.drained closed
  first nobody _ others := s.first nobody others
  sole := by
    rw [s.shutdown.taken]
    split <;> omega
  missed gone place found := by simp [SharedWriter.next, found, gone]
  waits _ back := s.waits back
  again shut _ closes := closes_again shut closes
  away shut c := by rw [SharedWriter.next, if_pos shut]

/-- **A batching writer neither loses nor makes up submissions.** Whatever came to a writer in
whatever order, its account is in order and stays so, and the callers come to their results. The
store is what the commands that took effect make of it in the order in which they stood in line;
without faults the answers, too, are those of one command after the other in that order. -/
theorem submissions_accounted (settings : BatchSettings) (a : Access) (d : Database)
    (ms : List Move) :
    let h := (create settings a d).after ms
    h.Accounted ∧ h.Concludes ∧ (∀ later, h.Leads (h.after later)) ∧
      (d.Timely → (∀ m ∈ ms, m.Timely) →
        d.store.Takes (Removal a ms) (effects h.log) h.database.store) ∧
      (d.faults = [] → (∀ m ∈ ms, m.Quiet) →
        d.store.obeyAll a.removeFinished (h.log.map fun x => x.1.command) =
          (h.log.map Prod.snd, h.database.store)) := by
  have start := sound_create settings a d
  have s := start.after ms
  refine ⟨s.accounted, s.concludes, fun later => s.leads later, fun timely calm => ?_,
    fun quiet calm => ?_⟩
  · have before : (create settings a d).Truthful (Removal a ms) d.store :=
      ⟨timely, .inl rfl, .nil _⟩
    exact (start.truthful before calm fun remove hm => .inr hm).takes
  · have before : (create settings a d).Obedient a.removeFinished d.store := ⟨quiet, rfl, rfl⟩
    exact (start.obedient before calm).obeys

/-- A database with one instance that is running. -/
def oneRunning : Database :=
  { Database.create .epoch with store :=
    ⟨[{ Record.ofWorkflow ⟨1⟩ 1 (Workflow.create "order" .null) with
      status := .running "engine" }], [], 1⟩ }

/-- Two callers have hold of the line, and there is room for one. The worker has collected the
command of the first when the writer is shut down; the second puts its command in line only then,
and a third comes too late. The batch fails, and of its commands the first goes well. -/
def closedOverBatch : List Move :=
  [.call (.finish ⟨1⟩), .call (.finish ⟨2⟩), .send 0, .send 1, .receive 0, .shutdown, .take 0,
    .send 1, .call (.finish ⟨3⟩), .receive 0, .flush, .flush, .hear 0, .flush, .notice, .join 0,
    .hear 1]

theorem submissions_accounted_closedOverBatch :
    let h := (create ⟨2, .zero, 1⟩ ⟨"engine", false⟩ oneRunning).after closedOverBatch
    oneRunning.faults = [] ∧ (∀ m ∈ closedOverBatch, m.Quiet) ∧ h.Closed ∧
      h.callers.map (·.stage) = [.told (.ok ()), .told (.error (.instanceNotFound ⟨2⟩)),
        .told (.error .writerClosed)] ∧
      h.accepted = h.log.map Prod.fst ∧
      oneRunning.store.Takes (Removal ⟨"engine", false⟩ closedOverBatch) (effects h.log)
        h.database.store ∧
      oneRunning.store.obeyAll false (h.log.map fun x => x.1.command) =
        (h.log.map Prod.snd, h.database.store) := by
  have still : ∀ m ∈ closedOverBatch, m.Timely ∧ m.Quiet := by
    intro m hm
    simp only [closedOverBatch, List.mem_cons, List.not_mem_nil, or_false] at hm
    rcases hm with rfl | rfl | rfl | rfl | rfl | rfl | rfl | rfl | rfl | rfl | rfl | rfl | rfl |
      rfl | rfl | rfl | rfl <;> exact ⟨trivial, trivial⟩
  have timely : oneRunning.Timely := Database.timely_of_quiet rfl
  have closed :
      ((create ⟨2, .zero, 1⟩ ⟨"engine", false⟩ oneRunning).after closedOverBatch).Closed := by
    constructor
    · show Closer.back true ∈ _
      decide +kernel
    · decide +kernel
  obtain ⟨accounted, -, -, takes, obeys⟩ :=
    submissions_accounted ⟨2, .zero, 1⟩ ⟨"engine", false⟩ oneRunning closedOverBatch
  exact ⟨rfl, fun m hm => (still m hm).2, closed, by decide +kernel, (accounted.drained closed).2.1,
    takes timely fun m hm => (still m hm).1, obeys rfl fun m hm => (still m hm).2⟩

/-- A command is in line, and two shut the writer down. -/
def shutDownTwice : List Move := [.call (.finish ⟨1⟩), .send 0, .shutdown, .shutdown]

/-- A shutdown that does not get hold of the worker returns while the line is not empty and nothing
was executed: the second to come, or the first when the second overtakes it. -/
theorem shutdown_leaves_line :
    let h := fun takes : List Move =>
      (create ⟨2, .zero, 1⟩ ⟨"engine", false⟩ oneRunning).after (shutDownTwice ++ takes)
    (h [.take 0, .take 1]).closers = [.joining, .back false] ∧
      (h [.take 1, .take 0]).closers = [.back false, .joining] ∧
      ∀ takes ∈ [[.take 0, .take 1], [.take 1, .take 0]], (h takes).batcher.phase = .idle ∧
        (h takes).batcher.queue = [⟨0, .finish ⟨1⟩⟩] ∧ (h takes).log = [] ∧
        (h takes).callers.map (·.stage) = [.waiting] := by
  decide +kernel

end SharedWriter

end Resumption
