import Mathlib.Logic.Function.Iterate
import Resumption.Proofs.Database.Refusal
import Resumption.Proofs.Storage.Worker

/-!
# The turns of a batching worker

A step of the worker takes all that stands in line and fits into the batch. Here the worker takes
smaller turns, so that others can come in between: it receives one command at a time
(`Batcher.receive`), the window of its batch is over at some time (`Batcher.expire`), and it sees
that the line is at an end (`Batcher.notice`), with or without commands in its hands. The steps are
made of these turns (`Batcher.step_receives`, `Batcher.step_expires`, `Batcher.step_notices`).

`Batcher.Turns` says what such a turn leaves alone, and `Batcher.Settles` what an execution does,
whichever calls fail.
-/

namespace Resumption

/-- The worker is about to execute something. -/
def WorkerPhase.executes : WorkerPhase → Bool
  | .flushing _ => true
  | .retrying _ => true
  | _ => false

namespace Batcher

/-- What the worker has collected, and when its window is over, while it waits for commands. -/
def collects (b : Batcher) (time : Nat) : Option (List Submitted × Nat) :=
  match b.phase with
  | .idle => some ([], time + b.settings.flushInterval.nanos)
  | .collecting batch due => some (batch, due)
  | _ => none

def collected (b : Batcher) (batch : List Submitted) (due : Nat) : WorkerPhase :=
  if b.most ≤ batch.length then .flushing batch else .collecting batch due

/-- The worker receives the command at the front of the line, if it waits for one. -/
def receive (time : Nat) (b : Batcher) : Batcher :=
  match b.collects time, b.queue with
  | some (batch, due), x :: queue => { b with queue, phase := b.collected (batch ++ [x]) due }
  | _, _ => b

def expire (b : Batcher) : Batcher :=
  match b.phase with
  | .collecting batch _ => { b with phase := .flushing batch }
  | _ => b

/-- The worker, which waits for a command, sees that none will come any more. -/
def notice (b : Batcher) : Batcher :=
  match b.phase with
  | .idle => { b.close with phase := .ended }
  | .collecting batch _ => { b.close with phase := .flushing batch }
  | _ => b

variable {b b' : Batcher} {time : Nat} {batch : List Submitted} {due : Nat}

/-! ## Steps are made of turns -/

theorem collects_collecting (h : b.phase = .collecting batch due) :
    b.collects time = some (batch, due) := by
  simp only [collects, h]

theorem collects_held (h : b.collects time = some (batch, due)) : b.phase.held = batch := by
  unfold collects at h
  split at h
  · next idle => cases h; rw [idle]; rfl
  · next collecting => cases h; rw [collecting]; rfl
  · cases h

theorem receive_cons {x : Submitted} {queue : List Submitted}
    (h : b.collects time = some (batch, due)) (line : b.queue = x :: queue) :
    b.receive time = { b with queue, phase := b.collected (batch ++ [x]) due } := by
  simp only [receive, h, line]

/-- A worker that does not wait for a command receives none. -/
theorem receives_busy (h : b.collects time = none) (n : Nat) : (receive time)^[n] b = b := by
  have fixed : b.receive time = b := by simp only [receive, h]
  exact Function.iterate_fixed fixed n

/-- To fill a batch is to put the command at the front in it, and to fill it then. -/
theorem fill_cons {x : Submitted} {queue : List Submitted} (line : b.queue = x :: queue)
    (room : batch.length < b.most) (phase : WorkerPhase) :
    fill { b with queue, phase } (batch ++ [x]) due = b.fill batch due := by
  have split : b.most - batch.length = b.most - (batch ++ [x]).length + 1 := by
    rw [List.length_append, List.length_singleton]
    omega
  simp only [fill, split, line, List.take_succ_cons, List.drop_succ_cons, List.append_assoc,
    List.singleton_append]
  rfl

theorem collects_room (h : b.collects time = some (batch, due)) (sound : b.Sound) :
    batch.length < b.most := by
  unfold collects at h
  split at h
  · cases h
    simp only [most, List.length_nil]
    omega
  · next collecting =>
    cases h
    exact sound.room _ _ collecting
  · cases h

/-- Receiving all that stand in line is to fill the batch. -/
theorem receives_fill {queue : List Submitted} :
    ∀ {b : Batcher} {batch : List Submitted}, b.queue = queue →
      b.phase = b.collected batch due → (receive time)^[queue.length] b = b.fill batch due := by
  induction queue with
  | nil =>
    intro b batch line phase
    have same : b.fill batch due = b := by
      simp only [fill, line, List.take_nil, List.drop_nil, List.append_nil]
      rw [← collected, ← phase, ← line]
    exact same.symm
  | cons x queue ih =>
    intro b batch line phase
    by_cases full : b.most ≤ batch.length
    · -- the batch is full, and the worker receives no more
      have flushing : b.phase = .flushing batch := by rw [phase, collected, if_pos full]
      have room : b.most - batch.length = 0 := by omega
      rw [receives_busy (by simp only [collects, flushing])]
      simp only [fill, room, List.take_zero, List.append_nil, List.drop_zero, if_pos full,
        ← flushing]
    · have collecting : b.phase = .collecting batch due := by rw [phase, collected, if_neg full]
      have collects : b.collects time = some (batch, due) := collects_collecting collecting
      rw [List.length_cons, Function.iterate_succ_apply, receive_cons collects line]
      exact (ih (b := { b with queue, phase := b.collected (batch ++ [x]) due }) rfl rfl).trans
        (fill_cons line (Nat.lt_of_not_le full) _)

/-- **A step that fills a batch receives command after command,** as long as there is one and the
batch is not full. -/
theorem step_receives (a : Access) (d : Database) (h : b.collects time = some (batch, due))
    (line : b.queue ≠ []) (sound : b.Sound) :
    b.step a time d = ((receive time)^[b.queue.length] b, d) := by
  have fills : b.step a time d = (b.fill batch due, d) := by
    unfold collects at h
    split at h
    · next idle => cases h; simp [step, idle, line]
    · next collecting => cases h; simp [step, collecting, line]
    · cases h
  obtain ⟨x, queue, line⟩ := List.exists_cons_of_ne_nil line
  have receives : (receive time)^[b.queue.length] b = b.fill batch due := by
    rw [line, List.length_cons, Function.iterate_succ_apply, receive_cons h line]
    exact (receives_fill (b := { b with queue, phase := b.collected (batch ++ [x]) due }) rfl
      rfl).trans (fill_cons line (collects_room h sound) _)
  rw [fills, receives]

/-- A step of a worker whose window is over, with nobody in line, is just that. -/
theorem step_expires (a : Access) (d : Database) (h : b.phase = .collecting batch due)
    (line : b.queue = []) : b.step a time d = (b.expire, d) := by
  simp [step, expire, h, line]

/-- A step of a worker that finds nobody in line is to notice the end of the line. -/
theorem step_notices (a : Access) (d : Database) (h : b.collects time ≠ none)
    (line : b.queue = []) : b.close.step a time d = (b.notice, d) := by
  unfold collects at h
  split at h
  · next idle => simp [step, close, notice, idle, line]
  · next collecting => simp [step, close, notice, collecting, line]
  · exact absurd rfl h

/-! ## What a turn leaves alone -/

/-- The worker goes on and executes nothing. -/
structure Turns (b b' : Batcher) : Prop where
  hand : b'.inHand = b.inHand
  answers : b'.answers = b.answers
  issued : b'.issued = b.issued
  sound : b.Sound → b'.Sound
  broken : b'.phase = .broken ↔ b.phase = .broken
  past : b.isOver = true → b' = b

theorem Turns.refl (b : Batcher) : b.Turns b := ⟨rfl, rfl, rfl, id, .rfl, fun _ => rfl⟩

theorem collected_held (b : Batcher) (batch : List Submitted) (due : Nat) :
    (b.collected batch due).held = batch := by
  unfold collected
  split <;> rfl

theorem collected_going (b : Batcher) (batch : List Submitted) (due : Nat) :
    b.collected batch due ≠ .ended ∧ b.collected batch due ≠ .broken := by
  unfold collected
  split <;> exact ⟨fun h => (nomatch h), fun h => (nomatch h)⟩

theorem collects_going (h : b.collects time = some (batch, due)) :
    b.phase ≠ .ended ∧ b.phase ≠ .broken := by
  unfold collects at h
  split at h
  · next idle => rw [idle]; exact ⟨fun h => (nomatch h), fun h => (nomatch h)⟩
  · next collecting => rw [collecting]; exact ⟨fun h => (nomatch h), fun h => (nomatch h)⟩
  · cases h

theorem not_over (ended : b.phase ≠ .ended) (broken : b.phase ≠ .broken) : b.isOver = false := by
  simp [isOver, ended, broken]

theorem flushing_sound (phase : b.phase = .flushing batch) (fits : batch.length ≤ b.most) :
    b.Sound := by
  refine ⟨fun past => ?_, fun ended => ?_, ?_, fun _ _ collecting => ?_⟩
  · simp [isOver, phase] at past
  · rw [phase] at ended
    cases ended
  · rw [phase]
    exact fits
  · rw [phase] at collecting
    cases collecting

theorem collected_sound (batch : List Submitted) (due : Nat)
    (phase : b.phase = b.collected batch due) (fits : batch.length ≤ b.most) : b.Sound := by
  unfold collected at phase
  split at phase
  · exact flushing_sound phase fits
  · next short =>
    refine ⟨fun past => ?_, fun ended => ?_, ?_, fun _ _ collecting => ?_⟩
    · simp [isOver, phase] at past
    · rw [phase] at ended
      cases ended
    · rw [phase]
      exact fits
    · rw [phase] at collecting
      cases collecting
      exact Nat.lt_of_not_le short

theorem receive_turns (b : Batcher) (time : Nat) : b.Turns (b.receive time) := by
  rcases h : b.collects time with _ | ⟨batch, due⟩
  · have same : b.receive time = b := receives_busy h 1
    rw [same]
    exact .refl b
  rcases line : b.queue with _ | ⟨x, queue⟩
  · have same : b.receive time = b := by simp only [receive, h, line]
    rw [same]
    exact .refl b
  rw [receive_cons h line]
  obtain ⟨not_ended, not_broken⟩ := collects_going h
  have whole := (b.collected_going (batch ++ [x]) due).2
  refine ⟨?_, rfl, rfl, fun sound => ?_, ?_, fun past => ?_⟩
  · rw [inHand, inHand, collected_held, collects_held h, line, List.append_assoc]
    rfl
  · refine collected_sound (batch ++ [x]) due rfl ?_
    have room := collects_room h sound
    rw [List.length_append, List.length_singleton]
    exact room
  · exact ⟨fun broken => absurd broken whole, fun broken => absurd broken not_broken⟩
  · rw [not_over not_ended not_broken] at past
    cases past

/-- A worker that waits for commands may stop waiting and go on with what it has. -/
theorem Turns.of_collecting (phase : b.phase = .collecting batch due) (closed : Bool) :
    b.Turns { b with closed, phase := .flushing batch } := by
  refine ⟨?_, rfl, rfl, fun sound => ?_, ?_, fun past => ?_⟩
  · simp only [inHand, phase, WorkerPhase.held]
  · have fits := sound.fits
    rw [phase] at fits
    exact flushing_sound rfl fits
  · simp [phase]
  · simp [isOver, phase] at past

theorem expire_turns (b : Batcher) : b.Turns b.expire := by
  unfold expire
  split
  · next batch due collecting => exact .of_collecting collecting b.closed
  · exact .refl b

theorem notice_turns (line : b.queue = []) : b.Turns b.notice := by
  unfold notice
  split
  · next idle =>
    refine ⟨?_, rfl, rfl, fun sound => ?_, ?_, fun past => ?_⟩
    · simp only [inHand, idle, WorkerPhase.held, close]
    · exact ⟨fun _ => line, fun _ => rfl, Nat.zero_le _, fun _ _ h => (by cases h)⟩
    · simp [idle]
    · simp [isOver, idle] at past
  · next batch due collecting => exact .of_collecting collecting true
  · exact .refl b

theorem receive_closed (b : Batcher) (time : Nat) : (b.receive time).closed = b.closed := by
  unfold receive
  split <;> rfl

theorem expire_closed (b : Batcher) : b.expire.closed = b.closed := by
  unfold expire
  split <;> rfl

/-! ## A command is put in line -/

/-- The writer with one more command in line. -/
def queued (b : Batcher) (c : Command) : Batcher :=
  { b with issued := b.issued + 1, queue := b.queue ++ [⟨b.issued, c⟩] }

theorem queued_inHand (b : Batcher) (c : Command) :
    (b.queued c).inHand = b.inHand ++ [⟨b.issued, c⟩] := by
  simp only [queued, inHand, List.append_assoc]

theorem submit_cases (b : Batcher) (c : Command) :
    (b.closed = false ∧ b.phase ≠ .broken ∧ b.submit c = (some b.issued, b.queued c)) ∨
      ((b.closed = true ∨ b.phase = .broken) ∧ b.submit c = (none, b)) := by
  by_cases away : b.closed = true ∨ b.phase = .broken
  · refine .inr ⟨away, ?_⟩
    rw [submit, if_pos (by simpa using away)]
  · simp only [not_or, Bool.not_eq_true] at away
    refine .inl ⟨away.1, away.2, ?_⟩
    rw [submit, if_neg (by simp [away])]
    rfl

theorem queued_sound (sound : b.Sound) (not_closed : b.closed = false) (whole : b.phase ≠ .broken)
    (c : Command) : (b.queued c).Sound := by
  refine ⟨fun past => ?_, sound.ended, sound.fits, sound.room⟩
  have going : b.isOver = false := by
    refine not_over (fun ended => ?_) whole
    rw [sound.ended ended] at not_closed
    cases not_closed
  change b.isOver = true at past
  rw [going] at past
  cases past

/-! ## Turns bring the worker closer to its rest -/

/-- A worker that waits and finds somebody in line comes closer to its rest. -/
theorem receive_distance (h : b.collects time = some (batch, due)) (line : b.queue ≠ []) :
    (b.receive time).distance < b.distance := by
  obtain ⟨x, queue, line⟩ := List.exists_cons_of_ne_nil line
  have before : 5 * b.queue.length + batch.length ≤ b.distance := by
    unfold collects at h
    split at h
    · next idle => cases h; simp [distance, idle]
    · next collecting => cases h; simp only [distance, collecting]; omega
    · cases h
  have after : (b.receive time).distance ≤ 5 * queue.length + ((batch ++ [x]).length + 3) := by
    rw [receive_cons h line]
    unfold collected
    split <;> simp [distance]
  rw [line, List.length_cons] at before
  rw [List.length_append, List.length_singleton] at after
  omega

theorem expire_distance (h : b.phase = .collecting batch due) : b.expire.distance < b.distance := by
  simp only [expire, h, distance]
  omega

theorem step_executes_distance {a : Access} {d : Database} (h : b.phase.executes = true) :
    (b.step a time d).1.distance < b.distance := by
  cases phase : b.phase with
  | flushing batch => exact flush_distance phase
  | retrying rest => exact retry_distance phase
  | _ => rw [phase] at h; cases h

/-! ## Executions -/

/-- The commands among some that took effect, when all got the same answer. -/
def effective (done : List Submitted) : Except StoreError Unit → List Command
  | .ok () => done.map (·.command)
  | .error _ => []

/-- What the worker does when it executes: it settles some commands from the front, all with the
same answer, and keeps the others. -/
structure Settles (a : Access) (b : Batcher) (d : Database) (done : List Submitted)
    (r : Except StoreError Unit) (b' : Batcher) (d' : Database) : Prop where
  hand : b.inHand = done ++ b'.inHand
  answers : b'.answers = b.answers ++ done.map fun x => (x.ticket, r)
  takes : d.Timely →
    d.store.executeAll a.removeFinished (effective done r) = (.ok (), d'.store)
  aside : d.Aside d'
  closed : b'.closed = b.closed
  issued : b'.issued = b.issued
  sound : b'.Sound
  unclosed : b'.phase ≠ .broken → r ≠ .error .writerClosed
  alone : d.faults = [] → ∀ e, r = .error e →
    ∃ x, done = [x] ∧ (d.store.execute a.removeFinished x.command).1 = .error e

/-- Without faults, what is settled is answered as the store answers one command after the other. -/
theorem Settles.obeys {a : Access} {d d' : Database} {done : List Submitted}
    {r : Except StoreError Unit} (t : Settles a b d done r b' d') (quiet : d.faults = []) :
    d.store.obeyAll a.removeFinished (done.map (·.command)) = (done.map fun _ => r, d'.store) := by
  have takes := t.takes (Database.timely_of_quiet quiet)
  cases r with
  | ok u =>
    have all : d.store.executeAll a.removeFinished (done.map (·.command)) = (.ok (), d'.store) :=
      takes
    rw [Store.obeyAll_of_executeAll all, List.map_map]
    rfl
  | error e =>
    obtain ⟨x, rfl, refused⟩ := t.alone quiet e rfl
    have store : d.store = d'.store := congrArg Prod.snd takes
    rw [← store]
    exact Store.obeyAll_of_error refused

theorem Settles.of_remaining {a : Access} {d d' : Database} {done : List Submitted}
    {r : Except StoreError Unit} (rest : List Submitted) (phase : b'.phase = remaining rest)
    (queue : b'.queue = b.queue)
    (held : b.phase.held = done ++ rest) (fits : rest.length ≤ b'.most)
    (answers : b'.answers = b.answers ++ done.map fun x => (x.ticket, r))
    (takes : d.Timely →
      d.store.executeAll a.removeFinished (effective done r) = (.ok (), d'.store))
    (aside : d.Aside d') (closed : b'.closed = b.closed) (issued : b'.issued = b.issued)
    (answer : r ≠ .error .writerClosed)
    (alone : d.faults = [] → ∀ e, r = .error e →
      ∃ x, done = [x] ∧ (d.store.execute a.removeFinished x.command).1 = .error e) :
    Settles a b d done r b' d' where
  hand := by rw [inHand, inHand, held, phase, remaining_held, queue, List.append_assoc]
  answers := answers
  takes := takes
  aside := aside
  closed := closed
  issued := issued
  sound := remaining_sound rest fits phase
  unclosed _ := answer
  alone := alone

/-- A crash settles all that is in hand, and the store is as before. -/
theorem Settles.of_crash {a : Access} {d d' : Database} (held : b.phase.held = batch)
    (store : d.Timely → d'.store = d.store) (aside : d.Aside d') (loud : ¬ d.Gentle) :
    Settles a b d (batch ++ b.queue) (.error .writerClosed) (b.crash batch) d' where
  hand := by rw [inHand, held]; exact (List.append_nil _).symm
  answers := rfl
  takes timely := by rw [store timely]; rfl
  aside := aside
  closed := rfl
  issued := rfl
  sound := crash_sound b batch
  unclosed h := absurd rfl h
  alone quiet := absurd (Database.gentle_of_quiet quiet) loud

theorem step_settles {a : Access} {d : Database} (time : Nat) (h : b.phase.executes = true)
    (sound : b.Sound) :
    ∃ done r, Settles a b d done r (b.step a time d).1 (b.step a time d).2 := by
  have fits := sound.fits
  cases phase : b.phase with
  | flushing batch =>
    have held : b.phase.held = batch := by rw [phase]; rfl
    have aside := Work.transactAll_aside a (batch.map (·.command)) d
    rw [held] at fits
    rcases hx : (Work.transact (Work.executeAll a (batch.map (·.command)))).on d with
      ⟨(e | m) | u, d'⟩ <;> rw [hx] at aside <;> simp only [step, phase, hx]
    · -- the batch is to be executed command by command
      refine ⟨[], .ok (), .of_remaining batch rfl rfl held fits
        (List.append_nil _).symm ?_ (aside.trans ⟨rfl, rfl, id, id, id⟩) rfl rfl (by simp)
        fun _ _ failed => (by cases failed)⟩
      intro timely
      have store : d'.store = d.store := Work.transactAll_error timely hx
      show (_, d.store) = (_, d'.store)
      rw [store]
    · exact ⟨_, _, .of_crash held (fun timely => Work.transactAll_error timely hx) aside
        fun gentle => Work.transactAll_reports gentle hx⟩
    · exact ⟨batch, .ok (), .of_remaining [] rfl rfl (by rw [held, List.append_nil])
        (Nat.zero_le _) rfl (fun _ => Work.transactAll_ok hx) aside rfl rfl (by simp)
        fun _ _ failed => (by cases failed)⟩
  | retrying rest =>
    have held : b.phase.held = rest := by rw [phase]; rfl
    rw [held] at fits
    cases rest with
    | nil =>
      simp only [step, phase]
      exact ⟨[], .ok (), .of_remaining [] rfl rfl held (Nat.zero_le _)
        (List.append_nil _).symm (fun _ => rfl) (.refl d) rfl rfl (by simp)
        fun _ _ failed => (by cases failed)⟩
    | cons x rest =>
      have fits : rest.length ≤ b.most := Nat.le_of_succ_le fits
      have aside := Work.transactAll_aside a [x.command] d
      have answers := fun quiet => Work.transactOne_answer (a := a) (c := x.command) (d := d) quiet
      rcases hx : (Work.transact (Work.executeAll a [x.command])).on d with ⟨(e | m) | u, d'⟩ <;>
        rw [hx] at aside answers <;> simp only [step, phase, hx]
      · refine ⟨[x], .error e, .of_remaining rest rfl rfl held fits rfl ?_ aside rfl rfl
          ?_ ?_⟩
        · intro timely
          have store : d'.store = d.store := Work.transactAll_error timely hx
          rw [store]
          rfl
        · intro closed
          cases closed
          exact Work.transactAll_open hx
        · rintro quiet _ ⟨⟩
          exact ⟨x, rfl, Work.answer_refused (answers quiet).symm⟩
      · exact ⟨_, _, .of_crash held (fun timely => Work.transactAll_error timely hx) aside
          fun gentle => Work.transactAll_reports gentle hx⟩
      · exact ⟨[x], .ok (), .of_remaining rest rfl rfl held fits rfl
          (fun _ => Work.transactAll_ok hx) aside rfl rfl (by simp)
          fun _ _ failed => (by cases failed)⟩
  | _ => rw [phase] at h; cases h

end Batcher

end Resumption
