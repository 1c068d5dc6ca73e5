import Resumption.Proofs.Storage.Writing

/-!
# The worker of a batching writer

Where a command is between its submission and the answer to it. A batching writer has the commands
in hand that its worker holds and those that stand in line, in the order in which they came. **A
step of the worker settles some commands from the front, all with the same answer, and keeps the
others** (`Batcher.step_served`): either it performed what it settled on the store, or it left the
store alone. Whatever fails, the worker needs only so many steps for what is in hand
(`Batcher.step_distance`).
-/

namespace Resumption

/-- The commands that the worker of a batching writer holds. -/
def WorkerPhase.held : WorkerPhase → List Submitted
  | .collecting batch _ => batch
  | .flushing batch => batch
  | .retrying rest => rest
  | _ => []

namespace Batcher

/-- The commands that were submitted and not answered yet, in order. -/
def inHand (b : Batcher) : List Submitted := b.phase.held ++ b.queue

/-- How the phase, the line and the settings fit together. -/
structure Sound (b : Batcher) : Prop where
  drained : b.isOver = true → b.queue = []
  ended : b.phase = .ended → b.closed = true
  fits : b.phase.held.length ≤ b.most
  room : ∀ batch due, b.phase = .collecting batch due → batch.length < b.most

theorem sound_create (settings : BatchSettings) : (create settings).Sound := by
  unfold create
  split <;> exact ⟨fun _ => rfl, fun h => (nomatch h), Nat.zero_le _, fun _ _ h => (nomatch h)⟩

/-- What a step of the worker does: it settles commands from the front with one answer. -/
structure Served (a : Access) (b : Batcher) (d : Database) (done : List Submitted)
    (r : Except StoreError Unit) (b' : Batcher) (d' : Database) : Prop where
  hand : b.inHand = done ++ b'.inHand
  answers : b'.answers = b.answers ++ done.map fun x => (x.ticket, r)
  granted : r = .ok () →
    d.store.executeAll a.removeFinished (done.map (·.command)) = (.ok (), d'.store)
  denied : r ≠ .ok () → d'.store = d.store
  aside : d.Aside d'
  closed : b'.closed = b.closed
  issued : b'.issued = b.issued
  settings : b'.settings = b.settings
  alone : d.faults = [] → ∀ e, r = .error e →
    ∃ x, done = [x] ∧ (d.store.execute a.removeFinished x.command).1 = .error e
  broken : d.faults = [] → b'.phase = .broken → b.phase = .broken

variable {a : Access} {b : Batcher} {d d' : Database}

theorem Served.still {b' : Batcher} (hand : b'.inHand = b.inHand) (answers : b'.answers = b.answers)
    (store : d'.store = d.store) (aside : d.Aside d') (closed : b'.closed = b.closed)
    (issued : b'.issued = b.issued) (settings : b'.settings = b.settings)
    (broken : b'.phase = .broken → b.phase = .broken) :
    Served a b d [] (.ok ()) b' d' where
  hand := hand.symm
  answers := by rw [answers, List.map_nil, List.append_nil]
  granted _ := by rw [store]; rfl
  denied h := absurd rfl h
  aside := aside
  closed := closed
  issued := issued
  settings := settings
  alone _ _ h := by cases h
  broken _ := broken

theorem fill_held (b : Batcher) (batch : List Submitted) (due : Nat) :
    (b.fill batch due).phase.held = batch ++ b.queue.take (b.most - batch.length) := by
  unfold fill
  dsimp only
  split <;> rfl

theorem fill_inHand (b : Batcher) (batch : List Submitted) (due : Nat) :
    (b.fill batch due).inHand = batch ++ b.queue := by
  rw [inHand, fill_held]
  simp only [fill, List.append_assoc, List.take_append_drop]

theorem fill_served {batch : List Submitted} (due : Nat) (h : b.phase.held = batch) :
    Served a b d [] (.ok ()) (b.fill batch due) d := by
  refine .still (by rw [fill_inHand, inHand, h]) rfl rfl (.refl d) rfl rfl rfl fun hb => ?_
  unfold fill at hb
  dsimp only at hb
  split at hb <;> cases hb

theorem fill_sound {batch : List Submitted} (due : Nat) (h : batch.length ≤ b.most) :
    (b.fill batch due).Sound := by
  refine ⟨fun ho => ?_, fun he => ?_, ?_, fun taken due' hc => ?_⟩
  · unfold fill isOver at ho
    dsimp only at ho
    split at ho <;> cases ho
  · unfold fill at he
    dsimp only at he
    split at he <;> cases he
  · rw [fill_held]
    simp only [List.length_append, List.length_take]
    show _ ≤ b.most
    omega
  · unfold fill at hc
    dsimp only at hc
    split at hc
    · cases hc
    · rename_i hl
      cases hc
      exact Nat.lt_of_not_le hl

theorem crash_served {batch : List Submitted} (hb : b.phase.held = batch)
    (store : d'.store = d.store) (aside : d.Aside d') (loud : ¬ d.Gentle) :
    Served a b d (batch ++ b.queue) (.error .writerClosed) (b.crash batch) d' where
  hand := by rw [inHand, hb]; exact (List.append_nil _).symm
  answers := rfl
  granted h := by cases h
  denied _ := store
  aside := aside
  closed := rfl
  issued := rfl
  settings := rfl
  alone h := absurd (Database.gentle_of_quiet h) loud
  broken h := absurd (Database.gentle_of_quiet h) loud

theorem crash_sound (b : Batcher) (batch : List Submitted) : (b.crash batch).Sound :=
  ⟨fun _ => rfl, fun h => (nomatch h), Nat.zero_le _, fun _ _ h => (nomatch h)⟩

theorem remaining_held (rest : List Submitted) : (remaining rest).held = rest := by
  cases rest <;> rfl

theorem remaining_sound (rest : List Submitted) (h : rest.length ≤ b.most)
    (hp : b.phase = remaining rest) : b.Sound := by
  refine ⟨fun ho => ?_, fun he => ?_, ?_, fun batch due hc => ?_⟩
  · rw [isOver, hp] at ho
    cases rest <;> cases ho
  · rw [hp] at he
    cases rest <;> cases he
  · rw [hp, remaining_held]
    exact h
  · rw [hp] at hc
    cases rest <;> cases hc

theorem remaining_ne_broken (rest : List Submitted) : remaining rest ≠ .broken := by
  cases rest <;> exact fun h => (nomatch h)

/-- Executing a batch settles all of it, or nothing yet, or all that is in hand. -/
theorem flush_served {batch : List Submitted} {time : Nat} (hb : b.Sound) (ht : d.Timely)
    (hp : b.phase = .flushing batch) :
    ∃ done r, Served a b d done r (b.step a time d).1 (b.step a time d).2 ∧
      (b.step a time d).1.Sound := by
  have hl : batch.length ≤ b.most := by have := hb.fits; rwa [hp] at this
  have hh : b.phase.held = batch := by rw [hp]; rfl
  have ha := Work.transactAll_aside a (batch.map (·.command)) d
  rcases hx : (Work.transact (Work.executeAll a (batch.map (·.command)))).on d with
    ⟨(e | m) | u, d'⟩ <;> rw [hx] at ha <;> simp only [step, hp, hx]
  · -- the batch is to be executed command by command
    have hs : d'.store = d.store := Work.transactAll_error ht hx
    refine ⟨[], .ok (), .still ?_ rfl hs
      (ha.trans ⟨rfl, rfl, id, id, id⟩) rfl rfl rfl (fun h => absurd h (remaining_ne_broken _)),
      remaining_sound _ hl rfl⟩
    rw [inHand, inHand, remaining_held, hh]
  · exact ⟨_, _, crash_served hh (Work.transactAll_error ht hx) ha
      (fun hg => Work.transactAll_reports hg hx), crash_sound b batch⟩
  · refine ⟨batch, .ok (), ⟨?_, rfl, fun _ => Work.transactAll_ok hx, fun h => absurd rfl h, ha, rfl,
      rfl, rfl, fun _ _ h => (nomatch h), fun _ h => (nomatch h)⟩,
      remaining_sound [] (Nat.zero_le _) rfl⟩
    rw [inHand, hh]
    rfl

/-- Executing one command of a batch that failed settles it, or all that is in hand. -/
theorem retry_served {x : Submitted} {rest : List Submitted} {time : Nat} (hb : b.Sound)
    (ht : d.Timely) (hp : b.phase = .retrying (x :: rest)) :
    ∃ done r, Served a b d done r (b.step a time d).1 (b.step a time d).2 ∧
      (b.step a time d).1.Sound := by
  have hl : rest.length ≤ b.most := by
    have := hb.fits
    rw [hp] at this
    exact Nat.le_of_succ_le this
  have hh : b.phase.held = x :: rest := by rw [hp]; rfl
  have hand : ∀ r, b.inHand =
      [x] ++ inHand { b.acknowledge [x] r with phase := remaining rest } := by
    intro r
    rw [inHand, inHand, hh, remaining_held]
    rfl
  have ha := Work.transactAll_aside a [x.command] d
  have hq := fun hf => Work.transactOne_answer (a := a) (c := x.command) (d := d) hf
  rcases hx : (Work.transact (Work.executeAll a [x.command])).on d with ⟨(e | m) | u, d'⟩ <;>
    rw [hx] at ha hq <;> simp only [step, hp, hx]
  · exact ⟨[x], .error e, ⟨hand _, rfl, fun h => (nomatch h), fun _ => Work.transactAll_error ht hx,
      ha, rfl, rfl, rfl, fun hf _ he => ⟨x, rfl, he ▸ Work.answer_refused (hq hf).symm⟩,
      fun _ h => absurd h (remaining_ne_broken _)⟩, remaining_sound _ hl rfl⟩
  · exact ⟨_, _, crash_served hh (Work.transactAll_error ht hx) ha
      (fun hg => Work.transactAll_reports hg hx), crash_sound b _⟩
  · exact ⟨[x], .ok (), ⟨hand _, rfl, fun _ => Work.transactAll_ok hx, fun h => absurd rfl h, ha, rfl,
      rfl, rfl, fun _ _ h => (nomatch h), fun _ h => absurd h (remaining_ne_broken _)⟩,
      remaining_sound _ hl rfl⟩

/-- **Step.** The worker settles some commands from the front with one answer and
keeps the others. -/
theorem step_served {time : Nat} {free : Bool} (hb : b.Sound) (hr : b.ready time free = true)
    (ht : d.Timely) :
    ∃ done r, Served a b d done r (b.step a time d).1 (b.step a time d).2 ∧
      (b.step a time d).1.Sound := by
  cases hp : b.phase with
  | idle =>
    simp only [step, hp]
    split
    · rename_i hq
      have hc : b.closed = true := by simpa [ready, hp, hq] using hr
      refine ⟨[], .ok (), .still ?_ rfl rfl (.refl d) rfl rfl rfl (fun h => (nomatch h)), ?_⟩
      · simp only [inHand, hp, WorkerPhase.held]
      · exact ⟨fun _ => List.isEmpty_iff.1 hq, fun _ => hc, Nat.zero_le _, fun _ _ h => (nomatch h)⟩
    · exact ⟨[], .ok (), fill_served _ (by rw [hp]; rfl), fill_sound _ (Nat.zero_le _)⟩
  | collecting batch due =>
    have hl := hb.room batch due hp
    simp only [step, hp]
    split
    · refine ⟨[], .ok (), .still ?_ rfl rfl (.refl d) rfl rfl rfl (fun h => (nomatch h)), ?_⟩
      · simp only [inHand, hp, WorkerPhase.held]
      · exact ⟨fun h => (nomatch h), fun h => (nomatch h), Nat.le_of_lt hl, fun _ _ h => (nomatch h)⟩
    · exact ⟨[], .ok (), fill_served _ (by rw [hp]; rfl), fill_sound _ (Nat.le_of_lt hl)⟩
  | flushing batch => exact flush_served hb ht hp
  | retrying rest =>
    cases rest with
    | nil =>
      simp only [step, hp]
      refine ⟨[], .ok (), .still ?_ rfl rfl (.refl d) rfl rfl rfl (fun h => (nomatch h)),
        remaining_sound [] (Nat.zero_le _) rfl⟩
      simp only [inHand, hp, WorkerPhase.held]
    | cons x rest => exact retry_served hb ht hp
  | ended => rw [ready, hp] at hr; cases hr
  | broken => rw [ready, hp] at hr; cases hr

/-- How many steps the worker needs at most until nothing is in hand. -/
def distance (b : Batcher) : Nat :=
  5 * b.queue.length +
    match b.phase with
    | .collecting batch _ => batch.length + 3
    | .flushing batch => batch.length + 2
    | .retrying rest => rest.length + 1
    | _ => 0

theorem fill_distance {batch : List Submitted} (due : Nat) (hq : b.queue ≠ [])
    (hl : batch.length < b.most) :
    (b.fill batch due).distance < 5 * b.queue.length + batch.length := by
  have hq := List.length_pos_iff.2 hq
  have hd : (b.fill batch due).distance ≤
      5 * (b.queue.drop (b.most - batch.length)).length +
        ((batch ++ b.queue.take (b.most - batch.length)).length + 3) := by
    unfold fill distance
    dsimp only
    split
    · rename_i h
      split at h
      · cases h
      · cases h
        omega
    · rename_i h
      split at h
      · cases h
        omega
      · cases h
    · rename_i h
      split at h <;> cases h
    · omega
  simp only [List.length_append, List.length_take, List.length_drop] at hd
  omega

theorem remaining_distance (rest : List Submitted) (hp : b.phase = remaining rest) :
    b.distance ≤ 5 * b.queue.length + (rest.length + 1) := by
  unfold distance
  rw [hp]
  cases rest <;> simp [remaining]

theorem flush_distance {batch : List Submitted} {a : Access} {time : Nat} {d : Database}
    (hp : b.phase = .flushing batch) : (b.step a time d).1.distance < b.distance := by
  have hb : b.distance = 5 * b.queue.length + (batch.length + 2) := by rw [distance, hp]
  rw [hb]
  rcases hx : (Work.transact (Work.executeAll a (batch.map (·.command)))).on d with
    ⟨(e | m) | u, d'⟩ <;> simp only [step, hp, hx]
  · exact Nat.lt_of_le_of_lt (remaining_distance batch rfl) (by simp)
  · simp only [crash, distance, List.length_nil]
    omega
  · simp [acknowledge, distance]

theorem retry_distance {rest : List Submitted} {a : Access} {time : Nat} {d : Database}
    (hp : b.phase = .retrying rest) : (b.step a time d).1.distance < b.distance := by
  have hb : b.distance = 5 * b.queue.length + (rest.length + 1) := by rw [distance, hp]
  rw [hb]
  cases rest with
  | nil => simp [step, hp, distance]
  | cons x rest =>
    rcases hx : (Work.transact (Work.executeAll a [x.command])).on d with ⟨(e | m) | u, d'⟩ <;>
      simp only [step, hp, hx]
    · exact Nat.lt_of_le_of_lt (remaining_distance rest rfl) (by simp [acknowledge])
    · simp only [crash, distance, List.length_nil]
      omega
    · exact Nat.lt_of_le_of_lt (remaining_distance rest rfl) (by simp [acknowledge])

/-- A worker with commands in hand can go on at some time, and is then closer to its rest. -/
theorem step_distance (hb : b.Sound) (hi : b.inHand ≠ []) :
    ∃ time, b.ready time true = true ∧ ∀ a d, (b.step a time d).1.distance < b.distance := by
  cases hp : b.phase with
  | idle =>
    have hq : b.queue ≠ [] := by simpa [inHand, hp, WorkerPhase.held] using hi
    refine ⟨0, by simp [ready, hp, hq], fun a d => ?_⟩
    have hm : ([] : List Submitted).length < b.most := by
      simp only [most, List.length_nil]
      omega
    have hd : b.distance = 5 * b.queue.length := by rw [distance, hp]; rfl
    have hs : (b.step a 0 d).1 = b.fill [] (0 + b.settings.flushInterval.nanos) := by
      simp [step, hp, hq]
    rw [hs, hd]
    exact fill_distance _ hq hm
  | collecting batch due =>
    refine ⟨due, by simp [ready, hp], fun a d => ?_⟩
    have hd : b.distance = 5 * b.queue.length + (batch.length + 3) := by rw [distance, hp]
    by_cases hq : b.queue = []
    · simp [step, hp, hq, distance]
    · have hs : (b.step a due d).1 = b.fill batch due := by simp [step, hp, hq]
      rw [hs, hd]
      exact Nat.lt_of_lt_of_le (fill_distance due hq (hb.room batch due hp)) (by omega)
  | flushing batch => exact ⟨0, by simp [ready, hp], fun a d => flush_distance hp⟩
  | retrying rest => exact ⟨0, by simp [ready, hp], fun a d => retry_distance hp⟩
  | ended =>
    have hq := hb.drained (by simp [isOver, hp])
    exact absurd (by simp [inHand, hp, hq, WorkerPhase.held]) hi
  | broken =>
    have hq := hb.drained (by simp [isOver, hp])
    exact absurd (by simp [inHand, hp, hq, WorkerPhase.held]) hi

end Batcher

end Resumption
