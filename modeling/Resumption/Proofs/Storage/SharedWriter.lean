import Mathlib.Data.List.Nodup
import Resumption.Proofs.Storage.Turns

/-!
# A batching writer with many callers

Callers come to a batching writer, and the writer is shut down, while its worker goes on. A caller
that comes takes hold of the line, waits for room in it, puts its command in, and waits for the
answer; it may give up at any time. Shutting down is to close the entrance, so that nobody else can
take hold of the line, and then to wait for the worker, which only one call can do. The worker sees
the end of the line when the entrance is closed, nobody is left who could put anything in it, and it
has received all that stood in it.

All of this may happen in any order (`SharedWriter.Move`), also with a batch half collected. The
histories `SharedWriter.accepted` and `SharedWriter.log` keep what was put in line and what was
executed, with the answer that was left. `SharedWriter.does_next` says once what every move does.
-/

namespace Resumption

namespace SharedWriter

/-- How far a caller has got. -/
inductive Stage where
  /-- It has hold of the line and waits for room in it. -/
  | holding
  /-- Its command was put in line, and it waits for the answer. -/
  | waiting
  | told (result : Except StoreError Unit)
  /-- It gave up. -/
  | gone
  deriving DecidableEq

/-- Someone who submits a command. It has a ticket from when the command was put in line. -/
structure Caller where
  command : Command
  ticket : Option Nat
  stage : Stage

def Caller.submission? (x : Caller) : Option Submitted := x.ticket.map fun t => ⟨t, x.command⟩

/-- Someone who shuts the writer down. -/
inductive Closer where
  /-- It has closed the entrance. -/
  | closing
  /-- It got hold of the worker and waits for it. -/
  | joining
  /-- It has returned, and has waited for the worker or not. -/
  | back (waited : Bool)
  deriving DecidableEq, Repr

/-- What may happen. A caller and a closer are named by their places. -/
inductive Move where
  /-- Somebody comes with a command, and takes hold of the line if the entrance is open. -/
  | call (c : Command)
  /-- A caller puts its command in line. -/
  | send (place : Nat)
  /-- A caller takes its answer. -/
  | hear (place : Nat)
  /-- A caller gives up. -/
  | abandon (place : Nat)
  /-- The worker receives a command. -/
  | receive (time : Nat)
  /-- The window of the batch is over. -/
  | expire
  /-- The worker sees the end of the line. -/
  | notice
  /-- The worker executes a batch, or the next command of one that failed. -/
  | flush
  /-- Somebody shuts the writer down, and closes the entrance first. -/
  | shutdown
  /-- A closer takes the worker, if nobody else has. -/
  | take (place : Nat)
  /-- A closer that waits for the worker finds it done. -/
  | join (place : Nat)
  /-- Finished instances are removed from now on, or are not. -/
  | configure (remove : Bool)
  /-- The clock is set, and other faults are planned. -/
  | weather (faults : List Fault) (clock : Instant)

/-- No commit is planned to fail after it took effect. -/
def Move.Timely : Move → Prop
  | .weather faults _ => ∀ f ∈ faults, f.method = .commit → f.after = false
  | _ => True

/-- No call is planned to fail, and the setting for removal stays. -/
def Move.Quiet : Move → Prop
  | .weather faults _ => faults = []
  | .configure _ => False
  | _ => True

/-- The callers and the worker go on by this move, without anybody giving up. -/
def Move.Serves : Move → Prop
  | .send _ | .hear _ | .receive _ | .expire | .flush => True
  | _ => False

/-- Somebody shuts the writer down by this move. -/
def Move.Closes : Move → Prop
  | .shutdown | .take _ | .join _ => True
  | _ => False

end SharedWriter

/-- A batching writer over its database, with all that have come to it. -/
structure SharedWriter where
  access : Access
  batcher : Batcher
  database : Database
  /-- The entrance is closed. -/
  shut : Bool
  /-- Nobody has taken the worker yet. -/
  handle : Bool
  callers : List SharedWriter.Caller
  closers : List SharedWriter.Closer
  /-- What was put in line, in order. -/
  accepted : List Submitted
  /-- What was executed, in order, with the answer that was left. -/
  log : List (Submitted × Except StoreError Unit)

namespace SharedWriter

def create (settings : BatchSettings) (a : Access) (d : Database) : SharedWriter :=
  { access := a, batcher := .create settings, database := d, shut := false, handle := true
    callers := [], closers := [], accepted := [], log := [] }

def room (h : SharedWriter) : Bool := h.batcher.queue.length < max 1 h.batcher.settings.capacity.toNat

/-- A caller puts its command in line, or finds that the writer is gone. -/
def enter (h : SharedWriter) (place : Nat) (c : Command) : SharedWriter :=
  match h.batcher.submit c with
  | (some t, b) =>
    { h with
      batcher := b
      callers := h.callers.set place ⟨c, some t, .waiting⟩
      accepted := h.accepted ++ [⟨t, c⟩] }
  | (none, _) =>
    { h with callers := h.callers.set place ⟨c, none, .told (.error .writerClosed)⟩ }

/-- The worker executes, and its answers are left. -/
def execute (h : SharedWriter) : SharedWriter :=
  let (b, d) := h.batcher.step h.access 0 h.database
  { h with
    batcher := b
    database := d
    log := h.log ++
      h.batcher.inHand.zipWith (fun x y => (x, y.2)) (b.answers.drop h.batcher.answers.length) }

/-- The line is at an end. A caller keeps its hold of the line until it has its answer, so the
worker may see this later than here; but nobody who waits for an answer puts anything in line. -/
def Ended (h : SharedWriter) : Prop :=
  h.shut = true ∧ h.batcher.queue = [] ∧ ∀ x ∈ h.callers, x.stage ≠ .holding

instance (h : SharedWriter) : Decidable h.Ended :=
  have (x : Caller) : Decidable (x.stage ≠ .holding) :=
    match x.stage with
    | .holding => isFalse fun h => h rfl
    | .waiting | .told _ | .gone => isTrue fun h => nomatch h
  inferInstanceAs (Decidable (_ ∧ _ ∧ _))

/-- What a move makes of the writer and its callers. Whoever cannot move does not. -/
def next (h : SharedWriter) : Move → SharedWriter
  | .call c =>
    if h.shut then
      { h with callers := h.callers ++ [⟨c, none, .told (.error .writerClosed)⟩] }
    else { h with callers := h.callers ++ [⟨c, none, .holding⟩] }
  | .send place =>
    match h.callers[place]? with
    | some ⟨c, _, .holding⟩ => if h.batcher.isOver || h.room then h.enter place c else h
    | _ => h
  | .hear place =>
    match h.callers[place]? with
    | some ⟨c, some t, .waiting⟩ =>
      match h.batcher.answer? t with
      | some r =>
        { h with
          batcher := h.batcher.forget t
          callers := h.callers.set place ⟨c, some t, .told r⟩ }
      | none => h
    | _ => h
  | .abandon place =>
    match h.callers[place]? with
    | some ⟨c, t, .holding⟩ | some ⟨c, t, .waiting⟩ =>
      { h with callers := h.callers.set place ⟨c, t, .gone⟩ }
    | _ => h
  | .receive time => { h with batcher := h.batcher.receive time }
  | .expire => { h with batcher := h.batcher.expire }
  | .notice => if h.Ended then { h with batcher := h.batcher.notice } else h
  | .flush => if h.batcher.phase.executes then h.execute else h
  | .shutdown => { h with shut := true, closers := h.closers ++ [.closing] }
  | .take place =>
    match h.closers[place]? with
    | some .closing =>
      if h.handle then { h with handle := false, closers := h.closers.set place .joining }
      else { h with closers := h.closers.set place (.back false) }
    | _ => h
  | .join place =>
    match h.closers[place]? with
    | some .joining =>
      if h.batcher.isOver then { h with closers := h.closers.set place (.back true) } else h
    | _ => h
  | .configure remove => { h with access := { h.access with removeFinished := remove } }
  | .weather faults clock => { h with database := { h.database with faults, clock } }

def after (h : SharedWriter) (ms : List Move) : SharedWriter := ms.foldl next h

/-! ## What a move does -/

theorem zip_answers (done rest : List Submitted) (r : Except StoreError Unit) :
    (done ++ rest).zipWith (fun x (y : Nat × Except StoreError Unit) => (x, y.2))
      (done.map fun x => (x.ticket, r)) = done.map fun x => (x, r) := by
  induction done with
  | nil => exact List.zipWith_nil_right
  | cons x xs ih => simp [ih]

theorem execute_cases {h : SharedWriter} (sound : h.batcher.Sound)
    (executes : h.batcher.phase.executes = true) :
    ∃ done r b d, Batcher.Settles h.access h.batcher h.database done r b d ∧
      b.distance < h.batcher.distance ∧
      h.execute = { h with
        batcher := b
        database := d
        log := h.log ++ done.map fun x => (x, r) } := by
  obtain ⟨done, r, settles⟩ :=
    Batcher.step_settles (a := h.access) (d := h.database) 0 executes sound
  refine ⟨done, r, _, _, settles, Batcher.step_executes_distance executes, ?_⟩
  have added : h.batcher.inHand.zipWith (fun x y => (x, y.2))
      ((h.batcher.step h.access 0 h.database).1.answers.drop h.batcher.answers.length) =
        done.map fun x => (x, r) := by
    rw [settles.answers, List.drop_left, settles.hand, zip_answers]
  rw [← added]
  rfl

/-- What a move does. -/
inductive Does (h : SharedWriter) : Move → SharedWriter → Prop where
  | nothing (m : Move) : Does h m h
  /-- Somebody comes before the entrance is closed. -/
  | came (c : Command) (shut : h.shut = false) :
      Does h (.call c) { h with callers := h.callers ++ [⟨c, none, .holding⟩] }
  | late (c : Command) (shut : h.shut = true) :
      Does h (.call c) { h with callers := h.callers ++ [⟨c, none, .told (.error .writerClosed)⟩] }
  | queued {place : Nat} {c : Command} {t : Option Nat}
      (found : h.callers[place]? = some ⟨c, t, .holding⟩) (not_closed : h.batcher.closed = false)
      (whole : h.batcher.phase ≠ .broken) :
      Does h (.send place)
        { h with
          batcher := h.batcher.queued c
          callers := h.callers.set place ⟨c, some h.batcher.issued, .waiting⟩
          accepted := h.accepted ++ [⟨h.batcher.issued, c⟩] }
  /-- The writer is closed or gone. -/
  | refused {place : Nat} {c : Command} {t : Option Nat}
      (found : h.callers[place]? = some ⟨c, t, .holding⟩) :
      Does h (.send place)
        { h with callers := h.callers.set place ⟨c, none, .told (.error .writerClosed)⟩ }
  | heard {place : Nat} {c : Command} {t : Nat} {r : Except StoreError Unit}
      (found : h.callers[place]? = some ⟨c, some t, .waiting⟩)
      (answer : h.batcher.answer? t = some r) :
      Does h (.hear place)
        { h with
          batcher := h.batcher.forget t
          callers := h.callers.set place ⟨c, some t, .told r⟩ }
  | gaveUp {place : Nat} {x : Caller} (found : h.callers[place]? = some x)
      (there : x.stage = .holding ∨ x.stage = .waiting) :
      Does h (.abandon place) { h with callers := h.callers.set place { x with stage := .gone } }
  /-- The worker goes on and executes nothing. -/
  | turned {m : Move} {b : Batcher} (turns : h.batcher.Turns b)
      (closed : b.closed = true → h.batcher.closed = true ∨ h.Ended)
      (closer : m.Serves → b.distance < h.batcher.distance) : Does h m { h with batcher := b }
  /-- The worker executes. -/
  | settled {done : List Submitted} {r : Except StoreError Unit} {b : Batcher} {d : Database}
      (executes : h.batcher.phase.executes = true)
      (settles : Batcher.Settles h.access h.batcher h.database done r b d)
      (closer : b.distance < h.batcher.distance) :
      Does h .flush
        { h with batcher := b, database := d, log := h.log ++ done.map fun x => (x, r) }
  | shut : Does h .shutdown { h with shut := true, closers := h.closers ++ [.closing] }
  | took {place : Nat} (found : h.closers[place]? = some .closing) (free : h.handle = true) :
      Does h (.take place) { h with handle := false, closers := h.closers.set place .joining }
  | missed {place : Nat} (found : h.closers[place]? = some .closing) (taken : h.handle = false) :
      Does h (.take place) { h with closers := h.closers.set place (.back false) }
  | joined {place : Nat} (found : h.closers[place]? = some .joining)
      (done : h.batcher.isOver = true) :
      Does h (.join place) { h with closers := h.closers.set place (.back true) }
  | configured (remove : Bool) :
      Does h (.configure remove) { h with access := { h.access with removeFinished := remove } }
  | weathered (faults : List Fault) (clock : Instant) :
      Does h (.weather faults clock) { h with database := { h.database with faults, clock } }

theorem does_send {h : SharedWriter} (place : Nat) : Does h (.send place) (h.next (.send place)) := by
  simp only [next]
  split
  · next c t found =>
    split
    · rcases h.batcher.submit_cases c with ⟨not_closed, whole, entered⟩ | ⟨-, refused⟩
      · simp only [enter, entered]
        exact .queued found not_closed whole
      · simp only [enter, refused]
        exact .refused found
    · exact .nothing _
  · exact .nothing _

theorem does_receive {h : SharedWriter} (time : Nat) : Does h (.receive time) (h.next (.receive time)) := by
  have same : ∀ {b : Batcher}, h.batcher.receive time = b → b = h.batcher →
      Does h (.receive time) (h.next (.receive time)) := by
    rintro b received rfl
    simp only [next, received]
    exact .nothing _
  cases collects : h.batcher.collects time with
  | none => exact same (Batcher.receives_busy collects 1) rfl
  | some collected =>
    by_cases line : h.batcher.queue = []
    · refine same (b := h.batcher) ?_ rfl
      simp only [Batcher.receive, collects, line]
    · refine .turned (h.batcher.receive_turns time) (fun closed => .inl ?_) fun _ =>
        Batcher.receive_distance collects line
      rwa [Batcher.receive_closed] at closed

theorem does_expire {h : SharedWriter} : Does h .expire (h.next .expire) := by
  cases phase : h.batcher.phase with
  | collecting batch due =>
    refine .turned h.batcher.expire_turns (fun closed => .inl ?_) fun _ =>
      Batcher.expire_distance phase
    rwa [Batcher.expire_closed] at closed
  | _ =>
    have same : h.batcher.expire = h.batcher := by simp only [Batcher.expire, phase]
    simp only [next, same]
    exact .nothing _

/-- **What every move does.** -/
theorem does_next {h : SharedWriter} (sound : h.batcher.Sound) (m : Move) : Does h m (h.next m) := by
  cases m with
  | call c =>
    simp only [next]
    split
    · next shut => exact .late c shut
    · next not_shut => exact .came c (by simpa using not_shut)
  | send place => exact does_send place
  | hear place =>
    simp only [next]
    split
    · next c t found =>
      split
      · next r answer => exact .heard found answer
      · exact .nothing _
    · exact .nothing _
  | abandon place =>
    simp only [next]
    split
    · next c t found => exact .gaveUp found (.inl rfl)
    · next c t found => exact .gaveUp found (.inr rfl)
    · exact .nothing _
  | receive time => exact does_receive time
  | expire => exact does_expire
  | notice =>
    simp only [next]
    split
    · next ended =>
      exact .turned (Batcher.notice_turns ended.2.1) (fun _ => .inr ended) fun serves => serves.elim
    · exact .nothing _
  | flush =>
    simp only [next]
    split
    · next executes =>
      obtain ⟨done, r, b, d, settles, closer, executed⟩ := execute_cases sound executes
      rw [executed]
      exact .settled executes settles closer
    · exact .nothing _
  | shutdown => exact .shut
  | take place =>
    simp only [next]
    split
    · next found =>
      split
      · next free => exact .took found free
      · next not_free => exact .missed found (by simpa using not_free)
    · exact .nothing _
  | join place =>
    simp only [next]
    split
    · next found =>
      split
      · next done => exact .joined found done
      · exact .nothing _
    · exact .nothing _
  | configure remove => exact .configured remove
  | weather faults clock => exact .weathered faults clock

end SharedWriter

end Resumption
