import Resumption.Proofs.Storage.Interference
import Resumption.Proofs.Storage.Conduct

/-!
# Recording what became of an instance

A recording is a call that records what became of an instance: that it is finished, that it failed,
or that it waits. Its caller hands a command to the writer and goes on with the answer; where a finish
is refused, it hands over a second command, that the instance failed. Others come in between as they
like (`Interference`).

A recording keeps what the writer answered (`Recording.answers`), and **it ends according to these
answers** (`Storage.Ends`): the store has gone through the actions that were granted and no others
of the caller, the history has one event for each of them, and each refusal is told, as an error or
to the caller. `Recording.Course` is the invariant; every recording comes to its end
(`Course.finishes`).
-/

namespace Resumption

namespace Storage

/-! ## What the writer answers -/

/-- What the caller of a command hears when it goes on. A caller that crashes hears nothing. -/
def answer? (s : Storage) (d : Database) : Passage → Option (Except StoreError Unit)
  | .alone c =>
    match ((Work.transact (Work.executeAll s.access [c])).on d).1 with
    | .ok () => some (.ok ())
    | .error (.refused e) => some (.error e)
    | .error (.crashed _) => none
  | .inLine ticket => s.batcher.bind fun w => w.answer? ticket

/-- What is heard at once when a command is brought. -/
def refusal (s : Storage) : List (Except StoreError Unit) :=
  if s.turnsAway then [.error .writerClosed] else []

/-- An answer with what is heard right after it: a finish that is refused goes on as a failure. -/
def heard (s : Storage) : Purpose → Except StoreError Unit → List (Except StoreError Unit)
  | .finish _, .error e => .error e :: s.refusal
  | _, r => [r]

/-- What a command of the call is written for, if the call brings one. -/
def Call.purpose? : Call → Option Purpose
  | .suspend w => w.callback.map fun _ => .suspend w
  | .fail w _ => w.id.map fun _ => .fail w
  | .finish w => w.id.map fun _ => .finish w
  | _ => none

def heardFirst (s : Storage) (c : Call) : List (Except StoreError Unit) :=
  match c.purpose? with
  | none => []
  | some p => s.refusal.flatMap (s.heard p)

def heardNext (s : Storage) (d : Database) : Phase → List (Except StoreError Unit)
  | .writing p c =>
    match s.answer? d c with
    | some r => s.heard p r
    | none => []
  | _ => []

/-- The call records what became of an instance. -/
def Call.Records : Call → Prop
  | .suspend _ | .fail _ _ | .finish _ => True
  | _ => False

end Storage

/-- What the history says of an instance, if it has an id and somebody monitors it. -/
def Workflow.history (w : Workflow) (monitored : Bool) (m : Milestone) : List Event :=
  match w.id with
  | some id => if monitored then [.passed m id w.type] else []
  | none => []

theorem Storage.pass_notes (s : Storage) (d : Database) (m : Milestone) (w : Workflow) :
    (s.pass d m w).notes = w.history s.monitored m ++ d.notes := by
  unfold Storage.pass Workflow.history
  cases w.id with
  | none => rfl
  | some id =>
    unfold Storage.report
    cases s.monitored with
    | true => exact d.notes_tell (e := .passed m id w.type) rfl
    | false => rfl

/-- A call that records what became of an instance, at its storage. -/
structure Recording where
  storage : Storage
  database : Database
  progress : Storage.Progress
  /-- What the writer has answered to the call so far. -/
  answers : List (Except StoreError Unit)

namespace Recording

open Storage (Call Phase Purpose Passage Progress)

def begin (s : Storage) (d : Database) (c : Call) : Recording :=
  let (progress, storage, database) := s.begin d c
  ⟨storage, database, progress, s.heardFirst c⟩

/-- What can happen while the call is under way. -/
inductive Move where
  /-- The call goes on if it can. -/
  | goesOn
  /-- Others do something. -/
  | around (m : Interference)

def Move.Within (b : Bounds) : Move → Prop
  | .goesOn => True
  | .around m => m.Within b

/-- A move of the worker or of the caller. -/
def Move.Serves : Move → Prop
  | .goesOn => True
  | .around (.works _) => True
  | _ => False

def own? (k : Recording) : Option Nat :=
  match k.progress with
  | .going (.writing _ p) => p.ticket?
  | _ => none

def next (k : Recording) : Move → Recording
  | .goesOn =>
    match k.progress with
    | .going p =>
      if k.storage.ready k.database.held.isNone p then
        let (progress, storage, database) := k.storage.advance 0 k.database p
        ⟨storage, database, progress, k.answers ++ k.storage.heardNext k.database p⟩
      else k
    | .over _ => k
  | .around m =>
    let (storage, database) := m.next k.own? k.storage k.database
    { k with storage, database }

def after (k : Recording) (ms : List Move) : Recording := ms.foldl next k

theorem after_append (k : Recording) (ms ms' : List Move) :
    k.after (ms ++ ms') = (k.after ms).after ms' := List.foldl_append

end Recording

namespace Storage

/-! ## How calls end -/

/-- How the end of a recording agrees with what the writer answered: what the caller did to the
store, and what was noted, latest first. -/
inductive Ends (removal : Bool → Prop) (monitored : Bool) :
    Call → List (Except StoreError Unit) → Reply → List Action → List Event → Prop where
  | suspended {w : Workflow} {c : Callback} (hc : w.callback = some c) :
      Ends removal monitored (.suspend w) [.ok ()]
        (.suspended { w with callback := none, stage := .waiting }) [.suspend c w.payload]
        (w.history monitored .waiting)
  | refused {w : Workflow} {c : Callback} (hc : w.callback = some c) (e : StoreError) :
      Ends removal monitored (.suspend w) [.error e] (.refused e) [] []
  | purposeless {w : Workflow} (hc : w.callback = none) :
      Ends removal monitored (.suspend w) []
        (.refused (.invalidArgument "instance has no register call")) [] []
  | failed {w : Workflow} {id : Uuid} (hid : w.id = some id) (cause : String) :
      Ends removal monitored (.fail w cause) [.ok ()] .done [.fail id cause]
        (w.history monitored .error)
  | failLost {w : Workflow} {id : Uuid} (hid : w.id = some id) (cause : String) (e : StoreError) :
      Ends removal monitored (.fail w cause) [.error e] .done []
        [.fault "failed to record workflow error"]
  | failNameless {w : Workflow} (hid : w.id = none) (cause : String) :
      Ends removal monitored (.fail w cause) [] .done []
        [.fault "cannot record error: instance has no id"]
  | finished {w : Workflow} {id : Uuid} {remove : Bool} (hid : w.id = some id)
      (hr : removal remove) :
      Ends removal monitored (.finish w) [.ok ()] .done [.finish remove id]
        (w.history monitored .finished)
  | finishFailed {w : Workflow} {id : Uuid} (hid : w.id = some id) (e : StoreError) :
      Ends removal monitored (.finish w) [.error e, .ok ()] .done
        [.fail id ("finish failed: " ++ e.message)]
        (w.history monitored .error ++ [.fault "failed to finish workflow instance"])
  | finishLost {w : Workflow} {id : Uuid} (hid : w.id = some id) (e e' : StoreError) :
      Ends removal monitored (.finish w) [.error e, .error e'] .done []
        [.fault "failed to record workflow error", .fault "failed to finish workflow instance"]
  | finishNameless {w : Workflow} (hid : w.id = none) :
      Ends removal monitored (.finish w) [] .done []
        [.fault "cannot finish: instance has no id"]

/-- A call attempts a command, after what the writer has answered so far. -/
inductive Attempts : Call → Purpose → Command → List (Except StoreError Unit) → List Event → Prop
    where
  | suspend {w : Workflow} {c : Callback} (hc : w.callback = some c) :
      Attempts (.suspend w) (.suspend w) (.suspend c w.payload) [] []
  | fail {w : Workflow} {id : Uuid} (hid : w.id = some id) (cause : String) :
      Attempts (.fail w cause) (.fail w) (.fail id cause) [] []
  | finish {w : Workflow} {id : Uuid} (hid : w.id = some id) :
      Attempts (.finish w) (.finish w) (.finish id) [] []
  | fallback {w : Workflow} {id : Uuid} (hid : w.id = some id) (e : StoreError) :
      Attempts (.finish w) (.fail w) (.fail id ("finish failed: " ++ e.message)) [.error e]
        [.fault "failed to finish workflow instance"]

end Storage

namespace Interference

open Storage (Passage Purpose)

variable {b : Bounds} {before : Store} {c : Command} {p : Passage} {s : Storage} {d : Database}

theorem Room.told {own : Option Nat} {d' : Database} (h : Room b own s d) (ht : d.Told d') :
    Room b own s d' := by
  obtain ⟨journal, rfl⟩ := ht
  exact ⟨h.free, h.timely, h.gentle, h.removal, h.tidy, h.strangers⟩

/-- What a caller who goes on with its command meets. -/
inductive Meets (b : Bounds) (before : Store) (c : Command) (p : Passage) (s : Storage)
    (d : Database) (q : Purpose) : Prop where
  | answered {r : Except StoreError Unit} {s' : Storage} {d' : Database} {acts : List Action}
      (ha : s.answer? d p = some r) (hw : s.write d q p = s'.acknowledge d' q r)
      (room : Room b none s' d') (carried : c.Carried b.removal (some r) acts)
      (chain : before.Amid b.foreign acts d'.store) (notes : d'.notes = d.notes)
      (akin : s.Akin s') (door : s'.turnsAway = s.turnsAway)
  | crashed {m : String} {d' : Database} (ha : s.answer? d p = none)
      (hw : s.write d q p = (.over (.crashed m), s, d')) (direct : s.batcher = none)
      (loud : ¬ b.calm) (room : Room b none s d') (chain : before.Amid b.foreign [] d'.store)
      (notes : d'.notes = d.notes)

/-- A command with a transaction of its own is executed when its caller goes on. -/
theorem Room.executes (h : Room b none s d) (hs : s.batcher = none)
    (hc : before.Amid b.foreign [] d.store) (q : Purpose) :
    Meets b before c (.alone c) s d q := by
  have aside := Work.transactAll_aside s.access [c] d
  have mute := Work.mute_transactAll s.access [c] d
  rcases ht : (Work.transact (Work.executeAll s.access [c])).on d with ⟨(e | m) | u, d'⟩ <;>
    rw [ht] at aside mute
  all_goals
    have room : Room b none s d' := ⟨aside.held.trans h.free, aside.timely h.timely,
      fun hc => aside.gentle (h.gentle hc), h.removal, h.tidy, h.strangers⟩
  · have same := Work.transactAll_error h.timely ht
    exact .answered (by simp only [Storage.answer?, ht]) (by simp only [Storage.write, ht]) room
      (.denied e) (same ▸ hc) mute (.refl s) rfl
  · have same := Work.transactAll_error h.timely ht
    exact .crashed (m := m) (by simp only [Storage.answer?, ht]) (by simp only [Storage.write, ht])
      hs (fun hc => Work.transactAll_reports (h.gentle hc) ht) room (same ▸ hc) mute
  · have ha : d.store.act (c.action s.access.removeFinished) = (.ok .done, d'.store) := by
      rw [Store.act_action, Work.transactOne_ok ht]
      rfl
    exact .answered (by simp only [Storage.answer?, ht]) (by simp only [Storage.write, ht]) room
      (.granted h.removal) (hc.append (.own ha (.nil _))) mute (.refl s) rfl

/-- A caller who can go on with its command executes it or takes its answer. -/
theorem Underway.meets (h : Underway b before c p s d) (q : Purpose)
    (ready : s.ready d.held.isNone (.writing q p) = true) : Meets b before c p s d q := by
  obtain ⟨answer, acts, hp, hr, hc⟩ := h.stands
  cases hp with
  | alone hs =>
    cases hr
    exact h.room.executes hs hc q
  | inHand hs hx hxc =>
    have := (h.room.tidy _ hs).unanswered _ hx
    simp [Storage.ready, hs, this] at ready
  | @answered w t r hs ha =>
    have answer : s.answer? d (.inLine t) = some r := by
      simp only [Storage.answer?, hs, Option.bind_some, ha]
    have write : s.write d q (.inLine t) =
        Storage.acknowledge { s with batcher := some (w.forget t) } d q r := by
      simp only [Storage.write, hs, Option.bind_some, ha, Option.map_some]
    have door : Storage.turnsAway { s with batcher := some (w.forget t) } = s.turnsAway := by
      simp only [Storage.turnsAway, hs, Batcher.forget]
    exact .answered answer write (h.room.taken hs ha) hr hc rfl (Storage.akin_writer hs _) door

end Interference

namespace Recording

open Storage (Call Phase Purpose Passage Progress)

/-! ## The course of a recording -/

/-- How far a recording has got since the storage was `origin` and the database `start`. -/
inductive Course (b : Bounds) (origin : Storage) (start : Database) (call : Call) :
    Recording → Prop where
  /-- A command is under way. -/
  | attempts {k : Recording} {p : Purpose} {c : Command} {q : Passage} {notes : List Event}
      (progress : k.progress = .going (.writing p q))
      (attempt : Storage.Attempts call p c k.answers notes)
      (underway : Interference.Underway b start.store c q k.storage k.database)
      (told : k.database.notes = notes ++ start.notes)
      (akin : origin.Akin k.storage) : Course b origin start call k
  | ended {k : Recording} {reply : Storage.Reply} {acts : List Action} {notes : List Event}
      (progress : k.progress = .over reply)
      (ends : Storage.Ends b.removal origin.monitored call k.answers reply acts notes)
      (room : Interference.Room b none k.storage k.database)
      (chain : start.store.Amid b.foreign acts k.database.store)
      (told : k.database.notes = notes ++ start.notes) : Course b origin start call k
  /-- The caller crashed over a command. -/
  | crashed {k : Recording} {p : Purpose} {c : Command} {m : String} {notes : List Event}
      (progress : k.progress = .over (.crashed m))
      (attempt : Storage.Attempts call p c k.answers notes) (loud : ¬ b.calm)
      (direct : origin.batcher = none) (room : Interference.Room b none k.storage k.database)
      (chain : start.store.Amid b.foreign [] k.database.store)
      (told : k.database.notes = notes ++ start.notes) : Course b origin start call k

variable {b : Bounds} {origin : Storage} {start : Database} {call : Call} {k : Recording}
  {p : Purpose} {c : Command} {q : Passage} {answers : List (Except StoreError Unit)}
  {notes : List Event} {s : Storage} {d : Database}

/-- The recording of a failure begins, or finds that the writer takes no more. -/
theorem Course.fails {w : Workflow} {id : Uuid} {cause : String} (hid : w.id = some id)
    (attempt : Storage.Attempts call (.fail w) (.fail id cause) answers notes)
    (lost : ∀ e, Storage.Ends b.removal origin.monitored call (answers ++ [.error e]) .done []
      (.fault "failed to record workflow error" :: notes))
    (room : Interference.Room b none s d) (chain : start.store.Amid b.foreign [] d.store)
    (told : d.notes = notes ++ start.notes) (akin : origin.Akin s) :
    Course b origin start call ⟨(s.beginFail d w cause).2.1, (s.beginFail d w cause).2.2,
      (s.beginFail d w cause).1, answers ++ s.refusal⟩ := by
  rcases room.enters (.fail id cause) with ⟨q, s', he, hdoor, akin', room', post⟩ | ⟨he, hdoor⟩
  · have ha : answers ++ s.refusal = answers := by
      rw [Storage.refusal, hdoor]
      exact List.append_nil _
    simp only [Storage.beginFail, hid, he, ha]
    exact .attempts rfl attempt ⟨room', none, [], post, .waits, chain⟩ told (akin.trans akin')
  · have ha : s.refusal = [.error .writerClosed] := by rw [Storage.refusal, hdoor]; rfl
    simp only [Storage.beginFail, hid, he, ha, Storage.failWritten]
    refine .ended rfl (lost .writerClosed) (room.told (d.told_tell _)) chain ?_
    rw [Database.notes_tell _ rfl, told, List.cons_append]

theorem Course.fallsBack {w : Workflow} {id : Uuid} (hid : w.id = some id) (e : StoreError)
    (room : Interference.Room b none s d) (chain : start.store.Amid b.foreign [] d.store)
    (told : d.notes = start.notes) (akin : origin.Akin s) :
    Course b origin start (.finish w) ⟨(s.acknowledge d (.finish w) (.error e)).2.1,
      (s.acknowledge d (.finish w) (.error e)).2.2, (s.acknowledge d (.finish w) (.error e)).1,
      .error e :: s.refusal⟩ := by
  refine .fails hid (.fallback hid e) (fun e' => .finishLost hid e e')
    (room.told (d.told_tell _)) chain ?_ akin
  rw [Database.notes_tell _ rfl, told, List.singleton_append]

/-- **An answer.** A command that was answered brings the recording to its end, or to its second
command. -/
theorem Course.acknowledged {r : Except StoreError Unit} {acts : List Action}
    (attempt : Storage.Attempts call p c answers notes) (room : Interference.Room b none s d)
    (carried : c.Carried b.removal (some r) acts) (chain : start.store.Amid b.foreign acts d.store)
    (told : d.notes = notes ++ start.notes) (akin : origin.Akin s) :
    Course b origin start call ⟨(s.acknowledge d p r).2.1, (s.acknowledge d p r).2.2,
      (s.acknowledge d p r).1, answers ++ s.heard p r⟩ := by
  -- what is told does not matter to what others do
  have passes : ∀ m w, Interference.Room b none s (s.pass d m w) ∧ (s.pass d m w).store = d.store := by
    intro m w
    have ht := s.pass_told d m w
    exact ⟨room.told ht, ht.store⟩
  have passed : ∀ {reply}, ∀ m w,
      Storage.Ends b.removal origin.monitored call (answers ++ [.ok ()]) reply acts
        (w.history origin.monitored m ++ notes) →
      Course b origin start call ⟨s, s.pass d m w, .over reply, answers ++ [.ok ()]⟩ := by
    intro reply m w ends
    refine .ended rfl ends (passes m w).1 ((passes m w).2 ▸ chain) ?_
    rw [s.pass_notes, akin.monitored, told, List.append_assoc]
  cases attempt with
  | @suspend w callback hc =>
    cases carried with
    | granted hr =>
      exact passed .waiting { w with callback := none, stage := .waiting }
        ((List.append_nil (w.history origin.monitored .waiting)).symm ▸ .suspended hc)
    | denied e => exact .ended rfl (.refused hc e) room chain told
  | @fail w id hid cause =>
    cases carried with
    | granted hr =>
      exact passed .error w
        ((List.append_nil (w.history origin.monitored .error)).symm ▸ .failed hid cause)
    | denied e =>
      refine .ended rfl (.failLost hid cause e) (room.told (d.told_tell _)) chain ?_
      rw [Storage.acknowledge, Storage.failWritten, Database.notes_tell _ rfl, told]
      rfl
  | @finish w id hid =>
    cases carried with
    | granted hr =>
      exact passed .finished w
        ((List.append_nil (w.history origin.monitored .finished)).symm ▸ .finished hid hr)
    | denied e => exact .fallsBack hid e room chain told akin
  | @fallback w id hid e =>
    cases carried with
    | granted hr => exact passed .error w (.finishFailed hid e)
    | denied e' =>
      refine .ended rfl (.finishLost hid e e') (room.told (d.told_tell _)) chain ?_
      rw [Storage.acknowledge, Storage.failWritten, Database.notes_tell _ rfl, told]
      rfl

/-- **A call comes.** -/
theorem Course.begin (records : call.Records) (room : Interference.Room b none s d) :
    Course b s d call (Recording.begin s d call) := by
  -- a command that the writer takes is under way, and one that it turns away was answered
  have writes : ∀ {p c}, Storage.Attempts call p c [] [] →
      s.begin d call = s.beginWrite d p c → s.heardFirst call = s.refusal.flatMap (s.heard p) →
      Course b s d call (Recording.begin s d call) := by
    intro p c attempt hb hf
    rcases room.enters c with ⟨q, s', he, hdoor, akin', room', post⟩ | ⟨he, hdoor⟩
    · have ha : s.heardFirst call = [] := by rw [hf, Storage.refusal, hdoor]; rfl
      simp only [Recording.begin, hb, Storage.beginWrite, he, ha]
      exact .attempts rfl attempt ⟨room', none, [], post, .waits, .nil _⟩ rfl akin'
    · have ha : s.heardFirst call = [] ++ s.heard p (.error .writerClosed) := by
        rw [hf, Storage.refusal, hdoor]
        exact List.append_nil _
      simp only [Recording.begin, hb, Storage.beginWrite, he, ha]
      exact .acknowledged attempt room (.denied _) (.nil _) rfl (.refl s)
  cases call with
  | suspend w =>
    cases hc : w.callback with
    | none =>
      have he : Recording.begin s d (.suspend w) =
          ⟨s, d, .over (.refused (.invalidArgument "instance has no register call")), []⟩ := by
        simp only [Recording.begin, Storage.begin, Storage.heardFirst, Call.purpose?, hc,
          Option.map_none]
      rw [he]
      exact .ended rfl (.purposeless hc) room (.nil _) rfl
    | some callback =>
      exact writes (.suspend hc) (by simp only [Storage.begin, hc])
        (by simp only [Storage.heardFirst, Call.purpose?, hc, Option.map_some])
  | fail w cause =>
    cases hid : w.id with
    | none =>
      have he : Recording.begin s d (.fail w cause) =
          ⟨s, d.tell (.fault "cannot record error: instance has no id"), .over .done, []⟩ := by
        simp only [Recording.begin, Storage.begin, Storage.beginFail, Storage.heardFirst,
          Call.purpose?, hid, Option.map_none]
      rw [he]
      exact .ended rfl (.failNameless hid cause) (room.told (d.told_tell _)) (.nil _)
        (d.notes_tell rfl)
    | some id =>
      have hf : s.heardFirst (.fail w cause) = [] ++ s.refusal := by
        simp only [Storage.heardFirst, Call.purpose?, hid, Option.map_some, List.nil_append]
        exact List.flatMap_singleton' s.refusal
      have hk : Recording.begin s d (.fail w cause) = ⟨(s.beginFail d w cause).2.1,
          (s.beginFail d w cause).2.2, (s.beginFail d w cause).1, [] ++ s.refusal⟩ := by
        rw [← hf]
        rfl
      rw [hk]
      exact .fails hid (.fail hid cause) (fun e => .failLost hid cause e) room (.nil _) rfl
        (.refl s)
  | finish w =>
    cases hid : w.id with
    | none =>
      have he : Recording.begin s d (.finish w) =
          ⟨s, d.tell (.fault "cannot finish: instance has no id"), .over .done, []⟩ := by
        simp only [Recording.begin, Storage.begin, Storage.heardFirst, Call.purpose?, hid,
          Option.map_none]
      rw [he]
      exact .ended rfl (.finishNameless hid) (room.told (d.told_tell _)) (.nil _)
        (d.notes_tell rfl)
    | some id =>
      exact writes (.finish hid) (by simp only [Storage.begin, hid])
        (by simp only [Storage.heardFirst, Call.purpose?, hid, Option.map_some])
  | _ => exact records.elim

theorem Course.goesOn (h : Course b origin start call k) :
    Course b origin start call (k.next .goesOn) := by
  cases h with
  | ended progress ends room chain told =>
    simp only [next, progress]
    exact .ended progress ends room chain told
  | crashed progress attempt loud direct room chain told =>
    simp only [next, progress]
    exact .crashed progress attempt loud direct room chain told
  | @attempts p c q notes progress attempt underway told akin =>
    simp only [next, progress]
    split
    · rename_i ready
      rw [Storage.advance]
      cases underway.meets p ready with
      | @answered r s' d' acts ha hw room carried chain mute akin' hdoor =>
        have heard : k.storage.heardNext k.database (.writing p q) = s'.heard p r := by
          simp only [Storage.heardNext, ha, Storage.heard, Storage.refusal, hdoor]
        rw [hw, heard]
        exact .acknowledged attempt room carried chain (mute.trans told) (akin.trans akin')
      | crashed ha hw direct loud room chain mute =>
        have heard : k.storage.heardNext k.database (.writing p q) = [] := by
          simp only [Storage.heardNext, ha]
        rw [hw, heard]
        have attempt' : Storage.Attempts call p c (k.answers ++ []) notes := by
          rwa [List.append_nil]
        have none : origin.batcher = none := by
          rw [← Option.not_isSome_iff_eq_none, ← akin.batched, direct]
          exact Bool.false_ne_true
        exact .crashed rfl attempt' loud none room chain (mute.trans told)
    · exact .attempts progress attempt underway told akin

theorem Course.around (h : Course b origin start call k) {m : Interference} (hm : m.Within b) :
    Course b origin start call (k.next (.around m)) := by
  cases h with
  | attempts progress attempt underway told akin =>
    obtain ⟨underway', mute, akin'⟩ := underway.step hm
    simp only [next, own?, progress]
    exact .attempts rfl attempt underway' (mute.trans told) (akin.trans akin')
  | ended progress ends room chain told =>
    obtain ⟨room', others, mute, -⟩ := Interference.step_none room hm
    have chain' := chain.append others
    rw [List.append_nil] at chain'
    simp only [next, own?, progress]
    exact .ended rfl ends room' chain' (mute.trans told)
  | crashed progress attempt loud direct room chain told =>
    obtain ⟨room', others, mute, -⟩ := Interference.step_none room hm
    simp only [next, own?, progress]
    exact .crashed rfl attempt loud direct room' (chain.append others) (mute.trans told)

/-- **The course of a recording** is kept by whatever happens. -/
theorem Course.next (h : Course b origin start call k) {m : Move} (hm : m.Within b) :
    Course b origin start call (k.next m) := by
  cases m with
  | goesOn => exact h.goesOn
  | around m => exact h.around hm

theorem Course.after (h : Course b origin start call k) {ms : List Move}
    (hm : ∀ m ∈ ms, m.Within b) : Course b origin start call (k.after ms) := by
  induction ms generalizing k with
  | nil => exact h
  | cons m ms ih =>
    exact ih (h.next (hm m List.mem_cons_self)) fun m h => hm m (List.mem_cons_of_mem _ h)

/-! ## Every recording comes to its end -/

theorem Move.Serves.within {m : Move} (h : m.Serves) : m.Within b := by
  cases m with
  | goesOn => trivial
  | around m =>
    cases m with
    | works time => trivial
    | _ => exact h.elim

end Recording

/-- The worker comes to answer a command that is under way, and then its caller can go on. -/
theorem Interference.Underway.readies {b : Bounds} {before : Store} {c : Command}
    {p : Storage.Passage} {s : Storage} {d : Database} (h : Underway b before c p s d) :
    ∃ ms, (∀ m ∈ ms, ∃ time, m = works time) ∧
      ∀ q, (all p.ticket? ms s d).1.ready (all p.ticket? ms s d).2.held.isNone (.writing q p) =
        true := by
  -- the induction is on how far the worker is from its rest
  induction hn : (s.batcher.map Batcher.distance).getD 0 using Nat.strongRecOn generalizing s d with
  | ind n ih =>
    have free := h.room.free
    obtain ⟨answer, acts, hp, -, -⟩ := h.stands
    cases hp with
    | alone hs => exact ⟨[], fun m hm => (nomatch hm), fun q => by simp [all, Storage.ready, free]⟩
    | answered hs ha =>
      exact ⟨[], fun m hm => (nomatch hm), fun q => by simp [all, Storage.ready, hs, ha]⟩
    | @inHand w x hs hx hc =>
      obtain ⟨time, ready, closer⟩ :=
        Batcher.step_distance (h.room.tidy w hs).sound (List.ne_nil_of_mem hx)
      obtain ⟨w', d', hstep⟩ : ∃ w' d', w.step s.access time d = (w', d') := ⟨_, _, rfl⟩
      have hnext : (works time).next (some x.ticket) s d =
          ({ s with batcher := some w' }, d') := by
        simp only [Interference.next, hs, Option.map_some, Option.getD_some, free, Option.isNone_none,
          ready, if_true, Cluster.stepWorker, hstep]
      obtain ⟨h', -, -⟩ := h.step (m := works time) trivial
      simp only [Storage.Passage.ticket?, hnext] at h'
      have lt : w'.distance < n := by
        have := closer s.access d
        rw [hstep] at this
        rwa [← hn, hs]
      obtain ⟨ms, hms, hr⟩ := ih _ lt h' rfl
      refine ⟨works time :: ms, fun m hm => ?_, fun q => ?_⟩
      · rcases List.mem_cons.1 hm with rfl | hm
        · exact ⟨time, rfl⟩
        · exact hms m hm
      · have := hr q
        rwa [Interference.all, List.foldl_cons, Storage.Passage.ticket?, hnext]

namespace Recording

open Storage (Call Phase Purpose Passage Progress)

variable {b : Bounds} {origin : Storage} {start : Database} {call : Call} {k : Recording}

/-- While others do something, the call stays where it is. -/
theorem after_around (ms : List Interference) (k : Recording) :
    k.after (ms.map .around) =
      { k with
        storage := (Interference.all k.own? ms k.storage k.database).1
        database := (Interference.all k.own? ms k.storage k.database).2 } := by
  induction ms generalizing k with
  | nil => rfl
  | cons m ms ih => exact ih (k.next (.around m))

/-- From each command, a recording comes to its end or to more answers. -/
theorem Course.proceeds (h : Course b origin start call k) :
    ∃ ms, (∀ m ∈ ms, m.Serves) ∧ ((∃ reply, (k.after ms).progress = .over reply) ∨
      k.answers.length < (k.after ms).answers.length) := by
  have here : ∀ {reply}, k.progress = .over reply → ∃ ms, (∀ m ∈ ms, m.Serves) ∧
      ((∃ reply, (k.after ms).progress = .over reply) ∨
        k.answers.length < (k.after ms).answers.length) :=
    fun progress => ⟨[], fun m hm => (nomatch hm), .inl ⟨_, progress⟩⟩
  cases h with
  | ended progress => exact here progress
  | crashed progress => exact here progress
  | @attempts p c q notes progress attempt underway told akin =>
    have hown : k.own? = q.ticket? := by simp only [own?, progress]
    obtain ⟨ms, works, ready⟩ := underway.readies
    have serves : ∀ m ∈ ms.map Move.around, m.Serves := by
      intro m hm
      obtain ⟨m', hm', rfl⟩ := List.mem_map.1 hm
      obtain ⟨time, rfl⟩ := works m' hm'
      trivial
    have waited := Course.after (.attempts progress attempt underway told akin)
      fun m hm => (serves m hm).within
    have hk := after_around ms k
    rw [hown] at hk
    refine ⟨ms.map .around ++ [.goesOn], fun m hm => ?_, ?_⟩
    · rcases List.mem_append.1 hm with hm | hm
      · exact serves m hm
      · rw [List.mem_singleton.1 hm]
        trivial
    rw [after_append, hk]
    rw [hk] at waited
    have ready := ready p
    generalize Interference.all q.ticket? ms k.storage k.database = around at *
    obtain ⟨s, d⟩ := around
    -- the call goes on with its command
    cases waited with
    | ended progress' => cases progress.symm.trans progress'
    | crashed progress' => cases progress.symm.trans progress'
    | attempts progress' _ underway' _ _ =>
      cases progress.symm.trans progress'
      simp only [Recording.after, List.foldl_cons, List.foldl_nil, Recording.next, progress, ready,
        if_true, Storage.advance]
      cases underway'.meets p ready with
      | crashed ha hw => exact .inl ⟨_, by rw [hw]⟩
      | @answered r _ _ _ ha =>
        right
        have pos : 0 < (s.heard p r).length := by
          unfold Storage.heard
          split <;> simp
        simp only [Storage.heardNext, ha, List.length_append]
        omega

theorem Course.over (h : Course b origin start call k) (two : 2 ≤ k.answers.length) :
    ∃ reply, k.progress = .over reply := by
  cases h with
  | ended progress => exact ⟨_, progress⟩
  | crashed progress => exact ⟨_, progress⟩
  | attempts _ attempt =>
    generalize k.answers = answers at attempt two
    cases attempt <;> simp at two

/-- **Every recording comes to its end,** when the worker and the caller have had enough turns. -/
theorem Course.finishes (h : Course b origin start call k) :
    ∃ ms, (∀ m ∈ ms, m.Serves) ∧ ∃ reply, (k.after ms).progress = .over reply := by
  obtain ⟨ms, serves, ended | more⟩ := h.proceeds
  · exact ⟨ms, serves, ended⟩
  obtain ⟨ms', serves', ended | more'⟩ := (h.after fun m hm => (serves m hm).within).proceeds
  all_goals
    have both : ∀ m ∈ ms ++ ms', m.Serves := fun m hm =>
      (List.mem_append.1 hm).elim (serves m) (serves' m)
    rw [← after_append] at *
  · exact ⟨ms ++ ms', both, ended⟩
  · exact ⟨ms ++ ms', both, (h.after fun m hm => (both m hm).within).over (by omega)⟩

end Recording

end Resumption
