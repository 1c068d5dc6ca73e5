import Resumption.Proofs.Storage.Recording
import Resumption.Proofs.Storage.Ruling
import Resumption.Proofs.Store.Exclusion
import Resumption.Proofs.Store.Frame

/-!
# Recordings when nothing fails

Where nothing is planned to fail and the writer takes commands (`Interference.Clear`), and where others
leave it at that (`Interference.Quiet`), a command is granted that goes well wherever others lead the
store (`Command.Welcome`): a batch that it is in can fail because of another command, but then it is
executed alone.

So **a recording is over with its first answer, and the answer is that it went well**
(`Recording.Faultless`, `Recording.Faultless.over`). The invariant goes with the course of the recording,
which says that the caller has done nothing to the store before its command was granted.
-/

namespace Resumption

namespace Store

variable {s : Store} {id : Uuid} {r : Record}

theorem modify_found (h : s.find? id = some r) (f : Record → Record) :
    (s.modify id f).1 = .ok () := by
  simp only [modify, h]

theorem execute_found (h : s.find? id = some r) (remove : Bool) {c : Command}
    (hc : c.instanceId? = some id) : (s.execute remove c).1 = .ok () := by
  cases c with
  | suspend callback payload =>
    cases hc
    rw [execute, suspend_present h]
  | notify x => cases hc
  | finish id' =>
    cases hc
    cases remove with
    | false => exact modify_found h _
    | true => simp only [execute, finish, if_true, h]
  | fail id' cause =>
    cases hc
    exact modify_found h _

/-- What is stored stays stored while others do something, unless they remove it. -/
theorem Amid.mem_ids {foreign : Action → Prop} {as : List Action} {s' : Store}
    (h : s.Amid foreign as s') (none : as = []) (kept : ¬ foreign (.finish true id))
    (hm : id ∈ s.ids) : id ∈ s'.ids := by
  induction h with
  | nil s => exact hm
  | @other s t u a o as hf ha _ ih =>
    have after := s.act_ids a hm fun same => kept (same ▸ hf)
    rw [ha] at after
    exact ih none after
  | own ha hs _ => cases none

theorem find?_of_mem_ids (h : id ∈ s.ids) : ∃ r, s.find? id = some r := by
  refine Option.ne_none_iff_exists'.1 fun absent => ?_
  obtain ⟨r, hr, he⟩ := List.mem_map.1 h
  exact find?_none absent r hr he

theorem mem_ids_of_claim {engine pool : String} {most : Nat} {ws : List Workflow} {s' : Store}
    (h : s.claim engine pool most = (ws, s')) {w : Workflow} (hw : w ∈ ws) (hid : w.id = some id) :
    id ∈ s'.ids := by
  obtain ⟨r, -, hr, -, r', hm, he, -⟩ := claim_runs h (List.mem_map_of_mem hw)
  cases hr.trans hid
  exact List.mem_map.2 ⟨r', hm, he⟩

end Store

/-- The command goes well wherever others lead from a store. -/
def Command.Welcome (b : Bounds) (before : Store) (c : Command) : Prop :=
  ∀ s, before.Amid b.foreign [] s → ∀ remove, (s.execute remove c).1 = .ok ()

namespace Batcher

variable {a : Access} {w w' : Batcher} {d d' : Database} {done : List Submitted}
  {r : Except StoreError Unit}

theorem Served.answer_cases (h : Served a w d done r w' d') (t : Nat) :
    w'.answer? t = w.answer? t ∨
      w.answer? t = none ∧ w'.answer? t = some r ∧ ∃ x ∈ done, x.ticket = t := by
  have ha : w'.answer? t = (w.answer? t).or ((done.map fun x => (x.ticket, r)).lookup t) := by
    rw [answer?, h.answers, List.lookup_append]
    rfl
  cases hw : w.answer? t with
  | some v => exact .inl (by rw [ha, hw, Option.some_or])
  | none =>
    rw [hw, Option.none_or] at ha
    by_cases hx : ∃ x ∈ done, x.ticket = t
    · obtain ⟨x, hm, rfl⟩ := hx
      exact .inr ⟨rfl, ha.trans (Writing.lookup_ticket hm r), x, hm, rfl⟩
    · refine .inl (ha.trans (List.lookup_eq_none_iff.2 fun y hy => ?_))
      obtain ⟨x, hm, rfl⟩ := List.mem_map.1 hy
      simpa using fun he => hx ⟨x, hm, he.symm⟩

end Batcher

namespace Interference

open Storage (Passage Purpose)

variable {b : Bounds} {own : Option Nat} {s : Storage} {d : Database} {before : Store} {c : Command}
  {p : Passage} {m : Interference}

/-- Nothing is planned to fail, and the writer takes commands. -/
structure Clear (s : Storage) (d : Database) : Prop where
  faults : d.faults = []
  door : s.turnsAway = false

/-- No faults are planned, and the writer is not closed. -/
def Quiet : Interference → Prop
  | .closes => False
  | .weather faults _ => faults = []
  | _ => True

/-- A writer that was not closed and did not break takes commands. -/
theorem Clear.writer (h : Clear s d) {d' : Database} (faults : d'.faults = []) {w w' : Batcher}
    (hw : s.batcher = some w) (closed : w'.closed = w.closed)
    (broken : w'.phase = .broken → w.phase = .broken) :
    Clear { s with batcher := some w' } d' := by
  refine ⟨faults, ?_⟩
  have := h.door
  simp only [Storage.turnsAway, hw, Bool.or_eq_false_iff, beq_eq_false_iff_ne, closed] at this ⊢
  exact ⟨this.1, this.2 ∘ broken⟩

theorem Clear.next (h : Clear s d) (room : Room b own s d) (hm : m.Quiet) :
    Clear (m.next own s d).1 (m.next own s d).2 := by
  cases m with
  | submits c =>
    cases hw : s.batcher with
    | none => simpa only [Interference.next, Storage.enter, hw] using h
    | some w =>
      rcases w.submit_cases c with ⟨-, -, he⟩ | ⟨-, he⟩ <;>
        simp only [Interference.next, Storage.enter, hw, he]
      · exact h.writer h.faults hw rfl id
      · exact h.writer h.faults hw rfl id
  | receives ticket =>
    simp only [Interference.next]
    split
    · exact h
    · cases hw : s.batcher with
      | none =>
        refine ⟨h.faults, ?_⟩
        simp only [Storage.turnsAway, Option.map_none]
      | some w => exact h.writer h.faults hw rfl id
  | works time =>
    simp only [Interference.next]
    split
    · rename_i ready
      cases hw : s.batcher with
      | none => simpa only [Cluster.stepWorker, hw] using h
      | some w =>
        simp only [hw, Option.map_some, Option.getD_some] at ready
        obtain ⟨done, r, served, -⟩ := Batcher.step_served (a := s.access)
          (room.tidy w hw).sound ready room.timely
        simp only [Cluster.stepWorker, hw]
        exact h.writer (served.aside.quiet h.faults) hw served.closed (served.broken h.faults)
    · exact h
  | acts a =>
    simp only [Interference.next]
    split
    · exact ⟨h.faults, h.door⟩
    · exact h
  | closes => exact hm.elim
  | configures remove => exact ⟨h.faults, h.door⟩
  | weather faults clock => exact ⟨hm, h.door⟩

/-- If the caller's command was answered, it was granted. -/
def Granted (p : Passage) (s : Storage) : Prop :=
  ∀ w t r, s.batcher = some w → p.ticket? = some t → w.answer? t = some r → r = .ok ()

/-- What the worker answers to a welcome command is that it went well. -/
theorem Underway.granted_works (h : Underway b before c p s d) (clear : Clear s d)
    (granted : Granted p s) (welcome : c.Welcome b before) (time : Nat) :
    Granted p ((works time).next p.ticket? s d).1 := by
  cases hw : s.batcher with
  | none => simpa only [Interference.next, hw, Option.map_none, Option.getD_none, Bool.false_eq_true,
      if_false] using granted
  | some w =>
    simp only [Interference.next, hw, Option.map_some, Option.getD_some]
    split
    · rename_i ready
      have tidy := h.room.tidy w hw
      obtain ⟨done, r, served, -⟩ := Batcher.step_served (a := s.access) tidy.sound ready
        h.room.timely
      simp only [Cluster.stepWorker, hw]
      intro v t r' hv ht ha
      cases hv
      rcases served.answer_cases t with same | ⟨unanswered, new, x, hx, rfl⟩
      · exact granted w t r' hw ht (same ▸ ha)
      · cases new.symm.trans ha
        rcases r with e | u
        · -- it was executed alone, on a store that others have led to
          exfalso
          obtain ⟨y, rfl, refused⟩ := served.alone clear.faults e rfl
          cases List.mem_singleton.1 hx
          obtain ⟨answer, acts, hp, carried, chain⟩ := h.stands
          cases hp with
          | alone hs => cases hs.symm.trans hw
          | @inHand v y hs hy hc =>
            cases hs.symm.trans hw
            have hand : x ∈ w.inHand := served.hand ▸ List.mem_append_left _ hx
            obtain rfl : y = x := List.inj_on_of_nodup_map tidy.nodup hy hand (Option.some.inj ht)
            cases carried
            rw [hc, welcome _ chain] at refused
            cases refused
          | @answered v t r hs ha =>
            cases hs.symm.trans hw
            cases Option.some.inj ht
            cases unanswered.symm.trans ha
        · rfl
    · exact granted

/-- Whatever others do quietly, a welcome command is not refused. -/
theorem Underway.granted_next (h : Underway b before c p s d) (clear : Clear s d)
    (granted : Granted p s) (welcome : c.Welcome b before) (m : Interference) :
    Granted p (m.next p.ticket? s d).1 := by
  -- another state of the writer that answers the caller in the same way
  have writer : ∀ (f : Batcher → Batcher),
      (∀ w t, p.ticket? = some t → (f w).answer? t = w.answer? t) →
      Granted p { s with batcher := s.batcher.map f } := by
    intro f hf v t r hv ht ha
    obtain ⟨w, hw, rfl⟩ := Option.map_eq_some_iff.1 hv
    exact granted w t r hw ht (hf w t ht ▸ ha)
  cases m with
  | submits c =>
    cases hw : s.batcher with
    | none => simpa only [Interference.next, Storage.enter, hw] using granted
    | some w =>
      rcases w.submit_cases c with ⟨-, -, he⟩ | ⟨-, he⟩ <;>
        simp only [Interference.next, Storage.enter, hw, he] <;>
        (intro v t r hv ht ha; cases hv; exact granted w t r hw ht ha)
  | receives ticket =>
    simp only [Interference.next]
    split
    · exact granted
    · rename_i other
      exact writer _ fun w t ht => Writing.answer?_forget fun he => other (ht.trans (congrArg some he))
  | works time => exact h.granted_works clear granted welcome time
  | acts a =>
    simp only [Interference.next]
    split <;> exact granted
  | closes =>
    simp only [Interference.next, Storage.begin]
    exact writer _ fun _ _ _ => rfl
  | configures remove => exact granted
  | weather faults clock => exact granted

/-- A caller that goes on with a welcome command hears that it went well. -/
theorem Underway.hears (h : Underway b before c p s d) (clear : Clear s d) (granted : Granted p s)
    (welcome : c.Welcome b before) (q : Purpose)
    (ready : s.ready d.held.isNone (.writing q p) = true) : s.answer? d p = some (.ok ()) := by
  obtain ⟨answer, acts, hp, carried, chain⟩ := h.stands
  cases hp with
  | alone hs =>
    cases carried
    have fine := Work.transactOne_answer (a := s.access) (c := c) clear.faults
    rw [welcome _ chain] at fine
    simp only [Storage.answer?, fine]
    rfl
  | inHand hs hx hc =>
    have := (h.room.tidy _ hs).unanswered _ hx
    simp [Storage.ready, hs, this] at ready
  | answered hs ha =>
    simp only [Storage.answer?, hs, Option.bind_some, ha, granted _ _ _ hs rfl ha]

end Interference

/-! ## What a command leaves alone -/

namespace Storage

/-- A step with a command tells and does what it does to the store and nothing else. -/
theorem write_aside (s : Storage) (d : Database) (q : Purpose) (p : Passage) :
    d.Aside (s.write d q p).2.2 := by
  cases p with
  | alone c =>
    have h := Work.transactAll_aside s.access [c] d
    rw [write]
    split <;> rename_i he <;> rw [he] at h
    · exact h
    · exact h.trans (s.acknowledge_told _ _ _).mild.aside
    · exact h.trans (s.acknowledge_told _ _ _).mild.aside
  | inLine ticket =>
    rw [write]
    split
    · exact (acknowledge_told _ d _ _).mild.aside
    · exact .refl d

theorem enter_akin (s : Storage) (c : Command) : s.Akin (s.enter c).2 := by
  unfold enter
  split
  · exact .refl s
  · rename_i w hw
    exact akin_writer hw _

theorem beginFail_akin (s : Storage) (d : Database) (w : Workflow) (cause : String) :
    s.Akin (s.beginFail d w cause).2.1 := by
  unfold beginFail
  split
  · exact .refl s
  · rename_i id _
    have h := s.enter_akin (.fail id cause)
    split <;> rename_i he <;> rw [he] at h <;> exact h

theorem acknowledge_akin (s : Storage) (d : Database) (q : Purpose) (r : Except StoreError Unit) :
    s.Akin (s.acknowledge d q r).2.1 := by
  unfold acknowledge
  split
  · exact .refl s
  · exact .refl s
  · exact .refl s
  · exact .refl s
  · exact .refl s
  · exact .refl s
  · exact s.beginFail_akin _ _ _

theorem beginWrite_akin (s : Storage) (d : Database) (q : Purpose) (c : Command) :
    s.Akin (s.beginWrite d q c).2.1 := by
  have h := s.enter_akin c
  unfold beginWrite
  split <;> rename_i he <;> rw [he] at h
  · exact h
  · exact h.trans (acknowledge_akin _ d q _)

theorem write_akin (s : Storage) (d : Database) (q : Purpose) (p : Passage) :
    s.Akin (s.write d q p).2.1 := by
  unfold write
  split
  · split
    · exact .refl s
    · exact acknowledge_akin _ _ q _
    · exact acknowledge_akin _ _ q _
  · split
    · rename_i w r hw
      obtain ⟨v, hv, hr⟩ := Option.bind_eq_some_iff.1 hw
      exact (akin_writer hv _).trans (acknowledge_akin _ d q r)
    · exact .refl s

/-- A call that records what became of an instance goes through the same kind of writer. -/
theorem begin_akin (s : Storage) (d : Database) {c : Call} (records : c.Records) :
    s.Akin (s.begin d c).2.1 := by
  cases c with
  | suspend w =>
    rw [Storage.begin]
    split
    · exact .refl s
    · exact s.beginWrite_akin d _ _
  | fail w cause => exact s.beginFail_akin d w cause
  | finish w =>
    rw [Storage.begin]
    split
    · exact .refl s
    · exact s.beginWrite_akin d _ _
  | _ => exact records.elim

end Storage

namespace Recording

open Storage (Call Phase Purpose Passage Progress)
open Interference (Clear Granted)

variable {b : Bounds} {origin : Storage} {start : Database} {call : Call} {k : Recording}
  {s : Storage} {d : Database}

/-- Nothing has failed so far: the first command is under way and was not refused, or the recording
is over with it. -/
structure Faultless (k : Recording) : Prop where
  clear : Clear k.storage k.database
  heard : (k.answers = [] ∧ ∃ p q, k.progress = .going (.writing p q) ∧ Granted q k.storage) ∨
    (k.answers = [.ok ()] ∧ ∃ reply, k.progress = .over reply)

/-- What others do is quiet. -/
def Move.Quiet : Move → Prop
  | .goesOn => True
  | .around m => m.Quiet

/-- A command that goes on, and others around it, leave the kind of writer alone. -/
theorem next_akin {p : Purpose} {c : Command} {q : Passage} {before : Store}
    (progress : k.progress = .going (.writing p q))
    (underway : Interference.Underway b before c q k.storage k.database) {m : Move} (hm : m.Within b) :
    k.storage.Akin (k.next m).storage := by
  cases m with
  | goesOn =>
    simp only [next, progress]
    split
    · exact k.storage.write_akin _ p q
    · exact .refl _
  | around m =>
    simp only [next, own?, progress]
    exact (underway.step hm).2.2

/-- The first command of the call goes well wherever others lead from a store. -/
def Welcome (b : Bounds) (before : Store) (call : Call) : Prop :=
  ∀ p c notes, Storage.Attempts call p c [] notes → c.Welcome b before

theorem granted_of_post {own : Option Nat} {c : Command} {q : Passage}
    (room : Interference.Room b own s d) (post : s.Post c q none) : Granted q s := by
  intro w t r hw ht ha
  cases post with
  | alone hs => cases hs.symm.trans hw
  | inHand hs hx _ =>
    cases hs.symm.trans hw
    cases Option.some.inj ht
    cases ((room.tidy w hw).unanswered _ hx).symm.trans ha

/-- A call that brings a command begins without failure. -/
theorem Faultless.begin {p : Purpose} {c : Command} {notes : List Event}
    (attempt : Storage.Attempts call p c [] notes) (room : Interference.Room b none s d)
    (clear : Clear s d) : Faultless (Recording.begin s d call) := by
  have refusal : s.refusal = [] := by rw [Storage.refusal, clear.door]; rfl
  rcases room.enters c with ⟨q, s', he, -, -, room', post⟩ | ⟨-, away⟩
  · have clear' : Clear s' d := by
      have := clear.next room (m := .submits c) trivial
      rwa [Interference.next, he] at this
    have hk : Recording.begin s d call = ⟨s', d, .going (.writing p q), []⟩ := by
      cases attempt with
      | suspend hc =>
        simp only [Recording.begin, Storage.begin, Storage.beginWrite, Storage.heardFirst,
          Call.purpose?, hc, he, refusal, Option.map_some, List.flatMap_nil]
      | fail hid cause =>
        simp only [Recording.begin, Storage.begin, Storage.beginFail, Storage.heardFirst,
          Call.purpose?, hid, he, refusal, Option.map_some, List.flatMap_nil]
      | finish hid =>
        simp only [Recording.begin, Storage.begin, Storage.beginWrite, Storage.heardFirst,
          Call.purpose?, hid, he, refusal, Option.map_some, List.flatMap_nil]
    rw [hk]
    exact ⟨clear', .inl ⟨rfl, p, q, rfl, granted_of_post room' post⟩⟩
  · cases clear.door.symm.trans away

theorem Faultless.goesOn (course : Course b origin start call k) (h : Faultless k)
    (welcome : Welcome b start.store call) : Faultless (k.next .goesOn) := by
  rcases h.heard with ⟨none, p, q, progress, granted⟩ | ⟨ok, reply, progress⟩
  · cases course with
    | ended progress' => cases progress.symm.trans progress'
    | crashed progress' => cases progress.symm.trans progress'
    | attempts progress' attempt underway =>
      cases progress.symm.trans progress'
      simp only [next, progress]
      split
      · rename_i ready
        rw [none] at attempt
        have hears := underway.hears h.clear granted (welcome _ _ _ attempt) p ready
        have heard : k.storage.heardNext k.database (.writing p q) = [.ok ()] := by
          simp only [Storage.heardNext, hears]
          cases p <;> rfl
        have quiet := (k.storage.write_aside k.database p q).quiet h.clear.faults
        rw [heard, none, List.nil_append, Storage.advance]
        cases underway.meets p ready with
        | crashed ha => cases ha.symm.trans hears
        | answered ha hw _ _ _ _ _ door =>
          cases ha.symm.trans hears
          rw [hw] at quiet ⊢
          refine ⟨⟨quiet, ?_⟩, .inr ⟨rfl, ?_⟩⟩
          · cases p <;> exact door.trans h.clear.door
          · cases p <;> exact ⟨_, rfl⟩
      · exact ⟨h.clear, .inl ⟨none, p, q, progress, granted⟩⟩
  · simp only [next, progress]
    exact ⟨h.clear, .inr ⟨ok, reply, progress⟩⟩

theorem Faultless.around (course : Course b origin start call k) (h : Faultless k)
    (welcome : Welcome b start.store call) {m : Interference} (quiet : m.Quiet) :
    Faultless (k.next (.around m)) := by
  have ended : ∀ {reply}, k.progress = .over reply → Interference.Room b none k.storage k.database →
      Faultless (k.next (.around m)) := by
    intro reply progress room
    have clear := h.clear.next room quiet
    rcases h.heard with ⟨-, p, q, progress', -⟩ | ⟨ok, -⟩
    · cases progress.symm.trans progress'
    · simp only [next, own?, progress]
      exact ⟨clear, .inr ⟨ok, reply, rfl⟩⟩
  cases course with
  | ended progress _ room => exact ended progress room
  | crashed progress _ _ _ room => exact ended progress room
  | @attempts p c q notes progress attempt underway =>
    have clear := h.clear.next underway.room quiet
    rcases h.heard with ⟨none, p', q', progress', granted⟩ | ⟨-, reply, progress'⟩
    · cases progress.symm.trans progress'
      rw [none] at attempt
      have granted := underway.granted_next h.clear granted (welcome _ _ _ attempt) m
      simp only [next, own?, progress]
      exact ⟨clear, .inl ⟨none, p, q, rfl, granted⟩⟩
    · cases progress.symm.trans progress'

/-- **When nothing fails,** a recording that began without failure goes on so. -/
theorem Faultless.next (course : Course b origin start call k) (h : Faultless k)
    (welcome : Welcome b start.store call) {m : Move} (quiet : m.Quiet) : Faultless (k.next m) := by
  cases m with
  | goesOn => exact h.goesOn course welcome
  | around m => exact h.around course welcome quiet

end Recording

end Resumption
