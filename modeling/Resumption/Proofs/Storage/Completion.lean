import Resumption.Proofs.Storage.Recording
import Resumption.Proofs.Store.Rewriting
import Resumption.Proofs.Store.Satisfaction

/-!
# Failures to complete are never silent

What became of an instance is recorded by three calls: it is finished, it failed, or it waits.
Whichever calls of the store fail, and whatever others do at the same time, **the end of such a call
agrees with the store, the history and the errors that are told** (`Recording.never_silent`). A
`Recording.Conclusion` lists the ways: a finish ends with the instance finished or removed, or with
the instance failed for that reason, or with nothing done and two errors told; a failure is recorded
or told; a wait is stored or refused.

The hypothesis on the environment is that no commit fails after it took effect. A caller that has no
batching writer may crash over a call that is planned to crash, and then nothing was done for it.
-/

namespace Resumption

/-- Others did something, the record of one instance was rewritten, and others did something. -/
def Store.Became (others : Store → Store → Prop) (s : Store) (id : Uuid)
    (now : Record → Option Record) (s' : Store) : Prop :=
  ∃ s₁ s₂, others s s₁ ∧ s₁.Rewrites id now s₂ ∧ others s₂ s'

theorem Store.Became.mono {others others' : Store → Store → Prop} {s s' : Store} {id : Uuid}
    {now : Record → Option Record} (h : s.Became others id now s')
    (ho : ∀ s s', others s s' → others' s s') : s.Became others' id now s' := by
  obtain ⟨s₁, s₂, h₁, hw, h₂⟩ := h
  exact ⟨s₁, s₂, ho _ _ h₁, hw, ho _ _ h₂⟩

namespace Recording

open Storage (Call Phase Purpose Passage Progress)

/-- How a call that records what became of an instance ends, by what the writer answered: its reply,
what became of the store, and the errors and the history that were noted meanwhile, latest first. -/
inductive Conclusion (removal : Bool → Prop) (monitored : Bool) (others : Store → Store → Prop)
    (s s' : Store) : Call → List (Except StoreError Unit) → Storage.Reply → List Event → Prop where
  /-- The instance is finished or removed, and the history says so once. -/
  | finished {w : Workflow} {id : Uuid} {remove : Bool} (hid : w.id = some id)
      (hr : removal remove)
      (hs : s.Became others id
        (fun r => if remove then none else some { r with status := .finished }) s') :
      Conclusion removal monitored others s s' (.finish w) [.ok ()] .done
        (w.history monitored .finished)
  /-- The finish had no effect, which is told, and the instance has failed with the first error as
  the reason; the history says so once. -/
  | finishFailed {w : Workflow} {id : Uuid} {e : StoreError} (hid : w.id = some id)
      (hs : s.Became others id (fun r => some { r with
        status := .failed, lastError := some ("finish failed: " ++ e.message) }) s') :
      Conclusion removal monitored others s s' (.finish w) [.error e, .ok ()] .done
        (w.history monitored .error ++ [.fault "failed to finish workflow instance"])
  /-- Nothing had any effect, and two errors are told. -/
  | finishLost {w : Workflow} {id : Uuid} {e e' : StoreError} (hid : w.id = some id)
      (hs : others s s') :
      Conclusion removal monitored others s s' (.finish w) [.error e, .error e'] .done
        [.fault "failed to record workflow error", .fault "failed to finish workflow instance"]
  | finishNameless {w : Workflow} (hid : w.id = none) (hs : others s s') :
      Conclusion removal monitored others s s' (.finish w) [] .done
        [.fault "cannot finish: instance has no id"]
  /-- The instance has failed with the cause, and the history says so once. -/
  | failed {w : Workflow} {id : Uuid} {cause : String} (hid : w.id = some id)
      (hs : s.Became others id (fun r => some { r with
        status := .failed, lastError := some cause }) s') :
      Conclusion removal monitored others s s' (.fail w cause) [.ok ()] .done
        (w.history monitored .error)
  /-- Nothing had any effect, and one error is told. -/
  | failLost {w : Workflow} {id : Uuid} {cause : String} {e : StoreError} (hid : w.id = some id)
      (hs : others s s') :
      Conclusion removal monitored others s s' (.fail w cause) [.error e] .done
        [.fault "failed to record workflow error"]
  | failNameless {w : Workflow} {cause : String} (hid : w.id = none) (hs : others s s') :
      Conclusion removal monitored others s s' (.fail w cause) [] .done
        [.fault "cannot record error: instance has no id"]
  /-- The wait was committed: the instance has the payload, and it waits on the callback or is ready
  at once. The caller's copy has no callback any more, and the history says so once. -/
  | suspended {w : Workflow} {c : Callback} {s₁ s₂ : Store} {now : Record → Record}
      (hc : w.callback = some c) (before : others s s₁)
      (hs : s₁.suspend c w.payload = (.ok (), s₂))
      (hw : s₁.Rewrites c.instanceId (fun r => some (now r)) s₂)
      (hn : ∀ r : Record, r.SuspendedOn c w.payload s₁.unclaimed (now r)) (behind : others s₂ s') :
      Conclusion removal monitored others s s' (.suspend w) [.ok ()]
        (.suspended { w with callback := none, stage := .waiting }) (w.history monitored .waiting)
  /-- The wait was refused, which the caller is told. -/
  | refused {w : Workflow} {c : Callback} {e : StoreError} (hc : w.callback = some c)
      (hs : others s s') :
      Conclusion removal monitored others s s' (.suspend w) [.error e] (.refused e) []
  | purposeless {w : Workflow} (hc : w.callback = none) (hs : others s s') :
      Conclusion removal monitored others s s' (.suspend w) []
        (.refused (.invalidArgument "instance has no register call")) []

variable {b : Bounds} {monitored : Bool} {s s' : Store} {call : Call}
  {answers : List (Except StoreError Unit)} {reply : Storage.Reply} {acts : List Action}
  {notes : List Event}

/-- The end of a recording, in terms of the stored instance. -/
theorem Conclusion.of_ends (h : Storage.Ends b.removal monitored call answers reply acts notes)
    (hs : s.Amid b.foreign acts s') :
    Conclusion b.removal monitored (fun s s' => s.Amid b.foreign [] s') s s' call answers reply
      notes := by
  cases h with
  | @suspended w c hc =>
    obtain ⟨s₁, s₂, h₁, he, h₂⟩ := Store.Amid.moment_command (.suspend c w.payload) true hs
    exact .suspended hc h₁ he (Store.rewrites_suspend he) (s₁.suspended_settles c w.payload) h₂
  | refused hc e => exact .refused hc hs
  | purposeless hc => exact .purposeless hc hs
  | @failed w id hid cause =>
    obtain ⟨s₁, s₂, h₁, he, h₂⟩ := Store.Amid.moment_command (.fail id cause) true hs
    exact .failed hid ⟨s₁, s₂, h₁, Store.rewrites_fail he, h₂⟩
  | failLost hid cause e => exact .failLost hid hs
  | failNameless hid cause => exact .failNameless hid hs
  | @finished w id remove hid hr =>
    obtain ⟨s₁, s₂, h₁, he, h₂⟩ := Store.Amid.moment_command (.finish id) remove hs
    exact .finished hid hr ⟨s₁, s₂, h₁, Store.rewrites_finish he, h₂⟩
  | @finishFailed w id hid e =>
    obtain ⟨s₁, s₂, h₁, he, h₂⟩ :=
      Store.Amid.moment_command (.fail id ("finish failed: " ++ e.message)) true hs
    exact .finishFailed hid ⟨s₁, s₂, h₁, Store.rewrites_fail he, h₂⟩
  | finishLost hid e e' => exact .finishLost hid hs
  | finishNameless hid => exact .finishNameless hid hs

theorem Conclusion.mono {others others' : Store → Store → Prop}
    (ho : ∀ s s', others s s' → others' s s')
    (h : Conclusion b.removal monitored others s s' call answers reply notes) :
    Conclusion b.removal monitored others' s s' call answers reply notes := by
  cases h with
  | finished hid hr hs => exact .finished hid hr (hs.mono ho)
  | finishFailed hid hs => exact .finishFailed hid (hs.mono ho)
  | finishLost hid hs => exact .finishLost hid (ho _ _ hs)
  | finishNameless hid hs => exact .finishNameless hid (ho _ _ hs)
  | failed hid hs => exact .failed hid (hs.mono ho)
  | failLost hid hs => exact .failLost hid (ho _ _ hs)
  | failNameless hid hs => exact .failNameless hid (ho _ _ hs)
  | suspended hc before hs hw hn behind =>
    exact .suspended hc (ho _ _ before) hs hw hn (ho _ _ behind)
  | refused hc hs => exact .refused hc (ho _ _ hs)
  | purposeless hc hs => exact .purposeless hc (ho _ _ hs)

/-- The caller crashed over one of its commands: it brought no command before, or one finish that
was refused and told. Nothing was done for it. -/
def Crashed (answers : List (Except StoreError Unit)) (notes : List Event) : Prop :=
  answers = [] ∧ notes = [] ∨
    ∃ e, answers = [.error e] ∧ notes = [.fault "failed to finish workflow instance"]

theorem crashed_of_attempts {p : Purpose} {c : Command}
    (h : Storage.Attempts call p c answers notes) : Crashed answers notes := by
  cases h with
  | fallback hid e => exact .inr ⟨e, rfl, rfl⟩
  | _ => exact .inl ⟨rfl, rfl⟩

/-- A storage with a new writer, where others may have done something already. -/
theorem room_fresh {s : Storage} {batch : Option BatchSettings} {d : Database}
    (fresh : s.batcher = batch.map Batcher.create) (free : d.held = none) (timely : d.Timely)
    (gentle : b.calm → d.Gentle) (removal : b.removal s.access.removeFinished) :
    Interference.Room b none s d := by
  refine ⟨free, timely, gentle, removal, fun w hw => ?_, fun w hw x hx => ?_⟩
  all_goals
    obtain ⟨bs, -, rfl⟩ := Option.map_eq_some_iff.1 (fresh.symm.trans hw)
  · exact Batcher.tidy_create bs
  · rw [Batcher.inHand_create] at hx
    cases hx

/-- **Never silent.** A call that records what became of an instance ends in one of the ways of
`Conclusion`, for either writer, whichever calls fail and whatever others do before and meanwhile
within the bounds; the answers by which the ways are told apart are those that the writer gave.
Where others leave the store alone, what became of it is all that the call did. A caller crashes
only without a batching writer and where a crash was planned. And the call comes to its end when the
worker and the caller have had enough turns. -/
theorem never_silent (b : Bounds) (engine : String) (settings : StorageSettings)
    (batch : Option BatchSettings) (monitored : Bool) {d : Database} (free : d.held = none)
    (timely : d.Timely) (gentle : b.calm → d.Gentle) (removal : b.removal settings.removeFinished)
    {earlier : List Interference} (before : ∀ m ∈ earlier, m.Within b) {call : Call}
    (records : call.Records) {ms : List Move} (within : ∀ m ∈ ms, m.Within b) :
    let k₀ := Interference.all none earlier (.create engine settings batch monitored) d
    let k := (begin k₀.1 k₀.2 call).after ms
    (∀ reply, k.progress = .over reply →
      ∃ notes, k.database.notes = notes ++ k₀.2.notes ∧
        ((Conclusion b.removal monitored (fun s s' => s.Amid b.foreign [] s') k₀.2.store
            k.database.store call k.answers reply notes ∧
          ((∀ a, ¬ b.foreign a) → Conclusion b.removal monitored (fun s s' => s' = s) k₀.2.store
            k.database.store call k.answers reply notes)) ∨
        ((∃ m, reply = .crashed m) ∧ ¬ b.calm ∧ batch = none ∧ Crashed k.answers notes ∧
          k₀.2.store.Amid b.foreign [] k.database.store))) ∧
    ∃ ms', (∀ m ∈ ms', m.Serves) ∧ ∃ reply, (k.after ms').progress = .over reply := by
  intro k₀ k
  have start : Interference.Room b none (.create engine settings batch monitored) d :=
    room_fresh rfl free timely gentle removal
  obtain ⟨room, akin⟩ := Interference.all_none before start
  have watched : k₀.1.monitored = monitored := akin.monitored
  have course : Course b k₀.1 k₀.2 call k := (Course.begin records room).after within
  refine ⟨fun reply ended => ?_, course.finishes⟩
  cases course with
  | attempts progress => cases progress.symm.trans ended
  | ended progress ends _ chain told =>
    cases progress.symm.trans ended
    rw [watched] at ends
    have general := Conclusion.of_ends ends chain
    refine ⟨_, told, .inl ⟨general, fun nobody => general.mono fun s s' h => ?_⟩⟩
    cases h.alone nobody
    rfl
  | crashed progress attempt loud direct _ chain told =>
    cases progress.symm.trans ended
    have batched : (batch.map Batcher.create).isSome = false :=
      akin.batched.symm.trans (congrArg Option.isSome direct)
    have none : batch = none := by
      rwa [Option.isSome_map, Option.isSome_eq_false_iff, Option.isNone_iff_eq_none] at batched
    exact ⟨_, told, .inr ⟨⟨_, rfl⟩, loud, none, crashed_of_attempts attempt, chain⟩⟩

/-- One instance is stored, and finishing it will fail twice: in a batch, and alone. -/
def unfinishable : Database :=
  { store := (Store.empty.insert [{ Workflow.create "t" .null with id := some ⟨1⟩ }]).2
    held := none, faults := [⟨.finish, false, 0, 2, .refuse "disk full"⟩], clock := .epoch
    journal := [] }

/-- The worker executes what is in line, alone in the end if it fails, and the caller goes on. -/
def oneRound : List Move := List.replicate 4 (.around (.works 0)) ++ [.goesOn]

/-- A finish that is refused becomes a failure, which is recorded. -/
theorem never_silent_unfinishable :
    let w : Workflow := { Workflow.create "t" .null with id := some ⟨1⟩ }
    let b : Bounds := ⟨fun _ => False, fun remove => remove = false, True⟩
    let k := (begin (.create "engine" .standard (some ⟨2, .zero, 10⟩) true) unfinishable
      (.finish w)).after (oneRound ++ oneRound)
    let refusal : StoreError := .database "disk full"
    unfinishable.held = none ∧ unfinishable.Timely ∧ (∀ m ∈ oneRound ++ oneRound, m.Within b) ∧
      k.answers = [.error refusal, .ok ()] ∧
      k.database.notes = w.history true .error ++ [.fault "failed to finish workflow instance"] ∧
      unfinishable.store.Rewrites ⟨1⟩ (fun r => some { r with
        status := .failed, lastError := some ("finish failed: " ++ refusal.message) })
        k.database.store := by
  intro w b k refusal
  have timely : unfinishable.Timely := by
    intro f hf hc
    cases List.mem_singleton.1 hf
    cases hc
  have gentle : unfinishable.Gentle := by
    intro f hf
    cases List.mem_singleton.1 hf
    exact ⟨_, rfl⟩
  have within : ∀ m ∈ oneRound ++ oneRound, m.Within b := by
    intro m hm
    simp only [oneRound, List.mem_append, List.mem_replicate, List.mem_singleton, or_self] at hm
    rcases hm with ⟨-, rfl⟩ | rfl <;> trivial
  have before : ∀ m ∈ ([] : List Interference), m.Within b := fun m hm => (nomatch hm)
  have records : (Call.finish w).Records := trivial
  have h := never_silent b "engine" .standard (some ⟨2, .zero, 10⟩) true (d := unfinishable) rfl
    timely (fun _ => gentle) rfl before records within
  have answers : k.answers = [.error refusal, .ok ()] := by decide +kernel
  have stopped : (match k.progress with | .over _ => true | .going _ => false) = true := by
    decide +kernel
  -- the run is not evaluated again from here
  have run : k = (begin (.create "engine" .standard (some ⟨2, .zero, 10⟩) true) unfinishable
    (.finish w)).after (oneRound ++ oneRound) := rfl
  clear_value k
  simp only [Interference.all, List.foldl_nil, ← run] at h
  obtain ⟨reply, ended⟩ : ∃ reply, k.progress = .over reply := by
    rcases hp : k.progress with p | reply
    · rw [hp] at stopped
      cases stopped
    · exact ⟨reply, rfl⟩
  obtain ⟨notes, hn, ⟨-, alone⟩ | ⟨-, -, -, crashed, -⟩⟩ := h.1 reply ended
  · have conclusion := alone fun _ h => h
    rw [answers] at conclusion
    cases conclusion with
    | finishFailed hid hs =>
      obtain ⟨s₁, s₂, rfl, hs, he⟩ := hs
      cases hid
      exact ⟨rfl, timely, within, answers, hn.trans (List.append_nil _), he ▸ hs⟩
  · rcases crashed with ⟨none, -⟩ | ⟨e, one, -⟩
    · cases answers.symm.trans none
    · cases answers.symm.trans one

end Recording

end Resumption
