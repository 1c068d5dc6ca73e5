import Resumption.Proofs.Pool.Slots

/-!
# The account of a pool

What the invariant of its slots (`Shift.Sound`) says of a pool at every moment of its life
(`Shift.Accounted`): where the slots are, what the loop takes and asks for, what becomes of the
instances that it is given, and what a stop leaves behind. A stopped pool stays still up to the next
start (`Shift.Still.run`).

`slots_accounted` is the account of every run of moves of a pool from its making on, with whatever
settings it was made.
-/

namespace Resumption

namespace Pool

namespace Shift

variable {s : Shift}

/-! ### After a stop -/

/-- A still pool stays still up to the next start, and its loop asks for nothing. -/
theorem Still.go (h : s.Still) {m : Move} (permits : s.Permits m) (no_start : m ≠ .start) :
    (s.go m).Still ∧ s.asked? m = none := by
  have same : (s.go m).Still := by
    cases m with
    | attach | wake => exact ⟨h.status, h.loop, h.dispatches, h.free, h.stopped⟩
    | abandon => exact ⟨h.status, h.loop, h.dispatches, h.free, rfl⟩
    | start => exact absurd rfl no_start
    | grab =>
      obtain ⟨-, seeking | ⟨holds, -⟩⟩ := permits
      · rw [h.loop] at seeking
        cases seeking
      · simp only [held, h.loop] at holds
        omega
    | poll time st d =>
      simp only [Permits, pollReady, h.loop] at permits
      cases permits
    | collapse => exact absurd (by simp [h.loop]) permits
    | carry serial found phase =>
      refine ⟨h.status, h.loop, ?_, h.free, h.stopped⟩
      simp only [Shift.go, setPhase, h.dispatches]
      rfl
    | finish serial =>
      refine ⟨h.status, h.loop, ?_, ?_, h.stopped⟩
      · simp only [Shift.go, endDispatch, h.dispatches]
        rfl
      · simp only [Shift.go, endDispatch, h.dispatches]
        exact h.free
    | stop =>
      have not_running : s.pool.status ≠ .running := by simp [h.status]
      rw [go_stop, if_neg not_running]
      exact h
    | advance time d =>
      simp only [Shift.go, h.stopped]
      exact h
  refine ⟨same, ?_⟩
  cases m with
  | poll time st d => simp only [asked?, h.loop]
  | _ => rfl

theorem Still.run {ms : List Move} (no_start : ∀ m ∈ ms, m ≠ .start) :
    ∀ {s : Shift}, s.Still → s.Legal ms → (s.run ms).Still ∧ s.asked ms = [] := by
  induction ms with
  | nil => exact fun h _ => ⟨h, rfl⟩
  | cons m ms ih =>
    intro s h legal
    obtain ⟨still, silent⟩ := h.go legal.1 (no_start m (by simp))
    obtain ⟨last, rest⟩ := ih (fun m hm => no_start m (by simp [hm])) still legal.2
    refine ⟨last, ?_⟩
    simp [asked, silent, rest]

/-! ### The account -/

theorem Sound.settings_go (h : s.Sound) {m : Move} (permits : s.Permits m) :
    (s.go m).pool.settings = s.pool.settings := by
  cases m with
  | start =>
    rw [go_start]
    split <;> rfl
  | poll time st d =>
    obtain ⟨-, loops | ⟨n, ws, -, dealt⟩⟩ := stepPoll_cases permits h.batch h.once h.begun st d
    · exact loops.settings
    · exact dealt.settings
  | stop =>
    rw [go_stop]
    split <;> rfl
  | advance time d =>
    simp only [Shift.go]
    split
    · next q stopping =>
      cases q with
      | awaitingDispatches due =>
        rw [advance_dispatches]
        split <;> rfl
      | awaitingPoll | awaitingAborted => rfl
    · rfl
  | attach | wake | grab | collapse | carry serial found phase | finish serial | abandon => rfl

theorem Sound.settings_run {ms : List Move} :
    ∀ {s : Shift}, s.Sound → s.Legal ms → (s.run ms).pool.settings = s.pool.settings := by
  induction ms with
  | nil => exact fun _ _ => rfl
  | cons m ms ih =>
    intro s h legal
    exact (ih (h.go legal.1) legal.2).trans (h.settings_go legal.1)

/-- What the loop holds after a move was in its hands or free before. -/
theorem Sound.held_go (h : s.Sound) {m : Move} (permits : s.Permits m) :
    (s.go m).pool.held ≤ s.pool.held + s.pool.free := by
  have kept : s.pool.held ≤ s.pool.held + s.pool.free := Nat.le_add_right _ _
  cases m with
  | grab =>
    obtain ⟨free, -⟩ := permits
    show s.pool.held + 1 ≤ _
    omega
  | poll time st d =>
    obtain ⟨-, loops | ⟨n, ws, -, dealt⟩⟩ := stepPoll_cases permits h.batch h.once h.begun st d
    · have total := loops.total
      simp only [Shift.go]
      omega
    · simp only [Shift.go, dealt.held]
      omega
  | collapse => exact Nat.zero_le _
  | start =>
    rw [go_start]
    split
    · exact kept
    · exact Nat.zero_le _
  | stop =>
    rw [go_stop]
    split <;> exact kept
  | advance time d =>
    simp only [Shift.go]
    split
    · next q stopping =>
      cases q with
      | awaitingPoll => exact Nat.zero_le _
      | awaitingDispatches due =>
        rw [advance_dispatches]
        split <;> exact kept
      | awaitingAborted => exact kept
    · exact kept
  | attach | wake | carry serial found phase | finish serial | abandon => exact kept

/-- What the account of a pool that was made with these settings says at a moment. -/
structure Accounted (settings : PoolSettings) (s : Shift) : Prop where
  /-- Every slot is free, in the hands of the loop or under a dispatch. -/
  balance : s.pool.free + s.pool.held + s.pool.dispatches.length = max 1 settings.concurrency.toNat
  /-- The load is what is not free, and no more is free than there is. -/
  load : s.pool.free ≤ s.pool.slots ∧ s.pool.load = s.pool.held + s.pool.dispatches.length
  /-- The loop takes only what is free. -/
  takes : ∀ m, s.Permits m → (s.go m).pool.held ≤ s.pool.held + s.pool.free
  /-- It asks for one instance at least, and for no more than a batch or than the slots that no
  dispatch has. -/
  asks : ∀ m n, s.asked? m = some n → 1 ≤ n ∧ n ≤ max 1 settings.claimBatch.toNat ∧
    n + s.pool.dispatches.length ≤ max 1 settings.concurrency.toNat
  /-- Each instance that it is given gets a dispatch and one of the slots, and the others are free
  again. It is given none when its claim fails. -/
  deals : ∀ time st d n, s.asked? (.poll time st d) = some n →
    ∃ ws, Dealt s.pool n ws (s.go (.poll time st d)).pool ∧
      ((st.state d (.claim settings.id n)).1 = .claimed ws ∨
        (∀ ws', (st.state d (.claim settings.id n)).1 ≠ .claimed ws') ∧ ws = [])
  /-- When the stop of the pool returns, nothing goes on in it and all slots are free, and so it is
  until the next start. -/
  stops : ∀ m r, s.Permits m → s.returned? m = some r →
    (s.go m).Still ∧ ∀ later, (s.go m).Legal later → (∀ m ∈ later, m ≠ .start) →
      ((s.go m).run later).Still ∧ (s.go m).asked later = []

theorem Sound.accounted (h : s.Sound) {settings : PoolSettings}
    (made : s.pool.settings = settings.clamped) : s.Accounted settings := by
  have slots : s.pool.slots = max 1 settings.concurrency.toNat := by
    rw [Pool.slots, made]
    exact slots_create settings
  have batch : s.pool.batch = max 1 settings.claimBatch.toNat := by
    rw [Pool.batch, made]
    exact batch_create settings
  have name : s.pool.settings.id = settings.id := by
    rw [made]
    rfl
  have balance := h.balance
  have claims : ∀ m n, s.asked? m = some n → s.pool.poll = .claiming n := by
    intro m n asked
    cases m with
    | poll time st d =>
      simp only [asked?] at asked
      split at asked
      · next claiming =>
        cases asked
        exact claiming
      · cases asked
    | _ => cases asked
  refine ⟨?_, ⟨?_, ?_⟩, ?_, ?_, ?_, ?_⟩
  · omega
  · omega
  · rw [load]
    omega
  · exact fun m permits => h.held_go permits
  · intro m n asked
    have claiming := claims m n asked
    obtain ⟨one, most⟩ := h.most n claiming
    have holds : s.pool.held = n := by simp only [held, claiming]
    omega
  · intro time st d n asked
    rw [← name]
    exact stepPoll_claiming (claims _ n asked) h.once h.begun time st d
  · intro m r permits returned
    have still : (s.go m).Still := by
      cases m with
      | advance time d => exact (h.advance permits).2 r returned
      | _ => cases returned
    exact ⟨still, fun later legal no_start => still.run no_start legal⟩

end Shift

/-- **No slot of a pool is lost or made up.** Whatever a pool was told and whatever happened to it
since it was made, its account is in order. -/
theorem slots_accounted (settings : PoolSettings) {ms : List Move}
    (legal : (Shift.create settings).Legal ms) :
    ((Shift.create settings).run ms).Accounted settings :=
  have sound := Shift.sound_create settings
  (sound.run legal).accounted (sound.settings_run legal)

/-- Settings of a pool with no slot and with claims for nothing, which are made one each. -/
def nothing : PoolSettings :=
  { PoolSettings.standard Workflow.defaultPool with concurrency := 0, claimBatch := 0 }

/-- A database with one instance that is ready. -/
def oneReady : Database :=
  { Database.create .epoch with store :=
    ⟨[{ Record.ofWorkflow ⟨1⟩ 1 (Workflow.create "order" .null) with status := .ready }], [], 1⟩ }

/-- The pool is started and its loop takes the slot, claims the instance and wants a slot again;
then the pool is stopped, its loop ends, and the stop waits for the dispatch until that breaks
down. -/
def briefLife : List Move :=
  [.start, .grab, .poll 0 (.create "a" .standard none false) oneReady, .wake, .stop,
    .poll 1 (.create "a" .standard none false) oneReady, .advance 1 oneReady, .finish 0]

theorem slots_accounted_briefLife :
    (Shift.create nothing).Legal briefLife ∧
      (((Shift.create nothing).run briefLife).go (.advance 2 oneReady)).Still := by
  have legal : (Shift.create nothing).Legal briefLife := by decide +kernel
  have permits : ((Shift.create nothing).run briefLife).Permits (.advance 2 oneReady) := by
    decide +kernel
  have returned : ((Shift.create nothing).run briefLife).returned? (.advance 2 oneReady)
      = some (.ok ()) := by decide +kernel
  exact ⟨legal, ((slots_accounted nothing legal).stops _ _ permits returned).1⟩

end Pool

end Resumption
