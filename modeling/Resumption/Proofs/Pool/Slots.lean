import Resumption.Proofs.Engine.Deed

/-!
# The slots of a pool

Whatever happens to a pool in whatever order, no slot is lost and none is made up. A pool is taken
together with the stop of it that is under way (`Pool.Shift`), and anybody may make a move
(`Pool.Move`): the poll loop takes one free slot after the other (`Pool.grab`) or all that it may at
once (`Pool.takeSlots`, which is the same, `Pool.takeSlots_eq`), claims from any storage and any
database, rests, and may break down wherever it is; dispatches go on and end, for whatever reason;
callers wake, start and stop the pool, and give a stop up.

The invariant is `Shift.Sound`: the free slots, those that the loop holds and the dispatches are all
slots there are, and a pool that is idle or stopped has no loop. Each move keeps it
(`Shift.Sound.go`) and so does a run of moves (`Shift.Sound.run`). A claim hands out at most what it
was asked for (`Storage.claimed_length_le`), so each instance finds a slot among those that the loop
holds (`Pool.stepPoll_claiming`). When a stop is over the pool is still (`Shift.Sound.advance`): it
has no loop and no dispatch, and all its slots are free.
-/

namespace Resumption

namespace Storage

/-- The answer to a claim holds no more instances than were asked for. -/
theorem claimed_length_le {s : Storage} {d : Database} {pool : String} {most : Nat}
    {ws : List Workflow} (h : (s.state d (.claim pool most)).1 = .claimed ws) :
    ws.length ≤ most := by
  rw [state] at h
  split at h
  · next ws' d₁ done =>
    cases h
    obtain ⟨d₂, d₃, -, -, claimed, -⟩ := Work.transact_ok done
    have store := Work.callTotal_ok claimed
    have list : ws = (d₂.store.claim s.access.engine pool most).1 := by rw [store]
    rw [list, Store.claim, List.length_map, Store.claimList]
    exact List.length_take_le _ _
  · next e d₁ failed =>
    cases e <;> cases h

end Storage

namespace Pool

def held (p : Pool) : Nat :=
  match p.poll with
  | .claiming n => n
  | _ => 0

/-- The most instances that one claim may take. -/
def batch (p : Pool) : Nat := p.settings.claimBatch.toNat

/-- The poll loop takes one more free slot. -/
def grab (p : Pool) : Pool := { p with free := p.free - 1, poll := .claiming (p.held + 1) }

/-- The loop takes so many free slots, one after the other. -/
def grabs : Nat → Pool → Pool
  | 0, p => p
  | n + 1, p => (grabs n p).grab

theorem grabs_succ (n : Nat) (p : Pool) :
    grabs (n + 1) p =
      { p with free := p.free - (n + 1), poll := .claiming (p.held + (n + 1)) } := by
  induction n with
  | zero => rfl
  | succ n ih =>
    rw [grabs, ih, grab]
    simp only [held, Nat.sub_sub, Nat.add_assoc]

/-- The poll loop breaks down, and the slots that it holds are free again. -/
def breakLoop (p : Pool) : Pool := { p with free := p.free + p.held, poll := .broken }

/-- Taking all slots of a claim at once is to take them one after the other. -/
theorem takeSlots_eq {p : Pool} (seeking : p.poll = .seeking) (free : 0 < p.free)
    (batch : 0 < p.batch) : p.takeSlots = grabs (min p.free p.batch) p := by
  obtain ⟨n, hn⟩ : ∃ n, min p.free p.batch = n + 1 := ⟨min p.free p.batch - 1, by omega⟩
  have none_held : p.held = 0 := by simp only [held, seeking]
  rw [hn, grabs_succ, none_held, Nat.zero_add, ← hn]
  rfl

/-! ## Moves -/

/-- What may happen to a pool. -/
inductive Move where
  | attach
  | wake
  | start
  /-- The poll loop takes one more free slot. -/
  | grab
  /-- The poll loop goes on, at a time, with a storage over a database. -/
  | poll (time : Nat) (s : Storage) (d : Database)
  /-- The poll loop breaks down. -/
  | collapse
  /-- A dispatch goes on in a phase. -/
  | carry (serial : Nat) (found : Bool) (phase : DispatchPhase)
  /-- A dispatch is over: its outcome was written or not, its runner broke down, or it was
  cancelled. -/
  | finish (serial : Nat)
  | stop
  /-- The stop goes on, at a time. -/
  | advance (time : Nat) (d : Database)
  /-- Whoever stops the pool gives up. -/
  | abandon

/-- A pool and the stop of it that is under way. -/
structure Shift where
  pool : Pool
  stopping : Option Stopping

namespace Shift

def create (settings : PoolSettings) : Shift := ⟨Pool.create settings, none⟩

def advance (s : Shift) (time : Nat) (d : Database) (q : Stopping) : Shift :=
  match s.pool.advanceStop time d q with
  | (.going q, p, _) => ⟨p, some q⟩
  | (.over _, p, _) => ⟨p, none⟩

def go (s : Shift) : Move → Shift
  | .attach => { s with pool := { s.pool with attached := true } }
  | .wake => { s with pool := s.pool.wake }
  | .start =>
    match s.pool.start with
    | .ok p => { s with pool := p }
    | .error _ => s
  | .grab => { s with pool := s.pool.grab }
  | .poll time st d => { s with pool := (s.pool.stepPoll time st d).1 }
  | .collapse => { s with pool := s.pool.breakLoop }
  | .carry serial found phase => { s with pool := s.pool.setPhase serial found phase }
  | .finish serial => { s with pool := s.pool.endDispatch serial }
  | .stop =>
    match s.pool.beginStop with
    | (.going q, p) => ⟨p, some q⟩
    | (.over _, p) => { s with pool := p }
  | .advance time d =>
    match s.stopping with
    | some q => s.advance time d q
    | none => s
  | .abandon => { s with stopping := none }

/-- The move may be made. -/
def Permits (s : Shift) : Move → Prop
  | .grab => 0 < s.pool.free ∧
      (s.pool.poll = .seeking ∨ 0 < s.pool.held ∧ s.pool.held < s.pool.batch)
  | .poll time _ _ => s.pool.pollReady time true = true
  | .collapse => s.pool.poll ∉ [PollPhase.absent, .ended, .broken]
  | .advance time _ => ∀ q ∈ s.stopping, s.pool.stopReady time q = true
  | _ => True

instance (s : Shift) : (m : Move) → Decidable (s.Permits m)
  | .grab => inferInstanceAs (Decidable (_ ∧ _))
  | .poll _ _ _ => inferInstanceAs (Decidable (_ = _))
  | .collapse => inferInstanceAs (Decidable (_ ∉ _))
  | .advance _ _ => inferInstanceAs (Decidable (∀ q ∈ s.stopping, _))
  | .attach | .wake | .start | .carry _ _ _ | .finish _ | .stop | .abandon => isTrue trivial

def run (s : Shift) (ms : List Move) : Shift := ms.foldl go s

def Legal (s : Shift) : List Move → Prop
  | [] => True
  | m :: ms => s.Permits m ∧ (s.go m).Legal ms

instance decidableLegal : (ms : List Move) → (s : Shift) → Decidable (s.Legal ms)
  | [], _ => isTrue trivial
  | m :: ms, s =>
    have := decidableLegal ms (s.go m)
    inferInstanceAs (Decidable (s.Permits m ∧ (s.go m).Legal ms))

/-- The number of instances that the loop asks the storage for by this move. -/
def asked? (s : Shift) : Move → Option Nat
  | .poll _ _ _ =>
    match s.pool.poll with
    | .claiming n => some n
    | _ => none
  | _ => none

/-- What the loop asks for by some moves. -/
def asked (s : Shift) : List Move → List Nat
  | [] => []
  | m :: ms => (s.asked? m).toList ++ (s.go m).asked ms

/-- What the stop of the pool returns by this move, if it is over by it. -/
def returned? (s : Shift) : Move → Option (Except PoolError Unit)
  | .advance time d =>
    s.stopping.bind fun q =>
      match (s.pool.advanceStop time d q).1 with
      | .over r => some r
      | .going _ => none
  | _ => none

variable {s : Shift}

theorem go_start (s : Shift) :
    s.go .start = if s.pool.status = .running ∨ s.pool.status = .draining then s
      else { s with pool := { s.pool with
        status := .running, cancelled := false, aborting := false, poll := .seeking } } := by
  unfold go Pool.start
  by_cases running : s.pool.status = .running ∨ s.pool.status = .draining
  · simp only [running, if_true]
  · simp only [running, if_false]

theorem go_stop (s : Shift) :
    s.go .stop = if s.pool.status = .running
      then ⟨{ s.pool with status := .draining, cancelled := true }, some .awaitingPoll⟩ else s := by
  unfold go beginStop
  by_cases running : s.pool.status = .running
  · simp only [running, if_true]
  · simp only [running, if_false]

theorem advance_dispatches (s : Shift) (time due : Nat) (d : Database) :
    s.advance time d (.awaitingDispatches due) = if s.pool.dispatches.isEmpty
      then ⟨{ s.pool with status := .stopped }, none⟩
      else ⟨{ s.pool with aborting := true }, some .awaitingAborted⟩ := by
  unfold advance advanceStop
  by_cases empty : s.pool.dispatches.isEmpty = true
  · simp only [empty, if_true]
  · simp only [empty, if_false, Bool.false_eq_true]

/-! ## The invariant -/

/-- The free slots, the ones that the loop holds and the dispatches are all the slots. -/
structure Sound (s : Shift) : Prop where
  balance : s.pool.free + s.pool.held + s.pool.dispatches.length = s.pool.slots
  /-- The loop claims for one slot at least and for a batch at most. -/
  most : ∀ n, s.pool.poll = .claiming n → 1 ≤ n ∧ n ≤ s.pool.batch
  batch : 1 ≤ s.pool.batch
  once : (s.pool.dispatches.map (·.serial)).Nodup
  begun : ∀ d ∈ s.pool.dispatches, d.serial < s.pool.issued
  /-- A pool that does not run has no loop. -/
  rest : s.pool.status = .idle ∨ s.pool.status = .stopped → s.pool.poll = .absent
  draining : ∀ q, s.stopping = some q → s.pool.status = .draining
  /-- A stop waits for the dispatches only when the loop is gone. -/
  gone : ∀ q, s.stopping = some q → q ≠ .awaitingPoll → s.pool.poll = .absent

/-! ### Making a pool -/

theorem toNat_max_one (n : UInt64) : (max n 1).toNat = max 1 n.toNat := by
  by_cases h : n ≤ 1
  · have small : n.toNat ≤ 1 := UInt64.le_iff_toNat_le.1 h
    have one : max n 1 = 1 := if_pos h
    rw [one]
    show 1 = max 1 n.toNat
    omega
  · have large : ¬ n.toNat ≤ 1 := fun le => h (UInt64.le_iff_toNat_le.2 le)
    have same : max n 1 = n := if_neg h
    rw [same]
    omega

theorem slots_create (settings : PoolSettings) :
    (Pool.create settings).slots = max 1 settings.concurrency.toNat :=
  toNat_max_one settings.concurrency

theorem batch_create (settings : PoolSettings) :
    (Pool.create settings).batch = max 1 settings.claimBatch.toNat :=
  toNat_max_one settings.claimBatch

theorem sound_create (settings : PoolSettings) : (create settings).Sound where
  balance := by simp [create, Pool.create, Pool.held, Pool.slots]
  most n h := by cases h
  batch := by
    simp only [create, batch_create]
    omega
  once := List.nodup_nil
  begun _ h := by cases h
  rest _ := rfl
  draining _ h := by cases h
  gone _ h := by cases h

end Shift

/-! ### The poll loop -/

/-- What becomes of a claim for `n` instances that hands out `ws`. -/
structure Dealt (p : Pool) (n : Nat) (ws : List Workflow) (p' : Pool) : Prop where
  fits : ws.length ≤ n
  /-- Each instance has a dispatch, behind those under way. -/
  dispatches : ∃ new, p'.dispatches = p.dispatches ++ new ∧ new.map (·.workflow) = ws
  /-- No two dispatches have one number. -/
  once : (p'.dispatches.map (·.serial)).Nodup
  begun : ∀ d ∈ p'.dispatches, d.serial < p'.issued
  /-- The slots that no instance needs are free again, and the loop holds none. -/
  free : p'.free = p.free + (n - ws.length)
  seeks : ∀ m, p'.poll ≠ .claiming m
  settings : p'.settings = p.settings
  status : p'.status = p.status

theorem Dealt.held {p p' : Pool} {n : Nat} {ws : List Workflow} (h : Dealt p n ws p') :
    p'.held = 0 := by
  unfold Pool.held
  split
  · next m seeks => exact absurd seeks (h.seeks m)
  · rfl

theorem Dealt.length {p p' : Pool} {n : Nat} {ws : List Workflow} (h : Dealt p n ws p') :
    p'.dispatches.length = p.dispatches.length + ws.length := by
  obtain ⟨new, eq, rfl⟩ := h.dispatches
  rw [eq, List.length_append, List.length_map]

/-- Numbers that are given out from the next one on are new. -/
theorem once_dispatchAll {p : Pool} (once : (p.dispatches.map (·.serial)).Nodup)
    (begun : ∀ d ∈ p.dispatches, d.serial < p.issued) (ws : List Workflow) :
    ((p.dispatchAll ws).dispatches.map (·.serial)).Nodup := by
  rw [Engine.dispatchAll_serials, List.nodup_append]
  refine ⟨once, List.nodup_range', ?_⟩
  intro a ha b hb same
  obtain ⟨d, hd, rfl⟩ := List.mem_map.1 ha
  have old := begun d hd
  have new := (List.mem_range'_1.1 hb).1
  omega

theorem begun_dispatchAll {p : Pool} (begun : ∀ d ∈ p.dispatches, d.serial < p.issued)
    (ws : List Workflow) :
    ∀ d ∈ (p.dispatchAll ws).dispatches, d.serial < (p.dispatchAll ws).issued := by
  intro d hd
  simp only [dispatchAll] at hd ⊢
  rcases List.mem_append.1 hd with old | new
  · have := begun d old
    omega
  · obtain ⟨i, hi, rfl⟩ := List.mem_mapIdx.1 new
    simp only
    omega

theorem dealt_afterClaim {p : Pool} {n : Nat} {ws : List Workflow} (fits : ws.length ≤ n)
    (once : (p.dispatches.map (·.serial)).Nodup)
    (begun : ∀ d ∈ p.dispatches, d.serial < p.issued) (time : Nat) :
    Dealt p n ws (p.afterClaim time n ws) := by
  have all_once := once_dispatchAll once begun ws
  have all_begun := begun_dispatchAll begun ws
  have new : (ws.mapIdx fun i w => (⟨p.issued + i, w, .fresh, false⟩ : Dispatch)).map (·.workflow)
      = ws := by
    apply List.ext_getElem
    · simp
    · intro i h₁ h₂
      simp
  unfold afterClaim
  by_cases full : ws.length = n
  · simp only [full, if_true]
    exact ⟨fits, ⟨_, rfl, new⟩, all_once, all_begun, by simp [full],
      fun m h => (by cases h), rfl, rfl⟩
  · simp only [full, if_false]
    exact ⟨fits, ⟨_, rfl, new⟩, all_once, all_begun, rfl, fun m h => (by cases h), rfl, rfl⟩

/-- **A claim of the poll loop.** The instances that it hands out have a dispatch each, and the
other slots are free again; one that fails hands out none. -/
theorem stepPoll_claiming {p : Pool} {n : Nat} (claiming : p.poll = .claiming n)
    (once : (p.dispatches.map (·.serial)).Nodup)
    (begun : ∀ d ∈ p.dispatches, d.serial < p.issued) (time : Nat) (st : Storage) (d : Database) :
    ∃ ws, Dealt p n ws (p.stepPoll time st d).1 ∧
      ((st.state d (.claim p.settings.id n)).1 = .claimed ws ∨
        (∀ ws', (st.state d (.claim p.settings.id n)).1 ≠ .claimed ws') ∧ ws = []) := by
  simp only [stepPoll, claiming]
  split
  · next ws st' d' answer =>
    have claimed : (st.state d (.claim p.settings.id n)).1 = .claimed ws := by rw [answer]
    have fits := Storage.claimed_length_le claimed
    exact ⟨ws, dealt_afterClaim fits once begun time, .inl claimed⟩
  · next message st' d' answer =>
    refine ⟨[], ⟨Nat.zero_le n, ⟨[], by simp, rfl⟩, once, begun, by simp, fun m h => (by cases h),
      rfl, rfl⟩, .inr ⟨?_, rfl⟩⟩
    intro ws' claimed
    rw [answer] at claimed
    cases claimed
  · next answer st' d' not_claimed _ eq =>
    refine ⟨[], dealt_afterClaim (Nat.zero_le n) once begun time, .inr ⟨?_, rfl⟩⟩
    intro ws' claimed
    rw [eq] at claimed
    exact not_claimed ws' claimed

/-- The loop goes on without a claim: it takes slots or rests, and what it holds it has taken out of
the free ones. -/
structure Loops (p p' : Pool) : Prop where
  dispatches : p'.dispatches = p.dispatches
  issued : p'.issued = p.issued
  settings : p'.settings = p.settings
  status : p'.status = p.status
  total : p'.free + p'.held = p.free + p.held
  most : ∀ n, p'.poll = .claiming n → 1 ≤ n ∧ n ≤ p.batch

theorem loops_grab {p : Pool} (one : 1 ≤ p.batch) (free : 0 < p.free)
    (room : p.poll = .seeking ∨ 0 < p.held ∧ p.held < p.batch) : Loops p p.grab := by
  refine ⟨rfl, rfl, rfl, rfl, ?_, ?_⟩
  · show p.free - 1 + (p.held + 1) = _
    omega
  · intro n hn
    have taken : p.held + 1 = n := by
      cases hn
      rfl
    rcases room with seeking | ⟨-, room⟩
    · have none_held : p.held = 0 := by simp only [held, seeking]
      omega
    · omega

theorem loops_takeSlots {p : Pool} (one : 1 ≤ p.batch) (free : 0 < p.free)
    (seeking : p.poll = .seeking) : Loops p p.takeSlots := by
  have none_held : p.held = 0 := by simp only [held, seeking]
  refine ⟨rfl, rfl, rfl, rfl, ?_, ?_⟩
  · rw [none_held]
    show p.free - min p.free p.batch + min p.free p.batch = _
    omega
  · intro n hn
    have taken : min p.free p.batch = n := by
      cases hn
      rfl
    omega

theorem loops_breakLoop (p : Pool) : Loops p p.breakLoop :=
  ⟨rfl, rfl, rfl, rfl, rfl, fun _ h => (by cases h)⟩

/-- **What a step of the poll loop can do**: go on without a claim, or claim. -/
theorem stepPoll_cases {p : Pool} {time : Nat} (ready : p.pollReady time true = true)
    (one : 1 ≤ p.batch) (once : (p.dispatches.map (·.serial)).Nodup)
    (begun : ∀ d ∈ p.dispatches, d.serial < p.issued) (st : Storage) (d : Database) :
    p.poll ≠ .absent ∧
      (Loops p (p.stepPoll time st d).1 ∨
        ∃ n ws, p.poll = .claiming n ∧ Dealt p n ws (p.stepPoll time st d).1) := by
  unfold pollReady at ready
  split at ready
  · next seeking =>
    refine ⟨by simp [seeking], .inl ?_⟩
    have none_held : p.held = 0 := by simp only [held, seeking]
    simp only [stepPoll, seeking]
    by_cases cancelled : p.cancelled = true
    · rw [if_pos cancelled]
      exact ⟨rfl, rfl, rfl, rfl, by rw [none_held]; rfl, fun n hn => (by cases hn)⟩
    · rw [if_neg cancelled]
      simp only [cancelled, Bool.false_or, decide_eq_true_eq] at ready
      exact loops_takeSlots one ready seeking
  · next n claiming =>
    obtain ⟨ws, dealt, -⟩ := stepPoll_claiming claiming once begun time st d
    exact ⟨by simp [claiming], .inr ⟨n, ws, claiming, dealt⟩⟩
  · next due resting =>
    refine ⟨by simp [resting], .inl ?_⟩
    have none_held : p.held = 0 := by simp only [held, resting]
    simp only [stepPoll, resting]
    by_cases cancelled : p.cancelled = true
    · rw [if_pos cancelled]
      exact ⟨rfl, rfl, rfl, rfl, by rw [none_held]; rfl, fun n hn => (by cases hn)⟩
    · rw [if_neg cancelled]
      exact ⟨rfl, rfl, rfl, rfl, by rw [none_held]; rfl, fun n hn => (by cases hn)⟩
  · cases ready

namespace Shift

variable {s : Shift}

/-! ### The moves keep the invariant -/

/-- Where the loop has something to do, the pool is neither idle nor stopped, and no stop has got
beyond waiting for the loop. -/
theorem Sound.busy (h : s.Sound) (busy : s.pool.poll ≠ .absent) :
    ¬ (s.pool.status = .idle ∨ s.pool.status = .stopped) ∧
      ∀ q, s.stopping = some q → q = .awaitingPoll := by
  refine ⟨fun rests => busy (h.rest rests), ?_⟩
  intro q hq
  apply Decidable.byContradiction
  intro late
  exact busy (h.gone q hq late)

theorem Sound.loops (h : s.Sound) (busy : s.pool.poll ≠ .absent) {p : Pool}
    (loops : Loops s.pool p) : Sound { s with pool := p } := by
  obtain ⟨not_rest, early⟩ := h.busy busy
  have slots : p.slots = s.pool.slots := by rw [slots, slots, loops.settings]
  have batch : p.batch = s.pool.batch := by rw [Pool.batch, Pool.batch, loops.settings]
  refine ⟨?_, ?_, ?_, ?_, ?_, ?_, ?_, ?_⟩
  · simp only [loops.dispatches, slots, loops.total]
    exact h.balance
  · simp only [batch]
    exact loops.most
  · simp only [batch]
    exact h.batch
  · simp only [loops.dispatches]
    exact h.once
  · simp only [loops.dispatches, loops.issued]
    exact h.begun
  · simp only [loops.status]
    exact fun rests => absurd rests not_rest
  · simp only [loops.status]
    exact h.draining
  · exact fun q hq late => absurd (early q hq) late

theorem Sound.dealt (h : s.Sound) {n : Nat} {ws : List Workflow} {p : Pool}
    (claiming : s.pool.poll = .claiming n) (dealt : Dealt s.pool n ws p) :
    Sound { s with pool := p } := by
  obtain ⟨not_rest, early⟩ := h.busy (by simp [claiming])
  have holds : s.pool.held = n := by simp only [held, claiming]
  have slots : p.slots = s.pool.slots := by rw [slots, slots, dealt.settings]
  have batch : p.batch = s.pool.batch := by rw [Pool.batch, Pool.batch, dealt.settings]
  refine ⟨?_, ?_, ?_, dealt.once, dealt.begun, ?_, ?_, ?_⟩
  · have balance := h.balance
    have fits := dealt.fits
    simp only [slots, dealt.held, dealt.length, dealt.free]
    omega
  · exact fun m hm => absurd hm (dealt.seeks m)
  · simp only [batch]
    exact h.batch
  · simp only [dealt.status]
    exact fun rests => absurd rests not_rest
  · simp only [dealt.status]
    exact h.draining
  · exact fun q hq late => absurd (early q hq) late

theorem Sound.grab (h : s.Sound) (permits : s.Permits .grab) : (s.go .grab).Sound := by
  obtain ⟨free, room⟩ := permits
  have busy : s.pool.poll ≠ .absent := by
    intro absent
    rcases room with seeking | ⟨holds, -⟩
    · rw [absent] at seeking
      cases seeking
    · simp only [held, absent] at holds
      omega
  exact h.loops busy (loops_grab h.batch free room)

theorem Sound.poll (h : s.Sound) {time : Nat} {st : Storage} {d : Database}
    (permits : s.Permits (.poll time st d)) : (s.go (.poll time st d)).Sound := by
  obtain ⟨busy, loops | ⟨n, ws, claiming, dealt⟩⟩ :=
    stepPoll_cases permits h.batch h.once h.begun st d
  · exact h.loops busy loops
  · exact h.dealt claiming dealt

theorem Sound.collapse (h : s.Sound) (permits : s.Permits .collapse) : (s.go .collapse).Sound := by
  have busy : s.pool.poll ≠ .absent := by
    intro absent
    exact permits (by simp [absent])
  exact h.loops busy (loops_breakLoop s.pool)

theorem Sound.carry (h : s.Sound) (serial : Nat) (found : Bool) (phase : DispatchPhase) :
    (s.go (.carry serial found phase)).Sound := by
  have serials := Engine.setPhase_serials s.pool serial found phase
  refine ⟨?_, h.most, h.batch, ?_, ?_, h.rest, h.draining, h.gone⟩
  · have length := congrArg List.length serials
    simp only [List.length_map] at length
    simp only [go, length]
    exact h.balance
  · simp only [go, serials]
    exact h.once
  · intro d hd
    have mem : d.serial ∈ s.pool.dispatches.map (·.serial) := by
      rw [← serials]
      exact List.mem_map_of_mem hd
    obtain ⟨d', hd', same⟩ := List.mem_map.1 mem
    rw [← same]
    exact h.begun d' hd'

theorem Sound.finish (h : s.Sound) (serial : Nat) : (s.go (.finish serial)).Sound := by
  refine ⟨?_, h.most, h.batch, ?_, ?_, h.rest, h.draining, h.gone⟩
  · have balance := h.balance
    have parts := List.length_eq_countP_add_countP (fun d : Dispatch => d.serial == serial)
      (l := s.pool.dispatches)
    have left : (s.pool.dispatches.filter fun d => decide (d.serial ≠ serial)).length
        = s.pool.dispatches.countP fun d => decide ¬(d.serial == serial) = true := by
      rw [List.countP_eq_length_filter]
      congr 1
      apply List.filter_congr
      intro d _
      simp
    simp only [go, endDispatch, left]
    show s.pool.free + _ + s.pool.held + _ = s.pool.slots
    omega
  · exact (List.filter_sublist.map _).nodup h.once
  · exact fun d hd => h.begun d (List.mem_filter.1 hd).1

theorem Sound.start (h : s.Sound) : (s.go .start).Sound := by
  rw [go_start]
  by_cases running : s.pool.status = .running ∨ s.pool.status = .draining
  · rw [if_pos running]
    exact h
  · rw [if_neg running]
    have rests : s.pool.status = .idle ∨ s.pool.status = .stopped := by
      cases status : s.pool.status <;> simp [status] at running ⊢
    have none_held : s.pool.held = 0 := by simp only [held, h.rest rests]
    have no_stop : ∀ q, s.stopping ≠ some q := fun q hq => running (.inr (h.draining q hq))
    refine ⟨?_, ?_, h.batch, h.once, h.begun, ?_, ?_, ?_⟩
    · have balance := h.balance
      rw [none_held] at balance
      exact balance
    · exact fun n hn => (by cases hn)
    · exact fun rests => (by rcases rests with r | r <;> cases r)
    · exact fun q hq => absurd hq (no_stop q)
    · exact fun q hq => absurd hq (no_stop q)

theorem Sound.stop (h : s.Sound) : (s.go .stop).Sound := by
  rw [go_stop]
  by_cases running : s.pool.status = .running
  · rw [if_pos running]
    refine ⟨h.balance, h.most, h.batch, h.once, h.begun, ?_, ?_, ?_⟩
    · exact fun rests => (by rcases rests with r | r <;> cases r)
    · exact fun _ _ => rfl
    · intro q hq late
      cases hq
      exact absurd rfl late
  · rw [if_neg running]
    exact h

/-! ### Stopping -/

/-- Nothing goes on in a stopped pool, and all its slots are free. -/
structure Still (s : Shift) : Prop where
  status : s.pool.status = .stopped
  loop : s.pool.poll = .absent
  dispatches : s.pool.dispatches = []
  free : s.pool.free = s.pool.slots
  stopped : s.stopping = none

theorem Sound.awaitingPoll (h : s.Sound) (stopping : s.stopping = some .awaitingPoll) {time : Nat}
    (ready : s.pool.stopReady time .awaitingPoll = true) (d : Database) :
    (s.advance time d .awaitingPoll).Sound := by
  have balance := h.balance
  have none_held : s.pool.held = 0 := by
    simp only [stopReady, Bool.or_eq_true, beq_iff_eq] at ready
    unfold held
    split
    · next n claiming => simp [claiming] at ready
    · rfl
  refine ⟨?_, ?_, h.batch, h.once, h.begun, ?_, ?_, ?_⟩
  · rw [none_held] at balance
    exact balance
  · exact fun n hn => (by cases hn)
  · exact fun _ => rfl
  · exact fun _ _ => h.draining _ stopping
  · exact fun _ _ _ => rfl

/-- A stop that finds no dispatch leaves the pool still. -/
theorem Sound.stopped (h : s.Sound) {q : Stopping} (stopping : s.stopping = some q)
    (late : q ≠ .awaitingPoll) (empty : s.pool.dispatches = []) :
    Sound ⟨{ s.pool with status := .stopped }, none⟩ ∧
      Still ⟨{ s.pool with status := .stopped }, none⟩ := by
  have absent := h.gone q stopping late
  have none_held : s.pool.held = 0 := by simp only [held, absent]
  have balance := h.balance
  refine ⟨⟨balance, h.most, h.batch, h.once, h.begun, ?_, ?_, ?_⟩, rfl, absent, empty, ?_, rfl⟩
  · exact fun _ => absent
  · exact fun _ hq => (by cases hq)
  · exact fun _ hq => (by cases hq)
  · rw [none_held, empty] at balance
    exact balance

/-- **A stop goes on** and keeps the invariant; when it is over, the pool is still. -/
theorem Sound.advance (h : s.Sound) {time : Nat} {d : Database}
    (permits : s.Permits (.advance time d)) :
    (s.go (.advance time d)).Sound ∧
      ∀ r, s.returned? (.advance time d) = some r → (s.go (.advance time d)).Still := by
  simp only [go, returned?]
  cases stopping : s.stopping with
  | none => exact ⟨h, fun r hr => (by cases hr)⟩
  | some q =>
    have ready := permits q stopping
    cases q with
    | awaitingPoll => exact ⟨h.awaitingPoll stopping ready d, fun r hr => (by cases hr)⟩
    | awaitingDispatches due =>
      simp only [advance_dispatches]
      by_cases empty : s.pool.dispatches.isEmpty = true
      · rw [if_pos empty]
        obtain ⟨sound, still⟩ := h.stopped stopping (by simp) (List.isEmpty_iff.1 empty)
        exact ⟨sound, fun _ _ => still⟩
      · rw [if_neg empty]
        refine ⟨⟨h.balance, h.most, h.batch, h.once, h.begun, h.rest, ?_, ?_⟩, ?_⟩
        · exact fun _ _ => h.draining _ stopping
        · exact fun _ _ _ => h.gone _ stopping (by simp)
        · intro r hr
          simp [advanceStop, empty] at hr
    | awaitingAborted =>
      obtain ⟨sound, still⟩ := h.stopped stopping (by simp) (by simpa [stopReady] using ready)
      exact ⟨sound, fun _ _ => still⟩

/-- **Each move keeps the invariant.** -/
theorem Sound.go (h : s.Sound) {m : Move} (permits : s.Permits m) : (s.go m).Sound := by
  cases m with
  | attach | wake => exact ⟨h.balance, h.most, h.batch, h.once, h.begun, h.rest, h.draining, h.gone⟩
  | start => exact h.start
  | grab => exact h.grab permits
  | poll time st d => exact h.poll permits
  | collapse => exact h.collapse permits
  | carry serial found phase => exact h.carry serial found phase
  | finish serial => exact h.finish serial
  | stop => exact h.stop
  | advance time d => exact (h.advance permits).1
  | abandon =>
    exact ⟨h.balance, h.most, h.batch, h.once, h.begun, h.rest, fun _ hq => (by cases hq),
      fun _ hq => (by cases hq)⟩

theorem Sound.run {ms : List Move} : ∀ {s : Shift}, s.Sound → s.Legal ms → (s.run ms).Sound := by
  induction ms with
  | nil => exact fun h _ => h
  | cons m ms ih => exact fun h legal => ih (h.go legal.1) legal.2

end Shift

end Pool

end Resumption
