import Resumption.Proofs.Storage.Actions
import Resumption.Proofs.Storage.Worker

/-!
# How responses come to a storage

A response that is offered to a storage, alone or as one of many, waits for its delivery: in a phase
of the call (`Phase.notified`) or in the hands of the writer (`Storage.notified`). **Only a call that
offers responses brings any there, and their lifetime is settled by then** (`begin_brings`). No step
of a call, of the writer or of a loop adds one (`advance_brings`, `stepWorker_narrows`).
-/

namespace Resumption

/-! ## Where responses wait for their delivery -/

def Command.notified : Command → List Response
  | .notify r => [r]
  | _ => []

theorem Command.deliver_notified {c : Command} {remove : Bool} {x : Response}
    (h : c.action remove = .deliver x) : x ∈ c.notified := by
  cases c with
  | notify r => cases h; exact List.mem_singleton_self x
  | _ => cases h

namespace Storage

/-- The responses that the next step from a phase delivers. -/
def Phase.notified : Phase → List Response
  | .stating (.notify rs) => rs
  | .writing _ (.alone c) => c.notified
  | _ => []

def notified (s : Storage) : List Response :=
  (s.batcher.map fun b => b.inHand.flatMap fun x => x.command.notified).getD []

def Call.offered : Call → List Response
  | .notify r => [r]
  | .notifyAll rs => rs
  | _ => []

/-- The call is one of those that a storage offers; the raw delivery of a response is not. -/
def Call.Proper : Call → Prop
  | .submit c => c.notified = []
  | _ => True

/-- What a response is settled to depends on the settings alone. -/
theorem settle_eq {s s' : Storage} (h : s'.settings = s.settings) : s'.settle = s.settle := by
  funext r
  rw [settle, settle, h]

/-- A step brings responses that are among `xs` to where they wait for their delivery, and leaves the
settings alone. -/
structure Brings (s : Storage) (xs : List Response) (step : Progress × Storage × Database) :
    Prop where
  settings : step.2.1.settings = s.settings
  line : ∀ x ∈ step.2.1.notified, x ∈ s.notified ∨ x ∈ xs
  phase : ∀ p, step.1 = .going p → ∀ x ∈ p.notified, x ∈ xs

variable {s s' : Storage} {d d' : Database} {xs : List Response}

theorem brings_of_eq {r : Progress} (hs : s'.settings = s.settings) (hb : s'.batcher = s.batcher)
    (hp : ∀ p, r = .going p → ∀ x ∈ p.notified, x ∈ xs) : s.Brings xs (r, s', d) :=
  ⟨hs, fun x hx => .inl (by rwa [notified, hb] at hx), hp⟩

theorem notified_close : notified { s with batcher := s.batcher.map Batcher.close } = s.notified := by
  unfold notified
  cases s.batcher <;> rfl

theorem enter_brings (s : Storage) (c : Command) :
    (s.enter c).2.settings = s.settings ∧
      (∀ x ∈ (s.enter c).2.notified, x ∈ s.notified ∨ x ∈ c.notified) ∧
        ∀ c', (s.enter c).1 = some (.alone c') → c' = c := by
  unfold enter
  cases hb : s.batcher with
  | none => exact ⟨rfl, fun x hx => .inl hx, fun c' h => by cases h; rfl⟩
  | some b =>
    refine ⟨rfl, fun x hx => ?_, fun c' h => ?_⟩
    · simp only [notified, Option.map_some, Option.getD_some, List.mem_flatMap, hb] at hx ⊢
      obtain ⟨y, hy, hx⟩ := hx
      unfold Batcher.submit at hy
      split at hy
      · exact .inl ⟨y, hy, hx⟩
      · simp only [Batcher.inHand, ← List.append_assoc, List.mem_append,
          List.mem_singleton] at hy
        rcases hy with hy | rfl
        · exact .inl ⟨y, List.mem_append.2 hy, hx⟩
        · exact .inr hx
    · dsimp only at h
      rcases Option.map_eq_some_iff.1 h with ⟨t, -, ht⟩
      cases ht

theorem writing_brings {c : Command} {p : Purpose} {passage : Passage}
    (h : (s.enter c).1 = some passage) : s.Brings c.notified
      (.going (.writing p passage), (s.enter c).2, d) := by
  obtain ⟨hs, hl, ha⟩ := s.enter_brings c
  refine ⟨hs, hl, fun q hq x hx => ?_⟩
  cases hq
  cases passage with
  | alone c' => exact ha c' h ▸ hx
  | inLine ticket => cases hx

theorem beginFail_brings (s : Storage) (d : Database) (w : Workflow) (cause : String) :
    s.Brings [] (s.beginFail d w cause) := by
  unfold beginFail
  split
  · exact brings_of_eq rfl rfl fun p h => nomatch h
  · rename_i id _
    obtain ⟨hs, hl, -⟩ := s.enter_brings (.fail id cause)
    split <;> rename_i heq
    · have := writing_brings (d := d) (p := .fail w) (s := s) (congrArg Prod.fst heq)
      rwa [heq] at this
    · rw [heq] at hs hl
      exact ⟨hs, hl, fun p h => nomatch h⟩

theorem acknowledge_brings (s : Storage) (d : Database) (p : Purpose)
    (r : Except StoreError Unit) : s.Brings [] (s.acknowledge d p r) := by
  have ended : ∀ (r : Reply) (d' : Database), s.Brings [] (.over r, s, d') := fun r d' =>
    brings_of_eq rfl rfl fun p h => nomatch h
  unfold acknowledge
  split
  · exact ended _ _
  · exact ended _ _
  · exact ended _ _
  · exact ended _ _
  · exact ended _ _
  · exact ended _ _
  · exact s.beginFail_brings _ _ _

theorem beginWrite_brings (s : Storage) (d : Database) (p : Purpose) (c : Command) :
    s.Brings c.notified (s.beginWrite d p c) := by
  obtain ⟨hs, hl, -⟩ := s.enter_brings c
  unfold beginWrite
  split <;> rename_i heq
  · have := writing_brings (d := d) (p := p) (s := s) (congrArg Prod.fst heq)
    rwa [heq] at this
  · rename_i s'
    rw [heq] at hs hl
    have ha := s'.acknowledge_brings d p (.error .writerClosed)
    exact ⟨ha.settings.trans hs, fun x hx => (ha.line x hx).elim (hl x) fun h => (nomatch h),
      fun q hq x hx => nomatch ha.phase q hq x hx⟩

/-- **Taking a call in** brings what the call offers, with its lifetime settled. -/
theorem begin_brings (s : Storage) (d : Database) {c : Call} (hc : c.Proper) :
    s.Brings (c.offered.map s.settle) (s.begin d c) := by
  have ended : ∀ (r : Reply) (s' : Storage) (d' : Database), s'.settings = s.settings →
      s'.batcher = s.batcher → ∀ xs, s.Brings xs (.over r, s', d') := fun r s' d' hs hb xs =>
    brings_of_eq hs hb fun p h => by cases h
  have going : ∀ (p : Phase), p.notified = [] → s.Brings [] (.going p, s, d) := fun p hp =>
    brings_of_eq rfl rfl fun q h => by cases h; rw [hp]; exact fun _ h => by cases h
  cases c with
  | start =>
    rw [Storage.begin]
    split
    · exact ended _ _ _ rfl rfl _
    · exact brings_of_eq rfl rfl fun q h => by cases h; exact fun _ h => by cases h
  | stop =>
    rw [Storage.begin]
    split
    · exact ended _ _ _ rfl rfl _
    · refine ⟨rfl, fun x hx => .inl ?_, fun p h => by cases h; exact fun _ h => by cases h⟩
      have : x ∈ notified { s with batcher := s.batcher.map Batcher.close } := hx
      rwa [notified_close] at this
  | insert ws =>
    cases ws with
    | nil => exact ended _ _ _ rfl rfl _
    | cons w ws => exact going _ rfl
  | claim pool most =>
    rw [Storage.begin]
    split
    · exact ended _ _ _ rfl rfl _
    · exact going _ rfl
  | load id => exact going _ rfl
  | suspend w =>
    rw [Storage.begin]
    split
    · exact ended _ _ _ rfl rfl _
    · rename_i c _
      exact s.beginWrite_brings d (.suspend w) (.suspend c w.payload)
  | fail w cause => exact s.beginFail_brings d w cause
  | finish w =>
    rw [Storage.begin]
    split
    · exact ended _ _ _ rfl rfl _
    · rename_i id _
      exact s.beginWrite_brings d (.finish w) (.finish id)
  | restart id => exact going _ rfl
  | restartAll => exact going _ rfl
  | notify r => exact s.beginWrite_brings d .plain (.notify (s.settle r))
  | notifyAll rs => exact brings_of_eq rfl rfl fun p h => by cases h; exact fun x hx => hx
  | submit c =>
    have := s.beginWrite_brings d .plain c
    rwa [hc] at this
  | closeWriter =>
    refine ⟨rfl, fun x hx => .inl ?_, fun p h => by cases h; exact fun _ h => by cases h⟩
    have : x ∈ notified { s with batcher := s.batcher.map Batcher.close } := hx
    rwa [notified_close] at this

theorem state_settings (s : Storage) (d : Database) (q : Statement) :
    (s.state d q).2.1.settings = s.settings ∧ (s.state d q).2.1.batcher = s.batcher := by
  cases q <;> rw [state] <;> first | exact ⟨rfl, rfl⟩ | (split <;> exact ⟨rfl, rfl⟩)

/-- **A step of a call** brings nothing. -/
theorem advance_brings (s : Storage) (time : Nat) (d : Database) (p : Phase) :
    s.Brings [] (s.advance time d p) := by
  have ended : ∀ (r : Reply) (s' : Storage) (d' : Database), s'.settings = s.settings →
      s'.batcher = s.batcher → s.Brings [] (.over r, s', d') := fun r s' d' hs hb =>
    brings_of_eq hs hb fun p h => by cases h
  have going : ∀ (p : Phase) (d' : Database), p.notified = [] → s.Brings [] (.going p, s, d') :=
    fun p d' hp => brings_of_eq rfl rfl fun q h => by cases h; rw [hp]; exact fun _ h => by cases h
  cases p with
  | stating q =>
    obtain ⟨hs, hb⟩ := s.state_settings d q
    exact ended _ _ _ hs hb
  | writing purpose passage =>
    cases passage with
    | alone c =>
      rw [advance, write]
      split
      · exact ended _ _ _ rfl rfl
      · exact s.acknowledge_brings _ _ _
      · exact s.acknowledge_brings _ _ _
    | inLine ticket =>
      rw [advance, write]
      split
      · rename_i b r h
        obtain ⟨b', hb, h⟩ := Option.bind_eq_some_iff.1 h
        obtain ⟨r', -, h⟩ := Option.map_eq_some_iff.1 h
        cases h
        have ha := acknowledge_brings { s with batcher := some (b.forget ticket) } d purpose r
        refine ⟨ha.settings, fun x hx => ?_, ha.phase⟩
        rcases ha.line x hx with hx | hx
        · left
          rw [notified, hb]
          exact hx
        · cases hx
      · exact going _ _ rfl
  | sweeping =>
    rw [advance]
    split
    · exact going _ _ rfl
    · exact going _ _ rfl
    · exact ended _ _ _ rfl rfl
  | recovering =>
    rw [advance]
    split
    · exact ended _ _ _ rfl rfl
    · exact ended _ _ _ rfl rfl
  | draining stopping =>
    have next : ∀ (s' : Storage) (d' : Database), s'.settings = s.settings →
        s'.notified = s.notified → s.Brings []
          (if stopping then .going .joining else .over .done, s', d') := by
      intro s' d' hs hn
      refine ⟨hs, fun x hx => .inl (hn ▸ hx), fun p h => ?_⟩
      cases stopping <;> cases h
      exact fun _ h => by cases h
    rw [advance]
    split
    · exact next _ _ rfl rfl
    · rename_i b hb
      refine next _ _ rfl ?_
      rw [notified, notified, hb]
      rfl
  | joining => exact ended _ _ _ rfl rfl

end Storage

/-! ## The loops and the writer -/

theorem Batcher.step_hand (b : Batcher) (a : Access) (time : Nat) (d : Database) :
    ∀ x ∈ (b.step a time d).1.inHand, x ∈ b.inHand := by
  cases hp : b.phase with
  | idle =>
    simp only [step, hp]
    split
    · simp [inHand, hp, WorkerPhase.held]
    · rw [fill_inHand, inHand, hp]
      exact fun x hx => hx
  | collecting batch due =>
    simp only [step, hp]
    split
    · simp [inHand, hp, WorkerPhase.held]
    · rw [fill_inHand, inHand, hp]
      exact fun x hx => hx
  | flushing batch =>
    simp only [step, hp]
    split
    · exact fun x hx => List.mem_append_right _ hx
    · rw [inHand, inHand, remaining_held, hp]
      exact fun x hx => hx
    · exact fun x hx => by cases hx
  | retrying rest =>
    cases rest with
    | nil =>
      simp only [step, hp]
      exact fun x hx => List.mem_append_right _ hx
    | cons y rest =>
      have hand : ∀ r, ∀ x ∈ inHand { b.acknowledge [y] r with phase := remaining rest },
          x ∈ b.inHand := by
        intro r x hx
        rw [inHand, remaining_held] at hx
        rw [inHand, hp]
        exact List.mem_cons_of_mem y hx
      simp only [step, hp]
      split
      · exact hand _
      · exact hand _
      · exact fun x hx => by cases hx
  | ended => simp only [step, hp]; exact fun x hx => hx
  | broken => simp only [step, hp]; exact fun x hx => hx

/-- What the next step of the writer executes it has in hand. -/
theorem Batcher.underway_hand {b : Batcher} {c : Command} (h : c ∈ b.underway) :
    ∃ x ∈ b.inHand, x.command = c := by
  unfold underway at h
  unfold inHand
  split at h <;> rename_i hp
  · obtain ⟨x, hx, rfl⟩ := List.mem_map.1 h
    exact ⟨x, List.mem_append_left _ (hp ▸ hx), rfl⟩
  · rename_i x rest
    exact ⟨x, List.mem_append_left _ (hp ▸ List.mem_cons_self), (List.mem_singleton.1 h).symm⟩
  · cases h

namespace Storage

/-- The settings are the same, and no response waits for its delivery by the writer that did not
before. -/
structure Narrows (s s' : Storage) : Prop where
  settings : s'.settings = s.settings
  line : ∀ x ∈ s'.notified, x ∈ s.notified

variable {s s' : Storage} {d : Database}

theorem narrows_of_eq (hs : s'.settings = s.settings) (hb : s'.batcher = s.batcher) :
    s.Narrows s' := ⟨hs, fun x hx => by rwa [notified, hb] at hx⟩

theorem stepUpdater_narrows (s : Storage) (time : Nat) (d : Database) :
    s.Narrows (s.stepUpdater time d).1 := by
  unfold stepUpdater
  split
  · split <;> exact narrows_of_eq rfl rfl
  · exact narrows_of_eq rfl rfl
  · split <;> exact narrows_of_eq rfl rfl
  · exact narrows_of_eq rfl rfl

theorem stepReaper_narrows (s : Storage) (time : Nat) (d : Database) :
    s.Narrows (s.stepReaper time d).1 := by
  unfold stepReaper
  split
  · split <;> exact narrows_of_eq rfl rfl
  · split <;> exact narrows_of_eq rfl rfl
  · exact narrows_of_eq rfl rfl

theorem insertHeld_narrows (s : Storage) (d : Database) (ws : List Workflow) :
    s.Narrows (s.insertHeld d ws).2.1 := by
  unfold insertHeld
  split
  · exact narrows_of_eq rfl rfl
  · split <;> exact narrows_of_eq rfl rfl

theorem stepWorker_narrows (s : Storage) (time : Nat) (d : Database) :
    s.Narrows (Cluster.stepWorker time s d).1 := by
  unfold Cluster.stepWorker
  split
  · exact narrows_of_eq rfl rfl
  · rename_i b hb
    refine ⟨rfl, fun x hx => ?_⟩
    simp only [notified, hb, Option.map_some, Option.getD_some, List.mem_flatMap] at hx ⊢
    obtain ⟨y, hy, hx⟩ := hx
    exact ⟨y, b.step_hand s.access time d y hy, hx⟩

/-! ## What is delivered -/

/-- A step from a phase delivers only what waits there. -/
theorem Phase.deliver_notified {p : Phase} {now : Instant} {x : Response}
    (h : .deliver x ∈ p.actions s now) : x ∈ p.notified := by
  cases p with
  | stating q =>
    cases q with
    | notify rs =>
      obtain ⟨r, hr, he⟩ := List.mem_map.1 h
      cases he
      exact hr
    | insert ws =>
      obtain ⟨w, -, he⟩ := List.mem_map.1 h
      cases he
    | _ => cases List.mem_singleton.1 h
  | writing purpose passage =>
    cases passage with
    | alone c => exact Command.deliver_notified (List.mem_singleton.1 h).symm
    | inLine ticket => cases h
  | sweeping => cases List.mem_singleton.1 h
  | recovering => cases List.mem_singleton.1 h
  | draining stopping => cases h
  | joining => cases h

/-- A step of the writer delivers only what it has in hand. -/
theorem writer_deliver_notified {x : Response} (h : .deliver x ∈ s.writerActions) :
    x ∈ s.notified := by
  unfold writerActions at h
  unfold notified
  cases hb : s.batcher with
  | none => rw [hb] at h; cases h
  | some b =>
    rw [hb] at h
    obtain ⟨c, hc, he⟩ := List.mem_map.1 h
    obtain ⟨y, hy, rfl⟩ := Batcher.underway_hand hc
    exact List.mem_flatMap.2 ⟨y, hy, Command.deliver_notified he⟩

end Storage

end Resumption
