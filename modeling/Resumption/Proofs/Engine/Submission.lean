import Mathlib.Algebra.GroupWithZero.Nat
import Resumption.Proofs.Database.Notes
import Resumption.Proofs.Engine.Pooling
import Resumption.Proofs.Store.Insertion

/-!
# Submitting a batch

A submission is prepared, stored in one transaction and announced to the pools, one after the other,
and between two of these steps anything may happen to the engine and to the store. So the steps of a
submission are looked at one by one (`AskPhase.course`), each with what it met and what it left, and
what a step did is an `Effect`: the records that it stored, the pools that it woke and how many
workflows with an unknown pool it told of.

* A batch with a transient workflow is refused with the type of the first one, and a batch that cannot
  be stored with the reason; in both cases no step had an effect on the store or on a pool.
* Otherwise one step stored the whole batch, each instance under its own id if it has one and for its
  own pool if that is known, and each pool of the batch was woken once and no other.

**Result.** `submission_lawful`. Since a submission gives each instance a pool that is known, every
stored instance has one, as long as nothing is stored but by submissions (`Filled`).
-/

namespace Resumption

/-! ## What storing a batch tells -/

theorem Database.tellAll_journal (d : Database) (es : List Event) :
    (d.tellAll es).journal = es.reverse ++ d.journal := by
  induction es generalizing d with
  | nil => rfl
  | cons e es ih =>
    rw [List.reverse_cons, List.append_assoc]
    exact ih (d.tell e)

theorem Storage.report_unfaulted (s : Storage) (d : Database) (name : String) (n : Nat) (text : String) :
    (s.report d [.measured name n]).journal.count (.fault text) = d.journal.count (.fault text) := by
  unfold Storage.report
  split
  · have h : Event.measured name n ≠ .fault text := nofun
    exact List.count_cons_of_ne h
  · rfl

theorem Storage.state_insert (s : Storage) {d : Database} (hd : d.Timely)
    {work : List (Uuid × Workflow)} (hn : ∀ p ∈ work, p.2.id = some p.1) {r : Storage.Reply}
    {s' : Storage} {d' : Database} (h : s.state d (.insert (work.map (·.2))) = (r, s', d')) :
    d'.held = d.held ∧
      (∀ text, d'.journal.count (.fault text) = d.journal.count (.fault text)) ∧
      ((∃ e, r = .ofFailure e) ∧ d'.store = d.store ∨
        r = .done ∧ d.store.Fits work work.length ∧ d'.store = d.store.appendAll work) := by
  have ha := Work.discreet_transact (Work.discreet_call .insert fun t => t.insert (work.map (·.2))) d
  have hj := (Work.mute_transact (Work.mute_call .insert fun t => t.insert (work.map (·.2)))).faults d
  rw [Storage.state] at h
  rcases he : (Work.transact (Work.insert (work.map (·.2)))).on d with ⟨e | u, d₁⟩ <;>
    rw [Work.insert] at he <;> rw [he] at ha hj <;> simp only [Work.insert, he] at h <;> cases h
  · exact ⟨ha.held, hj, .inl ⟨⟨e, rfl⟩, Work.transact_error (Work.discreet_call _ _) hd he⟩⟩
  · obtain ⟨d₂, d₃, -, hs₂, hi, hs₃⟩ := Work.transact_ok he
    obtain ⟨hfits, hs⟩ := Store.insert_ok hn (Work.call_ok hi)
    have ht := s.report_told d₁ [.measured "insert" (work.map (·.2)).length]
    refine ⟨ht.mild.aside.held.trans ha.held, fun text => ?_, .inr ⟨rfl, hs₂ ▸ hfits, ?_⟩⟩
    · rw [Storage.report_unfaulted, hj]
    · rw [ht.store, hs₃, hs, hs₂]

/-- Without faults a batch with distinct and new ids is stored. -/
theorem Storage.state_insert_new (s : Storage) {d : Database} (hq : d.faults = [])
    {work : List (Uuid × Workflow)} (hn : ∀ p ∈ work, p.2.id = some p.1)
    (hd : (work.map (·.1)).Nodup) (hf : ∀ p ∈ work, p.1 ∉ d.store.ids) :
    (s.state d (.insert (work.map (·.2)))).1 = .done := by
  obtain ⟨d₀, ha, hs, he⟩ := Work.transact_quiet
    (Work.discreet_call .insert fun t => t.insert (work.map (·.2))) hq
  rw [Work.call_quiet (ha.quiet hq), hs, Store.insert_new hn hd hf] at he
  rcases hr : (Work.transact (Work.insert (work.map (·.2)))).on d with ⟨e | u, d₁⟩
  · rw [Work.insert] at hr
    rw [hr] at he
    cases he
  · simp only [Storage.state, hr]

/-! ## Steps of a submission -/

/-- A step of an ask, with what it met and what it left. -/
structure AskStep where
  before : Moment
  after : Moment

/-- What a wake leaves: a pool is to look for work, a probe counts one wake more, and all else is as
it was. -/
inductive Processor.Woken : Processor → Processor → Prop where
  | pool (p : Pool) : Woken (.pool p) (.pool { p with woken := true })
  | probe (p : Probe) : Woken (.probe p) (.probe { p with wakes := p.wakes + 1 })

theorem Processor.woken_wake (p : Processor) : p.Woken p.wake := by
  cases p with
  | pool p => exact .pool p
  | probe p => exact .probe p

/-- What a step did to the store and to the pools, and how many strays it told of. -/
structure Effect where
  stored : List Record
  woken : List String
  strays : Nat

/-- The step did this and nothing else. -/
structure AskStep.Does (s : AskStep) (f : Effect) : Prop where
  records : s.after.site.db.store.records = s.before.site.db.store.records ++ f.stored
  fresh : ∀ r ∈ f.stored, r.id ∉ s.before.site.db.store.ids
  unclaimed : s.after.site.db.store.unclaimed = s.before.site.db.store.unclaimed
  held : s.after.site.db.held = s.before.site.db.held
  pools : List.Forall₂ (fun p q => if p.id ∈ f.woken then p.Woken q else q = p)
    s.before.engine.processors s.after.engine.processors
  told : s.after.site.db.journal.count .unknownPool =
    s.before.site.db.journal.count .unknownPool + f.strays

/-- An ask goes on from a phase, at each of these moments in turn until it is over: how far it gets,
and its steps. -/
def AskPhase.course : AskPhase → List Moment → AskProgress × List AskStep
  | p, [] => (.going p, [])
  | p, m :: ms =>
    match m.engine.advanceAsk m.site p with
    | (.over a, e, x) => (.over a, [⟨m, e, x⟩])
    | (.going q, e, x) =>
      let (r, steps) := q.course ms
      (r, ⟨m, e, x⟩ :: steps)

/-- No step did anything to the store or to a pool. -/
def Idle (steps : List AskStep) : Prop :=
  ∃ fs, List.Forall₂ AskStep.Does steps fs ∧ ∀ f ∈ fs, f.stored = [] ∧ f.woken = []

/-- The record is that of the workflow, which has just been submitted to an engine that knows these
pools. -/
structure Enlisted (known : String → Bool) (w : Workflow) (r : Record) : Prop where
  own : ∀ id, w.id = some id → r.id = id
  pool : r.pool = w.poolAmong known
  status : r.status = .enqueued
  record : r = .ofWorkflow r.id r.number (w.enlist known r.id)

/-- The steps stored the workflows under these ids, all at once, and woke their pools. -/
structure Accepted (known : String → Bool) (ws : List Workflow) (ids : List Uuid)
    (steps : List AskStep) : Prop where
  distinct : ids.Nodup
  effects : ∃ fs new, List.Forall₂ AskStep.Does steps fs ∧
    List.Forall₂ (Enlisted known) ws new ∧ new.map (·.id) = ids ∧
    (fs.flatMap Effect.stored = new ∧ ∃ f ∈ fs, f.stored = new) ∧
    ((fs.flatMap Effect.woken).Nodup ∧
      ∀ pool, pool ∈ fs.flatMap Effect.woken ↔ ∃ w ∈ ws, w.poolAmong known = pool) ∧
    (fs.map Effect.strays).sum = ws.countP (Workflow.strays known)

/-! ## One step at a time -/

section
variable {known : String → Bool} {m : Moment}

theorem none_woken (ps : Processors) :
    List.Forall₂ (fun p q => if p.id ∈ ([] : List String) then p.Woken q else q = p) ps ps :=
  List.forall₂_same.2 fun p _ => by rw [if_neg List.not_mem_nil]

theorem does_told {e : Engine} {x : Site} {n : Nat}
    (hp : e.processors = m.engine.processors)
    (hs : x.db = m.site.db.tellAll (List.replicate n .unknownPool)) :
    AskStep.Does ⟨m, e, x⟩ ⟨[], [], n⟩ := by
  have ht := m.site.db.told_tellAll (List.replicate n .unknownPool)
  refine ⟨?_, fun _ h => (nomatch h), ?_, ?_, ?_, ?_⟩
  · rw [hs, ht.store, List.append_nil]
  · rw [hs, ht.store]
  · rw [hs]
    exact ht.mild.aside.held
  · rw [hp]
    exact none_woken _
  · rw [hs, Database.tellAll_journal, List.count_append, List.reverse_replicate,
      List.count_replicate_self, Nat.add_comm]

/-- A batch with a transient workflow is refused at once. -/
theorem arriving_transient (hl : m.engine.lifecycle = .started) (ws : List Workflow) (t : Transient)
    (rest : List Submission) :
    ∃ x, m.engine.advanceAsk m.site (.arriving (.submit (ws.map .durable ++ .transient t :: rest))) =
        (.over (.refused (.notPersistent t.type)), m.engine, x) ∧
      AskStep.Does ⟨m, m.engine, x⟩
        ⟨[], [], ws.countP (Workflow.strays m.engine.processors.knows)⟩ := by
  obtain ⟨issued, hp⟩ := m.engine.prepare_transient ws t rest m.site
  refine ⟨(m.engine.prepare m.site (ws.map .durable ++ .transient t :: rest)).2, ?_,
    does_told rfl (by rw [hp])⟩
  simp only [Engine.advanceAsk, Ask.needsAdmission, Engine.admission, hl, Engine.accept,
    Engine.sendWork, hp, if_true]

/-- Durable workflows are prepared and go to the storage, if there are any. -/
theorem arriving_durable (hl : m.engine.lifecycle = .started) (ws : List Workflow) :
    ∃ work x, m.engine.advanceAsk m.site (.arriving (.submit (ws.map .durable))) =
        (if work.isEmpty then .over (.submitted [])
          else .going (.storing (.stating (.insert (work.map (·.2))))
            (.submission (work.map (·.1)) (Engine.poolsOf (work.map (·.2))) false)),
          m.engine, x) ∧
      m.engine.prepare m.site (ws.map .durable) = (.ok work, x) ∧
      Prepared m.engine.processors.knows ws work ∧
      AskStep.Does ⟨m, m.engine, x⟩
        ⟨[], [], ws.countP (Workflow.strays m.engine.processors.knows)⟩ := by
  obtain ⟨work, issued, hp, hw⟩ := m.engine.prepare_durable ws m.site
  refine ⟨work, (m.engine.prepare m.site (ws.map .durable)).2, ?_, by rw [hp], hw,
    does_told rfl (by rw [hp])⟩
  simp only [Engine.advanceAsk, Ask.needsAdmission, Engine.admission, hl, Engine.accept,
    Engine.sendWork, hp, if_true]
  cases work with
  | nil => rfl
  | cons p work => rfl

theorem Prepared.enlisted {ws : List Workflow} {work : List (Uuid × Workflow)}
    (h : Prepared known ws work) (n : Nat) :
    List.Forall₂ (Enlisted known) ws (work.mapIdx fun i p => Record.ofWorkflow p.1 (n + i) p.2) ∧
      (work.mapIdx fun i p => Record.ofWorkflow p.1 (n + i) p.2).map (·.id) = work.map (·.1) := by
  induction h generalizing n with
  | nil => exact ⟨.nil, rfl⟩
  | @cons w p ws work hp _ ih =>
    have hn : (fun i (p : Uuid × Workflow) => Record.ofWorkflow p.1 (n + (i + 1)) p.2) =
        fun i p => .ofWorkflow p.1 (n + 1 + i) p.2 := by
      funext i p
      rw [Nat.add_comm i 1, Nat.add_assoc]
    obtain ⟨hrecords, hids⟩ := ih (n + 1)
    rw [List.mapIdx_cons, hn]
    refine ⟨.cons ⟨hp.2, ?_, rfl, ?_⟩ hrecords, congrArg (p.1 :: ·) hids⟩
    · rw [hp.1]
      rfl
    · exact congrArg (Record.ofWorkflow p.1 (n + 0)) hp.1

variable {ws : List Workflow} {work : List (Uuid × Workflow)} (pools : List String)

/-- A prepared batch with the storage. -/
def submitting (work : List (Uuid × Workflow)) (pools : List String) : AskPhase :=
  .storing (.stating (.insert (work.map (·.2)))) (.submission (work.map (·.1)) pools false)

/-- A prepared batch is stored as a whole, or the submission is over and did nothing. -/
theorem storing_step (hd : m.site.db.Timely) (hw : Prepared known ws work) :
    ∃ r e x, m.engine.advanceAsk m.site (submitting work pools) = (r, e, x) ∧
      (((∃ cause, r = .over (.refused (.runFailed cause))) ∨ ∃ message, r = .over (.crashed message)) ∧
          AskStep.Does ⟨m, e, x⟩ ⟨[], [], 0⟩ ∨
        r = .going (.waking (.submitted (work.map (·.1))) pools) ∧ (work.map (·.1)).Nodup ∧
          ∃ new, List.Forall₂ (Enlisted known) ws new ∧ new.map (·.id) = work.map (·.1) ∧
            AskStep.Does ⟨m, e, x⟩ ⟨new, [], 0⟩) := by
  rcases hs : m.engine.storage.state m.site.db (.insert (work.map (·.2))) with ⟨r, s, d⟩
  obtain ⟨hheld, hj, ⟨⟨e, rfl⟩, hstore⟩ | ⟨rfl, hfits, hstore⟩⟩ :=
    m.engine.storage.state_insert hd hw.named hs
  · have hidle : AskStep.Does ⟨m, { m.engine with storage := s }, { m.site with db := d }⟩
        ⟨[], [], 0⟩ :=
      ⟨by rw [hstore, List.append_nil], fun _ h => (nomatch h), by rw [hstore], hheld, none_woken _,
        hj _⟩
    cases e with
    | refused cause =>
      refine ⟨_, _, _, ?_, .inl ⟨.inl ⟨cause, rfl⟩, hidle⟩⟩
      simp only [submitting, Engine.advanceAsk, Storage.advance, hs]
      rfl
    | crashed message =>
      refine ⟨_, _, _, ?_, .inl ⟨.inr ⟨message, rfl⟩, hidle⟩⟩
      simp only [submitting, Engine.advanceAsk, Storage.advance, hs]
      rfl
  · obtain ⟨hrecords, hids⟩ := hw.enlisted (m.site.db.store.drawn + 1)
    have hnodup : (work.map (·.1)).Nodup := by
      have := hfits.distinct
      rwa [List.take_length] at this
    refine ⟨_, { m.engine with storage := s }, { m.site with db := d }, ?_,
      .inr ⟨rfl, hnodup, _, hrecords, hids, ?_, ?_, ?_, hheld, none_woken _, hj _⟩⟩
    · simp only [submitting, Engine.advanceAsk, Storage.advance, hs]
      rfl
    · rw [hstore, Store.appendAll_records]
    · intro r hr
      have hi := List.mem_map_of_mem (f := (·.id)) hr
      rw [hids] at hi
      obtain ⟨p, hp, he⟩ := List.mem_map.1 hi
      rw [← he]
      exact hfits.fresh p (by rwa [List.take_length])
    · rw [hstore, Store.appendAll_unclaimed]

theorem storing_new (hq : m.site.db.faults = []) (hw : Prepared known ws work)
    (hd : (work.map (·.1)).Nodup) (hf : ∀ p ∈ work, p.1 ∉ m.site.db.store.ids) :
    (m.engine.advanceAsk m.site (submitting work pools)).1 =
      .going (.waking (.submitted (work.map (·.1))) pools) := by
  have h := m.engine.storage.state_insert_new hq hw.named hd hf
  rcases hs : m.engine.storage.state m.site.db (.insert (work.map (·.2))) with ⟨r, s, d⟩
  rw [hs] at h
  cases h
  simp only [submitting, Engine.advanceAsk, Storage.advance, hs]
  rfl

theorem waking_step {a : Answer} {pool : String} (hk : m.engine.processors.knows pool = true) :
    ∃ e, m.engine.advanceAsk m.site (.waking a (pool :: pools)) =
        (.going (.waking a pools), e, m.site) ∧
      AskStep.Does ⟨m, e, m.site⟩ ⟨[], [pool], 0⟩ := by
  refine ⟨{ m.engine with processors := m.engine.processors.modify pool Processor.wake }, ?_,
    by rw [List.append_nil], fun _ h => (nomatch h), rfl, rfl, ?_, rfl⟩
  · rw [Engine.advanceAsk, Engine.wakePool, if_pos hk]
  · refine List.forall₂_map_right_iff.2 (List.forall₂_same.2 fun p _ => ?_)
    by_cases hp : p.id = pool
    · simp only [hp, List.mem_singleton, if_true]
      exact p.woken_wake
    · simp only [hp, List.mem_singleton, if_false]

end

/-! ## The course of a submission -/

/-- What the steps did that woke these pools one after the other, and the last step. -/
def announcing (pools : List String) : List Effect :=
  pools.map (fun pool => ⟨[], [pool], 0⟩) ++ [⟨[], [], 0⟩]

theorem announcing_sums (pools : List String) :
    (announcing pools).flatMap Effect.stored = [] ∧ (announcing pools).flatMap Effect.woken = pools ∧
      ((announcing pools).map Effect.strays).sum = 0 := by
  induction pools with
  | nil => exact ⟨rfl, rfl, rfl⟩
  | cons pool pools ih => exact ⟨ih.1, congrArg (pool :: ·) ih.2.1, by simpa [announcing] using ih.2.2⟩

section
variable {known : String → Bool} {ms : List Moment} {ws : List Workflow}
  {work : List (Uuid × Workflow)}

/-- The pools that are left are woken one after the other, and then the submission is over. -/
theorem waking_course (a : Answer) {pools : List String} (hp : ∀ pool ∈ pools, known pool = true)
    (hm : ∀ m ∈ ms, m.engine.processors.knows = known) :
    (ms.length ≤ pools.length ∧ ∃ q, ((AskPhase.waking a pools).course ms).1 = .going q) ∨
      ∃ steps, (AskPhase.waking a pools).course ms = (.over a, steps) ∧
        List.Forall₂ AskStep.Does steps (announcing pools) := by
  induction ms generalizing pools with
  | nil => exact .inl ⟨Nat.zero_le _, _, rfl⟩
  | cons m ms ih =>
    cases pools with
    | nil => exact .inr ⟨_, rfl, .cons (does_told rfl rfl) .nil⟩
    | cons pool pools =>
      have hk : m.engine.processors.knows pool = true := by
        rw [hm m List.mem_cons_self]
        exact hp pool List.mem_cons_self
      obtain ⟨e, hstep, hdoes⟩ := waking_step (a := a) pools hk
      rw [AskPhase.course, hstep]
      rcases ih (fun q hq => hp q (List.mem_cons_of_mem _ hq))
        fun n hn => hm n (List.mem_cons_of_mem _ hn) with ⟨hle, q, hq⟩ | ⟨steps, hc, hs⟩
      · exact .inl ⟨Nat.succ_le_succ hle, q, hq⟩
      · simp only [hc]
        exact .inr ⟨_, rfl, .cons hdoes hs⟩

/-- The course of a prepared batch from the storage on: it failed to be stored and nothing was done,
or it was stored at once and its pools were woken one after the other. -/
structure Settles (known : String → Bool) (ws : List Workflow) (work : List (Uuid × Workflow))
    (ms : List Moment) (c : AskProgress × List AskStep) : Prop where
  ends : work.length + 1 < ms.length → ∃ a, c.1 = .over a
  outcome : ∀ a, c.1 = .over a →
    ((∃ cause, a = .refused (.runFailed cause)) ∨ ∃ message, a = .crashed message) ∧ Idle c.2 ∨
      a = .submitted (work.map (·.1)) ∧ (work.map (·.1)).Nodup ∧
        ∃ new, List.Forall₂ (Enlisted known) ws new ∧ new.map (·.id) = work.map (·.1) ∧
          List.Forall₂ AskStep.Does c.2
            (⟨new, [], 0⟩ :: announcing (Engine.poolsOf (work.map (·.2))))
  sure : ∀ n rest, ms = n :: rest → n.site.db.faults = [] → (work.map (·.1)).Nodup →
    (∀ p ∈ work, p.1 ∉ n.site.db.store.ids) →
      ∀ a, c.1 = .over a → a = .submitted (work.map (·.1))

theorem submitting_settles (hk : known Workflow.defaultPool = true) (hw : Prepared known ws work)
    (hm : ∀ m ∈ ms, m.engine.processors.knows = known ∧ m.site.db.Timely) :
    Settles known ws work ms
      ((submitting work (Engine.poolsOf (work.map (·.2)))).course ms) := by
  cases ms with
  | nil => exact ⟨fun h => (nomatch h), fun _ h => (nomatch h), fun _ _ h => nomatch h⟩
  | cons m ms =>
    obtain ⟨hm₀, hms⟩ := List.forall_mem_cons.1 hm
    have hpools : ∀ pool ∈ Engine.poolsOf (work.map (·.2)), known pool = true := by
      intro pool hp
      obtain ⟨w, -, rfl⟩ := (hw.mem_poolsOf pool).1 hp
      exact w.poolAmong_known hk
    obtain ⟨r, e, x, hstep, ⟨hr, hidle⟩ | ⟨rfl, hnodup, new, hnew, hids, hdoes⟩⟩ :=
      storing_step (Engine.poolsOf (work.map (·.2))) hm₀.2 hw
    · have hc : ∃ a, r = .over a ∧
          ((∃ cause, a = .refused (.runFailed cause)) ∨ ∃ message, a = .crashed message) := by
        rcases hr with ⟨cause, rfl⟩ | ⟨message, rfl⟩
        · exact ⟨_, rfl, .inl ⟨cause, rfl⟩⟩
        · exact ⟨_, rfl, .inr ⟨message, rfl⟩⟩
      obtain ⟨a, rfl, ha⟩ := hc
      rw [AskPhase.course, hstep]
      refine ⟨fun _ => ⟨a, rfl⟩, fun b hb => ?_, fun n rest hn hq hd hf => ?_⟩
      · cases hb
        exact .inl ⟨ha, _, .cons hidle .nil, by simp⟩
      · cases hn
        have := storing_new (Engine.poolsOf (work.map (·.2))) hq hw hd hf
        rw [hstep] at this
        cases this
    · rw [AskPhase.course, hstep]
      rcases waking_course (.submitted (work.map (·.1))) hpools fun n hn => (hms n hn).1 with
        ⟨hle, q, hq⟩ | ⟨steps, hc, hs⟩
      · refine ⟨fun hlt => ?_, fun a ha => ?_, fun n rest _ _ _ _ a ha => ?_⟩
        · have := Engine.poolsOf_length (work.map (·.2))
          rw [List.length_map] at this
          rw [List.length_cons] at hlt
          omega
        · rw [show _ = AskProgress.over a from ha] at hq
          cases hq
        · rw [show _ = AskProgress.over a from ha] at hq
          cases hq
      · simp only [hc]
        refine ⟨fun _ => ⟨_, rfl⟩, fun a ha => ?_, fun n rest _ _ _ _ a ha => ?_⟩
        · cases ha
          exact .inr ⟨rfl, hnodup, new, hnew, hids, .cons hdoes hs⟩
        · cases ha
          rfl

/-- What becomes of a batch that is submitted at `m` and goes on at `ms`. -/
structure Lawful (known : String → Bool) (batch : List Submission) (m : Moment) (ms : List Moment)
    (c : AskProgress × List AskStep) : Prop where
  ends : batch.length + 2 ≤ ms.length → ∃ a, c.1 = .over a
  transient : ∀ t, batch.findSome? Submission.transient? = some t →
    c.1 = .over (.refused (.notPersistent t.type)) ∧ Idle c.2
  durable : batch.findSome? Submission.transient? = none → ∀ a, c.1 = .over a →
    ((∃ cause, a = .refused (.runFailed cause)) ∨ ∃ message, a = .crashed message) ∧ Idle c.2 ∨
      ∃ ids, a = .submitted ids ∧ Accepted known (batch.filterMap Submission.durable?) ids c.2
  /-- Without faults, a batch with distinct and new ids is stored. -/
  sure : ∀ n rest work x, ms = n :: rest → n.site.db.faults = [] →
    m.engine.prepare m.site batch = (.ok work, x) → (work.map (·.1)).Nodup →
      (∀ p ∈ work, p.1 ∉ n.site.db.store.ids) →
        ∀ a, c.1 = .over a → a = .submitted (work.map (·.1))

theorem lawful_transient {m : Moment} (hl : m.engine.lifecycle = .started) {t : Transient}
    {rest : List Submission}
    (ht : (ws.map Submission.durable ++ .transient t :: rest).findSome? Submission.transient? =
      some t) :
    Lawful known (ws.map .durable ++ .transient t :: rest) m ms
      ((AskPhase.arriving (.submit (ws.map .durable ++ .transient t :: rest))).course (m :: ms)) := by
  obtain ⟨x, hstep, hdoes⟩ := arriving_transient hl ws t rest
  rw [AskPhase.course, hstep]
  refine ⟨fun _ => ⟨_, rfl⟩, fun t' h => ?_, fun h => ?_, fun n rest' work x' _ _ hp => ?_⟩
  · rw [ht] at h
    cases h
    exact ⟨rfl, _, .cons hdoes .nil, by simp⟩
  · rw [ht] at h
    cases h
  · obtain ⟨issued, he⟩ := m.engine.prepare_transient ws t rest m.site
    rw [he] at hp
    cases hp

theorem lawful_durable (hk : known Workflow.defaultPool = true) {m : Moment}
    (hl : m.engine.lifecycle = .started)
    (hm : ∀ n ∈ m :: ms, n.engine.processors.knows = known ∧ n.site.db.Timely)
    (hn : (ws.map Submission.durable).findSome? Submission.transient? = none)
    (hws : (ws.map Submission.durable).filterMap Submission.durable? = ws) :
    Lawful known (ws.map .durable) m ms
      ((AskPhase.arriving (.submit (ws.map .durable))).course (m :: ms)) := by
  obtain ⟨⟨hm₀, -⟩, hms⟩ := List.forall_mem_cons.1 hm
  obtain ⟨work, x, hstep, hprepare, hw, hdoes⟩ := arriving_durable hl ws
  rw [hm₀] at hw hdoes
  rw [AskPhase.course, hstep]
  cases hempty : work.isEmpty with
  | true =>
    obtain rfl := List.isEmpty_iff.1 hempty
    cases hw
    refine ⟨fun _ => ⟨_, rfl⟩, fun t h => (nomatch h), fun _ a ha => .inr ?_, ?_⟩
    · cases ha
      exact ⟨[], rfl, List.nodup_nil, _, [], .cons hdoes .nil, .nil, rfl,
        ⟨rfl, _, List.mem_singleton_self _, rfl⟩, by simp, rfl⟩
    · intro n rest work' x' _ _ hp _ _ a ha
      rw [hprepare] at hp
      cases hp
      cases ha
      rfl
  | false =>
    have hsettles := submitting_settles hk hw hms
    simp only [submitting] at hsettles
    rcases hc : (AskPhase.storing (.stating (.insert (work.map (·.2))))
      (.submission (work.map (·.1)) (Engine.poolsOf (work.map (·.2))) false)).course ms with ⟨r, steps⟩
    rw [hc] at hsettles
    simp only [Bool.false_eq_true, if_false, hc]
    refine ⟨fun h => hsettles.ends ?_, fun t h => ?_, fun _ a ha => ?_, ?_⟩
    · rw [List.length_map] at h
      rw [← hw.length_eq]
      omega
    · rw [hn] at h
      cases h
    · rcases hsettles.outcome a ha with ⟨hr, fs, hfs, hidle⟩ | ⟨rfl, hnodup, new, hnew, hids, hfs⟩
      · exact .inl ⟨hr, _, .cons hdoes hfs, List.forall_mem_cons.2 ⟨⟨rfl, rfl⟩, hidle⟩⟩
      · obtain ⟨hstored, hwoken, hstrays⟩ := announcing_sums (Engine.poolsOf (work.map (·.2)))
        refine .inr ⟨_, rfl, hnodup, _, new, .cons hdoes hfs, hws.symm ▸ hnew, hids,
          ⟨?_, ⟨new, [], 0⟩, by simp, rfl⟩, ?_, ?_⟩
        · simp [hstored]
        · simp only [List.flatMap_cons, hwoken, List.nil_append, hws]
          exact ⟨(Engine.poolsOf_spec _).1, hw.mem_poolsOf⟩
        · simp [hstrays, hws]
    · intro n rest work' x' hn hq hp hd hf a ha
      rw [hprepare] at hp
      cases hp
      exact hsettles.sure n rest hn hq hd hf a ha

end

/-- **A batch that is submitted** to an engine that is started is refused for its first transient
workflow, or fails to be stored, and nothing was done; or it is stored as a whole, each instance for a
pool that is known, and each of its pools is woken once. Hence every instance that is stored by
submissions has a pool that is known. -/
theorem submission_lawful {known : String → Bool} (hk : known Workflow.defaultPool = true) :
    (∀ (batch : List Submission) (m : Moment) (ms : List Moment), m.engine.lifecycle = .started →
      (∀ n ∈ m :: ms, n.engine.processors.knows = known ∧ n.site.db.Timely) →
        Lawful known batch m ms ((AskPhase.arriving (.submit batch)).course (m :: ms))) ∧
      ∀ d, Filled known d → ∀ r ∈ d.store.records, known r.pool = true := by
  refine ⟨fun batch m ms hl hm => ?_, fun d hd => (hd.pooled hk).1.2⟩
  rcases Submission.split_batch batch with ⟨hn, hb⟩ | ⟨ws, t, rest, ht, rfl⟩
  · rw [hb] at hn
    have hws := congrArg (List.filterMap Submission.durable?) hb.symm
    have := lawful_durable hk hl hm hn hws
    rwa [← hb] at this
  · exact lawful_transient hl ht

/-- An engine with a default pool, and nothing stored. -/
def counter : Moment where
  engine := { Engine.create "engine" .empty id (.create "engine" default none false)
    [.probe (.create Workflow.defaultPool false false)] with
    lifecycle := .started, gate := Gate.closed.opened }
  site := .create (.create .epoch)

theorem submission_lawful_counter :
    ∃ steps,
      (AskPhase.arriving (.submit [.durable
        { Workflow.create "t" .null with id := some ⟨1⟩, pool := some "nowhere" }])).course
          [counter, counter, counter, counter] = (.over (.submitted [⟨1⟩]), steps) ∧
        Accepted counter.engine.processors.knows
          [{ Workflow.create "t" .null with id := some ⟨1⟩, pool := some "nowhere" }] [⟨1⟩] steps ∧
        ∃ s ∈ steps, s.after.engine.processors =
          [.probe { Probe.create Workflow.defaultPool false false with wakes := 1 }] := by
  have hk : counter.engine.processors.knows Workflow.defaultPool = true := by decide
  have h := (submission_lawful hk).1
    [.durable { Workflow.create "t" .null with id := some ⟨1⟩, pool := some "nowhere" }]
    counter [counter, counter, counter] rfl
    fun n hn => by
      simp only [List.mem_cons, List.not_mem_nil, or_false, or_self] at hn
      subst hn
      exact ⟨rfl, Database.timely_of_quiet rfl⟩
  obtain ⟨a, ha⟩ := h.ends (by decide)
  obtain rfl : a = .submitted [⟨1⟩] :=
    h.sure counter _ _ _ rfl rfl rfl (by decide) (fun p _ hi => nomatch hi) a ha
  rcases h.durable rfl _ ha with ⟨⟨cause, hc⟩ | ⟨message, hc⟩, -⟩ | ⟨ids, hids, haccepted⟩
  · cases hc
  · cases hc
  · cases hids
    exact ⟨_, Prod.ext ha rfl, haccepted, _, List.mem_of_getElem? (i := 2) rfl, rfl⟩

end Resumption
