import Resumption.Proofs.Store.Discipline
import Resumption.Proofs.Store.Exclusion
import Resumption.Proofs.Store.Frame

/-!
# What a recovery brings back

A claim hands out what the last wait of an instance left, its answers and whether it was cut short,
and keeps neither: both are delivered once. An instance whose run was never settled can become ready
again only by a recovery of its engine, and that has nothing left to bring back but the instance
itself.

**Invariant.** `Store.Outstanding`: an instance that was handed out and whose run was not settled
since is stored with what it was handed out with, less the answers (`Record.Carries`), and runs for
the engine that got it or was recovered since (`Recovered`). `Change.carries` is the step of one turn.

**Result.** `recovered_claim_bare`: after a crash the next claim hands out the same instance without
the answers of the first.
-/

namespace Resumption

/-- The turn is a claim of the engine that hands out just this. -/
def Turn.Gives (t : Turn) (engine : String) (w : Workflow) : Prop :=
  ∃ pool most, t.action = .claim engine pool most ∧ w ∈ (t.before.claim engine pool most).1

/-- Among the turns is a recovery of the engine that finds the instance running for it. -/
def Recovered (id : Uuid) (engine : String) (ts : List Turn) : Prop :=
  ∃ t ∈ ts, t.action = .recover engine ∧
    ∃ r ∈ t.before.records, r.id = id ∧ r.status = .running engine

theorem Recovered.append {id : Uuid} {engine : String} {ts : List Turn}
    (h : Recovered id engine ts) (us : List Turn) : Recovered id engine (ts ++ us) := by
  obtain ⟨t, ht, h⟩ := h
  exact ⟨t, List.mem_append_left _ ht, h⟩

/-- The workflow without what a wait left. -/
def Workflow.bare (w : Workflow) : Workflow := { w with responses := [], waitExpired := false }

/-- The record is that of an instance that was handed out as `w` and is not settled: what a claim
would hand out now is `w` without what the wait left. -/
structure Record.Carries (w : Workflow) (r : Record) : Prop where
  bare : ∀ engine, r.handedOut engine = w.bare
  active : r.status = .ready ∨ ∃ engine, r.status = .running engine

namespace Store

variable {s : Store} {a : Action}

/-! ## One turn -/

/-- What is handed out is what the record of a ready instance carries. -/
theorem gives_record {engine : String} {w : Workflow} (h : Turn.Gives ⟨s, a⟩ engine w) :
    ∃ pool most, a = .claim engine pool most ∧
      ∃ r ∈ s.claimList pool most, w = r.handedOut engine := by
  obtain ⟨pool, most, ha, hw⟩ := h
  obtain ⟨r, hr, rfl⟩ := List.mem_map.1 hw
  exact ⟨pool, most, ha, r, hr, rfl⟩

/-- A claim leaves the record of what it hands out, without the rest of the wait. -/
theorem carries_claim (r : Record) (engine : String) :
    (r.claim engine).Carries (r.handedOut engine) := ⟨fun _ => rfl, .inr ⟨engine, rfl⟩⟩

/-- The records of one id after an action come from those before it. -/
theorem act_record_of (hu : s.Unique) {r r' : Record} (hr : r ∈ s.records)
    (hr' : r' ∈ (s.act a).2.records) (hid : r'.id = r.id) : s.Change a r r' := by
  rcases act_records hu a hr' with ⟨t, ht, hc⟩ | ⟨w, id, -, -, hf, rfl⟩
  · rwa [hu.eq hr ht (hid.symm.trans hc.id)]
  · exact absurd hid.symm (find?_none hf r hr)

/-- An action that does not settle the run of an instance leaves it as it was handed out, and takes
it from its engine only as a recovery. -/
theorem Change.carries {r r' : Record} {w : Workflow} (h : s.Change a r r')
    (hs : a.settles ≠ some r.id) (hc : r.Carries w) :
    r'.Carries w ∧ ∀ engine, r.status = .running engine →
      r'.status = .running engine ∨ a = .recover engine := by
  -- An active instance neither waits, nor has failed, nor is due.
  have idle : r.status ≠ .enqueued ∧ (∀ z, r.status ≠ .waiting z) ∧ r.status ≠ .failed := by
    rcases hc.active with h | ⟨e, h⟩ <;> simp [h]
  cases h with
  | same _ => exact ⟨hc, fun engine h => .inl h⟩
  | @claim other pool most r hr =>
    simp only [Record.claimable, Bool.and_eq_true, beq_iff_eq] at hr
    refine ⟨⟨fun engine => ?_, .inr ⟨other, rfl⟩⟩, fun engine h => ?_⟩
    · show (r.handedOut engine).bare = w.bare.bare
      rw [hc.bare engine]
    · rw [hr.1] at h
      cases h
  | deliver hw =>
    obtain ⟨z, hz, -⟩ := Record.wants_iff.1 hw
    exact absurd hz (idle.2.1 z)
  | suspend hid | finish hid | fail hid => exact absurd (congrArg some hid.symm) hs
  | restart _ hf => exact absurd hf idle.2.2
  | restartAll hf => exact absurd hf idle.2.2
  | promote hd =>
    unfold Record.dueAt at hd
    split at hd
    · exact absurd ‹_› idle.1
    · exact absurd ‹_› (idle.2.1 _)
    · cases hd
  | recover hr =>
    refine ⟨⟨hc.bare, .inl rfl⟩, fun engine h => .inr ?_⟩
    rw [hr] at h
    cases h
    rfl

/-! ## A run -/

/-- What is handed out runs, and is stored as it was handed out. -/
theorem gives_running {engine : String} {w : Workflow} (hg : Turn.Gives ⟨s, a⟩ engine w) :
    ∃ r ∈ (s.act a).2.records, w.id = some r.id ∧ r.Carries w ∧ r.status = .running engine := by
  obtain ⟨pool, most, rfl, r, hr, rfl⟩ := gives_record hg
  refine ⟨r.claim engine, List.mem_map.2 ⟨r, (mem_claimList hr).1, ?_⟩, rfl,
    carries_claim r engine, rfl⟩
  rw [if_pos (List.mem_map_of_mem hr)]

/-- What was handed out and not settled since is stored with what it was handed out with, and runs
for the engine that got it or was recovered since; so what is handed out again was recovered, and
comes without the rest of the wait. -/
structure Outstanding (ts : List Turn) (s : Store) : Prop where
  unique : s.Unique
  carried : ∀ past t mid engine w, ts = past ++ t :: mid → t.Gives engine w →
    (∀ v ∈ mid, v.action.settles ≠ w.id) → ∃ r ∈ s.records, w.id = some r.id ∧ r.Carries w ∧
      (r.status = .running engine ∨ Recovered r.id engine mid)
  again : ∀ past t mid u later engine other w w', ts = past ++ t :: mid ++ u :: later →
    t.Gives engine w → (∀ v ∈ mid, v.action.settles ≠ w.id) → u.Gives other w' → w'.id = w.id →
      w' = w.bare ∧ ∃ id, w.id = some id ∧ Recovered id engine mid

theorem Outstanding.carried_act {ts past mid : List Turn} {t : Turn} {engine : String}
    {w : Workflow} (h : Outstanding ts s) (hts : ts = past ++ t :: mid) (hg : t.Gives engine w)
    (hmid : ∀ v ∈ mid ++ [⟨s, a⟩], v.action.settles ≠ w.id) :
    ∃ r ∈ (s.act a).2.records, w.id = some r.id ∧ r.Carries w ∧
      (r.status = .running engine ∨ Recovered r.id engine (mid ++ [⟨s, a⟩])) := by
  have ha : a.settles ≠ w.id := hmid ⟨s, a⟩ (List.mem_append_right _ List.mem_cons_self)
  obtain ⟨r, hr, hid, hc, hs⟩ := h.carried past t mid engine w hts hg
    fun v hv => hmid v (List.mem_append_left _ hv)
  rw [hid] at ha
  -- It is not removed, so a record of its id is there, and that comes from this one.
  obtain ⟨r', hr', hid'⟩ := List.mem_map.1 (act_ids s a (List.mem_map_of_mem hr)
    fun he => ha (by rw [he]; rfl))
  obtain ⟨hc', hs'⟩ := (act_record_of h.unique hr hr' hid').carries ha hc
  refine ⟨r', hr', by rw [hid, hid'], hc', ?_⟩
  rw [hid']
  rcases hs with hs | hs
  · refine (hs' engine hs).imp_right fun he => ?_
    exact ⟨⟨s, a⟩, List.mem_append_right _ List.mem_cons_self, he, r, hr, rfl, hs⟩
  · exact .inr (hs.append _)

theorem Outstanding.again_act {ts past mid : List Turn} {t : Turn} {engine other : String}
    {w w' : Workflow} (h : Outstanding ts s) (hts : ts = past ++ t :: mid) (hg : t.Gives engine w)
    (hmid : ∀ v ∈ mid, v.action.settles ≠ w.id) (hu : Turn.Gives ⟨s, a⟩ other w')
    (hid : w'.id = w.id) : w' = w.bare ∧ ∃ id, w.id = some id ∧ Recovered id engine mid := by
  obtain ⟨pool, most, rfl, r', hr', rfl⟩ := gives_record hu
  obtain ⟨r, hr, hw, hc, hs⟩ := h.carried past t mid engine w hts hg hmid
  obtain rfl : r' = r :=
    h.unique.eq (mem_claimList hr').1 hr (Option.some.inj (hid.trans hw))
  refine ⟨hc.bare other, r'.id, hw, hs.resolve_left fun hrun => ?_⟩
  rw [claimList_ready hr'] at hrun
  cases hrun

theorem outstanding_inductive : Inductive Outstanding where
  start :=
    { unique := unique_empty
      carried := fun past t mid _ _ h => by cases past <;> cases h
      again := fun past t mid u later _ _ _ _ h => by cases past <;> cases h }
  step ts s a h :=
    { unique := act_unique s a h.unique
      carried := fun past t mid engine w hts hg hmid => by
        rcases split_snoc hts with ⟨rfl, rfl, -⟩ | ⟨mid, rfl, hts'⟩
        · obtain ⟨r, hr, hid, hc, hs⟩ := gives_running hg
          exact ⟨r, hr, hid, hc, .inl hs⟩
        · exact h.carried_act hts' hg hmid
      again := fun past t mid u later engine other w w' hts hg hmid hu hid => by
        rcases split_snoc hts with ⟨-, rfl, hts'⟩ | ⟨later', -, hts'⟩
        · exact h.again_act hts' hg hmid hu hid
        · exact h.again past t mid u later' engine other w w' hts' hg hmid hu hid }

end Store

/-- **After a crash.** Of committed transactions, and one that is open, whichever engines they act
for: if a claim hands an instance out, its run is not settled, and a later claim hands the instance
out again, then the engine of the first was recovered in between, and the second hands out the same
instance without the answers and the mark that its last wait left. -/
theorem recovered_claim_bare (clock : Instant) (txs : List (List Store.Request))
    (qs : List Store.Request) :
    ((Database.create clock).underway txs qs).store = Store.empty.serveAll (txs.flatten ++ qs) ∧
      ∀ past t mid u later engine other w w',
        Store.empty.trail (txs.flatten ++ qs) = past ++ t :: mid ++ u :: later →
        t.Gives engine w → (∀ v ∈ mid, v.action.settles ≠ w.id) →
        u.Gives other w' → w'.id = w.id →
          w' = w.bare ∧ ∃ id, w.id = some id ∧ Recovered id engine mid :=
  ⟨(Database.underway_store (d := Database.create clock) rfl txs qs).1,
    (Store.outstanding_inductive.run (txs.flatten ++ qs)).again⟩

/-- An instance waits for one response and is claimed with it; its engine is recovered and claims the
instance again. -/
def Store.crashedRun : List Store.Request :=
  let tx (op : Operation) : Store.Request := ⟨⟨"engine", true⟩, .epoch, op⟩
  (Store.oneWait.take 5).flatten ++
    [tx (.claim Workflow.defaultPool 1), tx .recover, tx (.claim Workflow.defaultPool 1)]

/-- The instance of that run, as the claim after its wait hands it out. -/
def Workflow.answered : Workflow :=
  { Workflow.create "t" .null with id := some ⟨1⟩, pool := some defaultPool, stage := .running
                                   responses := [⟨"a", .ok .null, .epoch, none⟩] }

theorem Store.trail_append (qs rs : List Store.Request) :
    ∀ s : Store, s.trail (qs ++ rs) = s.trail qs ++ (s.serveAll qs).trail rs := by
  induction qs with
  | nil => intro s; rfl
  | cons q qs ih =>
    intro s
    rw [List.cons_append, trail, trail, ih, List.append_assoc]
    rfl

/-- The turns of that run, from the claim after the wait on. -/
theorem Store.crashedRun_turns :
    ∃ past t v u, Store.empty.trail (crashedRun ++ []) = past ++ t :: [v] ++ u :: [] ∧
      t.Gives "engine" .answered ∧ v.action = .recover "engine" ∧
      u.Gives "engine" Workflow.answered.bare := by
  let claim : Action := .claim "engine" Workflow.defaultPool 1
  let crash : Action := .recover "engine"
  let s₅ := Store.empty.serveAll (Store.oneWait.take 5).flatten
  have hlast : ∀ s : Store, s.trail (crashedRun.drop 5) =
      [⟨s, claim⟩, ⟨(s.act claim).2, crash⟩, ⟨((s.act claim).2.act crash).2, claim⟩] := fun s => rfl
  refine ⟨Store.empty.trail (Store.oneWait.take 5).flatten, ⟨s₅, claim⟩,
    ⟨(s₅.act claim).2, crash⟩, ⟨((s₅.act claim).2.act crash).2, claim⟩, ?_,
    ⟨Workflow.defaultPool, 1, rfl, by decide +kernel⟩, rfl,
    ⟨Workflow.defaultPool, 1, rfl, by decide +kernel⟩⟩
  have hsplit : crashedRun = (Store.oneWait.take 5).flatten ++ crashedRun.drop 5 := rfl
  rw [List.append_nil, hsplit, trail_append, hlast, List.append_assoc]
  rfl

/-- The answer that the instance was claimed with is gone after a crash. -/
theorem answers_lost_in_crash :
    ∃ past t mid u w w', Store.empty.trail (Store.crashedRun ++ []) = past ++ t :: mid ++ u :: [] ∧
      t.Gives "engine" w ∧ (∀ v ∈ mid, v.action = .recover "engine") ∧ u.Gives "engine" w' ∧
      w'.id = w.id ∧ w.responses = [⟨"a", .ok .null, .epoch, none⟩] ∧ w'.responses = [] := by
  obtain ⟨past, t, v, u, hrun, ht, hv, hu⟩ := Store.crashedRun_turns
  refine ⟨past, t, [v], u, _, _, hrun, ht, fun x hx => ?_, hu, rfl, rfl, rfl⟩
  rw [List.mem_singleton.1 hx]
  exact hv

theorem recovered_claim_crashed :
    ∃ past t mid u, Store.empty.trail (Store.crashedRun ++ []) = past ++ t :: mid ++ u :: [] ∧
      t.Gives "engine" .answered ∧ u.Gives "engine" Workflow.answered.bare ∧
      Recovered ⟨1⟩ "engine" mid := by
  obtain ⟨past, t, v, u, hrun, ht, hv, hu⟩ := Store.crashedRun_turns
  have hrun' : Store.empty.trail ([Store.crashedRun].flatten ++ []) =
      past ++ t :: [v] ++ u :: [] := by simpa using hrun
  obtain ⟨-, id, hid, hr⟩ := (recovered_claim_bare .epoch [Store.crashedRun] []).2 _ _ _ _ _ _ _ _ _
    hrun' ht (fun x hx => by rw [List.mem_singleton.1 hx, hv]; exact nofun) hu rfl
  cases hid
  exact ⟨past, t, [v], u, hrun, ht, hu, hr⟩

end Resumption
