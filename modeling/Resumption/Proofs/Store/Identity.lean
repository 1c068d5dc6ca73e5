import Resumption.Proofs.Database.Job
import Resumption.Proofs.Store.Recovery
import Resumption.Proofs.Store.Representation

/-!
# What an instance is

From the turn that stores an instance to the turn that removes it, its id, number, type, pool and
priority stay what they were, and its payload is that of the last callback that it was suspended on.
A claim hands out what could be looked up just before, and leaves the instance without what its last
wait left.

**Invariant.** `Store.Traced`: what was stored and not removed since is there, as its workflow and
its later callbacks say (`Record.Of`), and nothing else is there. `Change.of` is the step of one
turn.

**Claims and look-ups.** `HandsOver` compares the answers of the two, of the store
(`Store.handsOver`) and of the slots in memory that are read as it (`Layout.handsOver`).

**Result.** `instance_keeps_identity`.
-/

namespace Resumption

def Turn.Stores (t : Turn) (w : Workflow) (id : Uuid) : Prop :=
  t.action = .insert w ∧ w.id = some id ∧ t.before.find? id = none

def Turn.Removes (t : Turn) (id : Uuid) : Prop := t.action = .finish true id

/-- The payload that the turn gives the instance, which is that of a callback that finds it. -/
def Turn.payload? (t : Turn) (id : Uuid) : Option Json :=
  match t.action with
  | .suspend c payload =>
    if c.instanceId = id ∧ (t.before.find? id).isSome then some payload else none
  | _ => none

/-- The payload that the turns gave the instance last. -/
def lastPayload (ts : List Turn) (id : Uuid) : Option Json :=
  (ts.filterMap fun t => t.payload? id).getLast?

/-- The record is that of the workflow, under the number and with the payload. -/
structure Record.Of (w : Workflow) (number : Nat) (payload : Json) (r : Record) : Prop where
  number : r.number = number
  type : r.type = w.type
  pool : r.pool = w.effectivePool
  priority : r.priority = w.priority
  payload : r.payload = payload

theorem lastPayload_snoc (ts : List Turn) (t : Turn) (id : Uuid) (payload : Json) :
    (lastPayload (ts ++ [t]) id).getD payload =
      (t.payload? id).getD ((lastPayload ts id).getD payload) := by
  unfold lastPayload
  rw [List.filterMap_append, List.getLast?_append]
  cases h : t.payload? id <;> simp [h]

namespace Store

variable {s : Store} {a : Action} {r r' : Record}

/-! ## One turn -/

/-- No change touches what a record is, and the payload is that of the callback that is put on
it. -/
theorem Change.of (h : s.Change a r r') (hr : s.find? r.id = some r) {w : Workflow} {number : Nat}
    {payload : Json} (hof : r.Of w number payload) :
    r'.Of w number ((Turn.payload? ⟨s, a⟩ r.id).getD payload) := by
  obtain ⟨hn, ht, hp, hi, hl⟩ := hof
  cases h with
  | same hne =>
    have hnone : Turn.payload? ⟨s, a⟩ r.id = none := by
      cases a with
      | suspend c payload => exact if_neg fun he => hne c payload rfl he.1.symm
      | _ => rfl
    rw [hnone]
    exact ⟨hn, ht, hp, hi, hl⟩
  | deliver _ =>
    unfold Record.answer
    split
    · dsimp only
      split <;> exact ⟨hn, ht, hp, hi, hl⟩
    · exact ⟨hn, ht, hp, hi, hl⟩
  | @suspend c given r hid =>
    have hsome : Turn.payload? ⟨s, .suspend c given⟩ r.id = some given :=
      if_pos ⟨hid.symm, by rw [hr]; rfl⟩
    rw [hsome]
    rcases s.suspended_outcome c given r with ⟨z, he, -⟩ | ⟨z, x, -, -, -, he⟩ <;> rw [he] <;>
      exact ⟨hn, ht, hp, hi, rfl⟩
  | promote _ =>
    unfold Record.promote
    split <;> exact ⟨hn, ht, hp, hi, hl⟩
  | _ => exact ⟨hn, ht, hp, hi, hl⟩

theorem stores_record {w : Workflow} {id : Uuid} (h : Turn.Stores ⟨s, a⟩ w id) :
    ∃ r ∈ (s.act a).2.records, r.id = id ∧ r.Of w (s.drawn + 1) w.payload := by
  obtain ⟨rfl, hid, hf⟩ := h
  have hi : (s.act (.insert w)).2 = s.append id w := by
    rw [act, plainly, insert_fresh hid hf]
  rw [hi]
  exact ⟨_, List.mem_append_right _ List.mem_cons_self, rfl, rfl, rfl, rfl, rfl, rfl⟩

/-- What is there was there before or is stored in this turn, and it is not removed. -/
theorem act_origin (hu : s.Unique) (hr' : r' ∈ (s.act a).2.records) :
    (r'.id ∈ s.ids ∧ ¬ Turn.Removes ⟨s, a⟩ r'.id) ∨ ∃ w, Turn.Stores ⟨s, a⟩ w r'.id := by
  rcases act_records hu a hr' with ⟨r, hr, hc⟩ | ⟨w, id, rfl, hid, hf, rfl⟩
  · refine .inl ⟨hc.id ▸ List.mem_map_of_mem hr, fun hrem => ?_⟩
    have hrem : a = .finish true r'.id := hrem
    have hf : s.find? r'.id = some r := hc.id ▸ hu.find? hr
    rw [hrem, act, plainly, Store.finish, if_pos rfl, hf] at hr'
    simpa using (List.mem_filter.1 hr').2
  · exact .inr ⟨w, rfl, hid, hf⟩

/-! ## A run -/

/-- What was stored and not removed since is there, as its workflow and its later callbacks say; and
what is there was stored and not removed since. -/
structure Traced (ts : List Turn) (s : Store) : Prop where
  unique : s.Unique
  lasting : ∀ past t later w id, ts = past ++ t :: later → t.Stores w id →
    (∀ u ∈ later, ¬ u.Removes id) → ∃ r ∈ s.records, r.id = id ∧
      r.Of w (t.before.drawn + 1) ((lastPayload later id).getD w.payload)
  origin : ∀ r ∈ s.records, ∃ past t later w, ts = past ++ t :: later ∧ t.Stores w r.id ∧
    ∀ u ∈ later, ¬ u.Removes r.id

theorem Traced.lasting_act {ts past later : List Turn} {t : Turn} {w : Workflow} {id : Uuid}
    (h : Traced ts s) (hts : ts = past ++ t :: later) (ht : t.Stores w id)
    (hlater : ∀ u ∈ later ++ [⟨s, a⟩], ¬ u.Removes id) :
    ∃ r ∈ (s.act a).2.records, r.id = id ∧
      r.Of w (t.before.drawn + 1) ((lastPayload (later ++ [⟨s, a⟩]) id).getD w.payload) := by
  obtain ⟨r, hr, rfl, hof⟩ := h.lasting past t later w id hts ht
    fun u hu => hlater u (List.mem_append_left _ hu)
  have ha : ¬ Turn.Removes ⟨s, a⟩ r.id :=
    hlater _ (List.mem_append_right _ List.mem_cons_self)
  obtain ⟨r', hr', hid⟩ := List.mem_map.1 (act_ids s a (List.mem_map_of_mem hr) ha)
  refine ⟨r', hr', hid, ?_⟩
  rw [lastPayload_snoc]
  exact (act_record_of h.unique hr hr' hid).of (h.unique.find? hr) hof

theorem Traced.origin_act {ts : List Turn} (h : Traced ts s) (hr' : r' ∈ (s.act a).2.records) :
    ∃ past t later w, ts ++ [⟨s, a⟩] = past ++ t :: later ∧ t.Stores w r'.id ∧
      ∀ u ∈ later, ¬ u.Removes r'.id := by
  rcases act_origin h.unique hr' with ⟨hid, ha⟩ | ⟨w, hw⟩
  · obtain ⟨r, hr, he⟩ := List.mem_map.1 hid
    obtain ⟨past, t, later, w, rfl, ht, hlater⟩ := h.origin r hr
    rw [he] at ht hlater
    refine ⟨past, t, later ++ [⟨s, a⟩], w, by simp, ht, fun u hu => ?_⟩
    rcases List.mem_append.1 hu with hu | hu
    · exact hlater u hu
    · rw [List.mem_singleton.1 hu]
      exact ha
  · exact ⟨ts, _, [], w, rfl, hw, fun u hu => nomatch hu⟩

theorem traced_inductive : Inductive Traced where
  start :=
    { unique := unique_empty
      lasting := fun past t later _ _ h => by cases past <;> cases h
      origin := fun r hr => nomatch hr }
  step ts s a h :=
    { unique := act_unique s a h.unique
      lasting := fun past t later w id hts ht hlater => by
        rcases split_snoc hts with ⟨rfl, rfl, -⟩ | ⟨later, rfl, hts'⟩
        · exact stores_record ht
        · exact h.lasting_act hts' ht hlater
      origin := fun r hr => h.origin_act hr }

end Store

/-! ## Claims and look-ups -/

section
variable {M : Type} (act : M → Action → Except StoreError Outcome × M)

/-- Looking the instance up shows this and changes nothing. -/
def Shows (m : M) (id : Uuid) (w : Option Workflow) : Prop :=
  act m (.load id) = (.ok (.loaded w), m)

/-- A claim hands out each instance as it could be looked up before, but running. Afterwards it can
be looked up as it was handed out, but without what its last wait left. -/
def HandsOver (m : M) (engine pool : String) (most : Nat) : Prop :=
  ∃ ws, (act m (.claim engine pool most)).1 = .ok (.claimed ws) ∧ ∀ w ∈ ws, ∃ id v,
    w.id = some id ∧ Shows act m id (some v) ∧ w = { v with stage := .running } ∧
      v.callback = none ∧ Shows act (act m (.claim engine pool most)).2 id (some w.bare)

end

theorem Store.handsOver {s : Store} (hu : s.Unique) (engine pool : String) (most : Nat) :
    HandsOver Store.act s engine pool most := by
  refine ⟨_, rfl, fun w hw => ?_⟩
  obtain ⟨r, hr, rfl⟩ := List.mem_map.1 hw
  have hmem := (mem_claimList hr).1
  have hafter : r.claim engine ∈ (s.act (.claim engine pool most)).2.records :=
    List.mem_map.2 ⟨r, hmem, if_pos (List.mem_map_of_mem hr)⟩
  have hload : s.load r.id = some r.toWorkflow := by rw [Store.load, hu.find? hmem]; rfl
  have hfind : Store.find? (s.claim engine pool most).2 r.id = some (r.claim engine) :=
    (act_unique s (.claim engine pool most) hu).find? hafter
  have hload' : Store.load (s.claim engine pool most).2 r.id = some (r.handedOut engine).bare := by
    rw [Store.load, hfind]
    rfl
  refine ⟨r.id, r.toWorkflow, rfl, ?_, rfl, rfl, ?_⟩
  · exact congrArg (fun w => (Except.ok (Outcome.loaded w), s)) hload
  · exact congrArg (fun w => (Except.ok (Outcome.loaded w), (s.claim engine pool most).2)) hload'

namespace Layout

/-- A sound layout answers a look-up as the store that it is read as. -/
theorem shows_iff {L : Layout} (h : L.Sound) {id : Uuid} {w : Option Workflow} :
    Shows Layout.act L id w ↔ Shows Store.act L.store id w := by
  have ha := (act_agrees h (.load id)).answer
  exact ⟨fun hs => Prod.ext (ha.symm.trans (congrArg Prod.fst hs)) rfl,
    fun hs => Prod.ext (ha.trans (congrArg Prod.fst hs)) rfl⟩

theorem handsOver {L : Layout} (h : L.Sound) (engine pool : String) (most : Nat) :
    HandsOver Layout.act L engine pool most := by
  have hc := act_agrees h (.claim engine pool most)
  obtain ⟨ws, hws, hall⟩ := Store.handsOver h.numbered.ids engine pool most
  refine ⟨ws, hc.answer.trans hws, fun w hw => ?_⟩
  obtain ⟨id, v, hid, hv, hwv, hcall, hafter⟩ := hall w hw
  refine ⟨id, v, hid, (shows_iff h).2 hv, hwv, hcall, (shows_iff (h.act _)).2 ?_⟩
  rw [hc.store]
  exact hafter

end Layout

/-- **What an instance is.** Of transactions that are committed, rolled back or forgotten, and one
that is open: an instance that was stored and not removed since is there, with the number that it
drew, the type, pool and priority that it was submitted with, and the payload of the last callback
that found it, or else the one that it was submitted with; and nothing else is there. A look-up
changes nothing, and a claim hands out what could be looked up before, of the store as of every
layout in memory. -/
theorem instance_keeps_identity (clock : Instant)
    (txs : List (List Store.Request × Database.Fate)) (qs : List Store.Request) :
    let s := ((Database.create clock).course txs qs).store
    let ts := Store.empty.trail (Database.lasting txs ++ qs)
    s = Store.empty.serveAll (Database.lasting txs ++ qs) ∧
      (∀ past t later w id, ts = past ++ t :: later → t.Stores w id →
        (∀ u ∈ later, ¬ u.Removes id) → ∃ r, s.find? id = some r ∧
          r.Of w (t.before.drawn + 1) ((lastPayload later id).getD w.payload)) ∧
      (∀ r ∈ s.records, ∃ past t later w, ts = past ++ t :: later ∧ t.Stores w r.id ∧
        ∀ u ∈ later, ¬ u.Removes r.id) ∧
      ((∀ id, ∃ w, Shows Store.act s id w) ∧
        ∀ engine pool most, HandsOver Store.act s engine pool most) ∧
      ∀ L : Layout, L.Reachable → (∀ id, ∃ w, Shows Layout.act L id w) ∧
        ∀ engine pool most, HandsOver Layout.act L engine pool most := by
  intro s ts
  have hs : s = Store.empty.serveAll (Database.lasting txs ++ qs) :=
    Database.course_store (d := Database.create clock) rfl txs qs
  have ht : Store.Traced ts s := hs ▸ Store.traced_inductive.run (Database.lasting txs ++ qs)
  refine ⟨hs, fun past t later w id hts hw hlater => ?_, ht.origin,
    ⟨fun id => ⟨_, rfl⟩, Store.handsOver ht.unique⟩,
    fun L hL => ⟨fun id => ⟨_, rfl⟩, Layout.handsOver hL.sound⟩⟩
  obtain ⟨r, hr, rfl, hof⟩ := ht.lasting past t later w id hts hw hlater
  exact ⟨r, ht.unique.find? hr, hof⟩

/-- A workflow of some priority that names no pool. -/
def Workflow.urgent : Workflow := { Workflow.create "t" .null with id := some ⟨1⟩, priority := 5 }

/-- The workflow is stored and suspended with two payloads, the first in a transaction that is
rolled back. -/
def Database.reconsidered : List (List Store.Request × Fate) :=
  let tx (op : Operation) : List Store.Request := [⟨⟨"engine", true⟩, .epoch, op⟩]
  let call : Callback := ⟨⟨1⟩, .all, none, ["a"]⟩
  [(tx (.insert [.urgent]), .committed), (tx (.suspend call (.string "lost")), .rolledBack),
    (tx (.suspend call (.string "kept")), .committed)]

theorem instance_keeps_identity_reconsidered :
    ∃ r, ((Database.create .epoch).course Database.reconsidered []).store.find? ⟨1⟩ = some r ∧
      r.number = 1 ∧ r.pool = "P#DEFAULT" ∧ r.priority = 5 ∧ r.payload = .string "kept" := by
  let s₁ := Store.empty.append ⟨1⟩ .urgent
  have hts : Store.empty.trail (Database.lasting Database.reconsidered ++ []) =
      [] ++ ⟨.empty, .insert .urgent⟩ ::
        [⟨s₁, .suspend ⟨⟨1⟩, .all, none, ["a"]⟩ (.string "kept")⟩] := rfl
  obtain ⟨-, hkept, -⟩ := instance_keeps_identity .epoch Database.reconsidered []
  obtain ⟨r, hr, hof⟩ := hkept _ _ _ .urgent ⟨1⟩ hts ⟨rfl, rfl, rfl⟩ fun u hu => by
    rw [List.mem_singleton.1 hu]
    exact nofun
  exact ⟨r, hr, hof.number, hof.pool, hof.priority, hof.payload⟩

end Resumption
