import Resumption.Proofs.Database.Session
import Resumption.Proofs.Store.Change

/-!
# A claim is exclusive

A claim hands out ready instances and marks them as running for its engine. Everything that makes an
instance ready again says so by the name of the action: a recovery of that engine, a suspension of
the instance, or a restart after its failure (`Returned`). An instance can also be removed and
stored anew under its id, which is another instance.

**Invariant.** `Store.Exclusive`: whoever was handed out and not returned since is still kept, as
running for the engine that it was handed to, as finished, or as failed by an action since
(`Record.Kept`). `Change.kept` is the step of one turn.

**Result.** `claims_exclusive`: after committed transactions the running instances are those that an
engine claimed, and its claim was the last; no claim hands an instance out twice; and between two
claims of an instance it was returned.
-/

namespace Resumption

/-! ## Handing out and giving back -/

/-- The turn is a claim of the engine and hands the instance out. -/
def Turn.HandsOut (t : Turn) (id : Uuid) (engine : String) : Prop :=
  ∃ pool most, t.action = .claim engine pool most ∧
    some id ∈ (t.before.claim engine pool most).1.map (·.id)

def Turn.handedIds (t : Turn) : List (Option Uuid) :=
  match t.action with
  | .claim engine pool most => (t.before.claim engine pool most).1.map (·.id)
  | _ => []

/-- Among the turns there is one that takes the instance from the engine: a recovery of the engine,
a suspension of the instance, or a restart after the instance failed. Or the instance was gone and
is stored anew. -/
inductive Returned (id : Uuid) (engine : String) (ts : List Turn) : Prop where
  | recovered (t : Turn) (mem : t ∈ ts) (act : t.action = .recover engine)
  | suspended (t : Turn) (mem : t ∈ ts) (c : Callback) (payload : Json)
      (act : t.action = .suspend c payload) (subject : c.instanceId = id)
  | restarted (past mid later : List Turn) (t u : Turn) (turns : ts = past ++ t :: mid ++ u :: later)
      (cause : String) (failed : t.action = .fail id cause)
      (act : u.action = .restart id ∨ u.action = .restartAll)
  | replaced (t : Turn) (mem : t ∈ ts) (w : Workflow) (act : t.action = .insert w)
      (subject : w.id = some id) (absent : t.before.find? id = none)

theorem Returned.snoc {id : Uuid} {engine : String} {ts : List Turn} (h : Returned id engine ts)
    (t : Turn) : Returned id engine (ts ++ [t]) := by
  cases h with
  | recovered u mem act => exact .recovered u (List.mem_append_left _ mem) act
  | suspended u mem c payload act subject =>
    exact .suspended u (List.mem_append_left _ mem) c payload act subject
  | restarted past mid later u v turns cause failed act =>
    exact .restarted past mid (later ++ [t]) u v (by rw [turns]; simp) cause failed act
  | replaced u mem w act subject absent =>
    exact .replaced u (List.mem_append_left _ mem) w act subject absent

/-- What became of an instance that was handed to an engine and not returned since. -/
inductive Record.Kept (engine : String) (ts : List Turn) (r : Record) : Prop where
  | running (status : r.status = .running engine)
  | finished (status : r.status = .finished)
  | failed (status : r.status = .failed) (t : Turn) (mem : t ∈ ts) (cause : String)
      (act : t.action = .fail r.id cause)

namespace Record

variable {engine : String} {ts : List Turn} {r : Record}

theorem Kept.snoc (h : r.Kept engine ts) (t : Turn) : r.Kept engine (ts ++ [t]) := by
  cases h with
  | running hs => exact .running hs
  | finished hs => exact .finished hs
  | failed hs u mem cause act => exact .failed hs u (List.mem_append_left _ mem) cause act

theorem Kept.not_ready (h : r.Kept engine ts) : r.status ≠ .ready := by
  cases h with
  | running hs => rw [hs]; exact fun h => (nomatch h)
  | finished hs => rw [hs]; exact fun h => (nomatch h)
  | failed hs _ _ _ _ => rw [hs]; exact fun h => (nomatch h)

theorem Kept.not_waiting (h : r.Kept engine ts) (z : Suspension) : r.status ≠ .waiting z := by
  cases h with
  | running hs => rw [hs]; exact fun h => (nomatch h)
  | finished hs => rw [hs]; exact fun h => (nomatch h)
  | failed hs _ _ _ _ => rw [hs]; exact fun h => (nomatch h)

theorem Kept.not_due (h : r.Kept engine ts) (now : Instant) : r.dueAt now = false := by
  cases h with
  | running hs => simp [dueAt, hs]
  | finished hs => simp [dueAt, hs]
  | failed hs _ _ _ _ => simp [dueAt, hs]

end Record

namespace Store

variable {s : Store} {a : Action} {id : Uuid} {engine : String}

/-! ## Claims -/

theorem claimList_nodup (hu : s.Unique) (pool : String) (most : Nat) :
    ((s.claimList pool most).map (·.id)).Nodup := by
  have hf : ((s.records.filter fun r => r.claimable pool).map (·.id)).Nodup :=
    (List.Sublist.map _ List.filter_sublist).nodup hu
  refine (List.Sublist.map _ (List.take_sublist _ _)).nodup ?_
  exact ((List.mergeSort_perm _ _).map _).nodup_iff.2 hf

theorem handedOut_ids (s : Store) (engine pool : String) (most : Nat) :
    (s.claim engine pool most).1.map (·.id) =
      (s.claimList pool most).map fun r => some r.id := by
  simp only [claim, List.map_map]
  rfl

theorem handsOut_ready (h : Turn.HandsOut ⟨s, a⟩ id engine) :
    ∃ r ∈ s.records, r.id = id ∧ r.status = .ready ∧
      ∃ pool most, a = .claim engine pool most ∧ r ∈ s.claimList pool most := by
  obtain ⟨pool, most, ha, hm⟩ := h
  rw [handedOut_ids] at hm
  obtain ⟨r, hr, hid⟩ := List.mem_map.1 hm
  exact ⟨r, (mem_claimList hr).1, Option.some.inj hid, claimList_ready hr, pool, most, ha, hr⟩

theorem handsOut_running (hu : s.Unique) (h : Turn.HandsOut ⟨s, a⟩ id engine) {r' : Record}
    (hr' : r' ∈ (s.act a).2.records) (hid : r'.id = id) : r'.status = .running engine := by
  obtain ⟨r, hr, rfl, hst, pool, most, rfl, hm⟩ := handsOut_ready h
  obtain ⟨x, hx, rfl⟩ := List.mem_map.1 hr'
  have hi : (if x.id ∈ (s.claimList pool most).map (·.id) then x.claim engine else x).id = x.id := by
    split <;> rfl
  obtain rfl : x = r := hu.eq hx hr (hi.symm.trans hid)
  rw [if_pos (List.mem_map_of_mem hm)]
  rfl

theorem handsOut_of_claim {pool : String} {most : Nat} {r : Record}
    (hr : r ∈ s.claimList pool most) :
    Turn.HandsOut ⟨s, .claim engine pool most⟩ r.id engine := by
  refine ⟨pool, most, rfl, ?_⟩
  rw [handedOut_ids]
  exact List.mem_map_of_mem hr

theorem handedIds_nodup (hu : s.Unique) (a : Action) : (Turn.handedIds ⟨s, a⟩).Nodup := by
  cases a with
  | claim engine pool most =>
    have hl := claimList_nodup hu pool most
    show ((s.claim engine pool most).1.map (·.id)).Nodup
    have hm : (s.claim engine pool most).1.map (·.id) =
        ((s.claimList pool most).map (·.id)).map some := by
      rw [handedOut_ids, List.map_map]
      rfl
    rw [hm]
    exact hl.map (fun _ _ => Option.some.inj)
  | _ => exact List.nodup_nil

/-- What a claim hands out was ready and runs for the engine now. -/
theorem claim_runs {s s' : Store} {engine pool : String} {most : Nat} {ws : List Workflow}
    (h : s.claim engine pool most = (ws, s')) {subject : Option Uuid}
    (hm : subject ∈ ws.map (·.id)) :
    ∃ r ∈ s.records, some r.id = subject ∧ r.status = .ready ∧
      ∃ r' ∈ s'.records, r'.id = r.id ∧ r'.status = .running engine := by
  have hws : (s.claim engine pool most).1 = ws := by rw [h]
  rw [← hws, handedOut_ids] at hm
  obtain ⟨r, hr, rfl⟩ := List.mem_map.1 hm
  refine ⟨r, (mem_claimList hr).1, rfl, claimList_ready hr, r.claim engine, ?_, rfl, rfl⟩
  have hs : s' = (s.claim engine pool most).2 := by rw [h]
  rw [hs]
  exact List.mem_map.2 ⟨r, (mem_claimList hr).1, if_pos (List.mem_map_of_mem hr)⟩

theorem claim_once {s s' : Store} {engine pool : String} {most : Nat} {ws : List Workflow}
    (hu : s.Unique) (h : s.claim engine pool most = (ws, s')) : (ws.map (·.id)).Nodup := by
  have : ((s.claim engine pool most).1.map (·.id)).Nodup :=
    handedIds_nodup hu (.claim engine pool most)
  rwa [h] at this

/-! ## One turn -/

theorem Change.kept {ts : List Turn} {r r' : Record} (h : s.Change a r r') (hk : r.Kept engine ts) :
    Returned r.id engine (ts ++ [⟨s, a⟩]) ∨ r'.Kept engine (ts ++ [⟨s, a⟩]) := by
  have last : (⟨s, a⟩ : Turn) ∈ ts ++ [⟨s, a⟩] := List.mem_append_right _ (List.mem_singleton_self _)
  -- an instance that can be restarted has failed since
  have again : r.status = .failed → a = .restart r.id ∨ a = .restartAll →
      Returned r.id engine (ts ++ [⟨s, a⟩]) := by
    intro hst ha
    cases hk with
    | running hs => rw [hs] at hst; cases hst
    | finished hs => rw [hs] at hst; cases hst
    | failed _ t mem cause act =>
      obtain ⟨past, mid, rfl⟩ := List.append_of_mem mem
      exact .restarted past mid [] t ⟨s, a⟩ (by simp) cause act ha
  cases h with
  | same _ => exact .inr (hk.snoc _)
  | claim hc => exact absurd (by simp only [Record.claimable] at hc; simp_all) hk.not_ready
  | deliver hw =>
    obtain ⟨z, hz, -⟩ := Record.wants_iff.1 hw
    exact absurd hz (hk.not_waiting z)
  | @suspend c payload r hid => exact .inl (.suspended _ last c payload rfl hid.symm)
  | finish _ => exact .inr (.finished rfl)
  | @fail id cause r hid => exact .inr (.failed rfl _ last cause (congrArg (Action.fail · cause) hid.symm))
  | @restart id r hid hst => exact .inl (again hst (.inl (congrArg _ hid.symm)))
  | restartAll hst => exact .inl (again hst (.inr rfl))
  | promote hd => rw [hk.not_due] at hd; cases hd
  | recover hst =>
    cases hk with
    | running hs =>
      rw [hs] at hst
      cases hst
      exact .inl (.recovered _ last rfl)
    | finished hs => rw [hs] at hst; cases hst
    | failed hs _ _ _ _ => rw [hs] at hst; cases hst

/-- An instance that runs after an action ran before, or was just handed out. -/
theorem running_of_act (hu : s.Unique) {r' : Record} (hr' : r' ∈ (s.act a).2.records)
    (hs : r'.status = .running engine) :
    Turn.HandsOut ⟨s, a⟩ r'.id engine ∨
      ∃ r ∈ s.records, r.id = r'.id ∧ r.status = .running engine := by
  rcases act_records hu a hr' with ⟨r, hr, hc⟩ | ⟨w, id, -, -, -, rfl⟩
  · cases hc with
    | same _ => exact .inr ⟨r', hr, rfl, hs⟩
    | @claim engine' pool most r hcl =>
      cases hs
      -- claimable is not claimed: the record is one that the claim took
      obtain ⟨x, hx, he⟩ := List.mem_map.1 hr'
      have hi : (if x.id ∈ (s.claimList pool most).map (·.id) then x.claim engine else x).id =
          x.id := by split <;> rfl
      obtain rfl : x = r := hu.eq hx hr (hi.symm.trans (congrArg Record.id he :))
      split at he
      · rename_i hmem
        have := hu.mem_of_id (fun t ht => (mem_claimList ht).1) hr hmem
        exact .inl (handsOut_of_claim (r := x) this)
      · rw [he] at hcl
        exact absurd hcl (by simp [Record.claimable, Record.claim])
    | deliver hw =>
      obtain ⟨z, hz, -⟩ := Record.wants_iff.1 hw
      rw [Record.answer_waiting hz] at hs
      split at hs <;> cases hs
    | @suspend c payload r _ =>
      rcases s.suspended_outcome c payload r with ⟨z, he, -⟩ | ⟨z, x, -, -, -, he⟩ <;>
        · rw [he] at hs
          cases hs
    | promote _ =>
      unfold Record.promote at hs
      split at hs <;> cases hs
    | _ => cases hs
  · cases hs

/-- What runs for an engine after actions and did not run for it before was handed out by one of
them. -/
theorem Performs.handedOut {engine : String} {s s' : Store} {xs : List Action}
    (h : s.Performs xs s') (hu : s.Unique) {r' : Record} (hr : r' ∈ s'.records)
    (hs : r'.status = .running engine) :
    (∃ r ∈ s.records, r.id = r'.id ∧ r.status = .running engine) ∨
      ∃ past a future, xs = past ++ a :: future ∧
        Turn.HandsOut ⟨s.afterAll past, a⟩ r'.id engine := by
  induction h with
  | nil s => exact .inl ⟨r', hr, rfl, hs⟩
  | @cons s s₁ s₂ a _ as ha _ ih =>
    have hs₁ : (s.act a).2 = s₁ := by rw [ha]
    rcases ih (hs₁ ▸ act_unique s a hu) hr with ⟨r, hr₁, hid, hst⟩ | ⟨past, b, future, rfl, hb⟩
    · rcases running_of_act hu (hs₁ ▸ hr₁) hst with hh | ⟨t, ht, htid, htst⟩
      · exact .inr ⟨[], a, as, rfl, hid ▸ hh⟩
      · exact .inl ⟨t, ht, htid.trans hid, htst⟩
    · refine .inr ⟨a :: past, b, future, rfl, ?_⟩
      rwa [Store.afterAll, List.foldl_cons, hs₁]

/-! ## A run -/

/-- The engine is the last that the instance was handed to. -/
def LastHandedTo (ts : List Turn) (id : Uuid) (engine : String) : Prop :=
  ∃ past t later, ts = past ++ t :: later ∧ t.HandsOut id engine ∧
    ∀ u ∈ later, ∀ other, ¬ u.HandsOut id other

/-- Claims exclude each other, as far as the turns and the store after them tell. -/
structure Exclusive (ts : List Turn) (s : Store) : Prop where
  unique : s.Unique
  once : ∀ t ∈ ts, t.handedIds.Nodup
  held : ∀ r ∈ s.records, ∀ engine, r.status = .running engine → LastHandedTo ts r.id engine
  kept : ∀ past t mid id engine, ts = past ++ t :: mid → t.HandsOut id engine →
    Returned id engine mid ∨ ∀ r ∈ s.records, r.id = id → r.Kept engine mid
  between : ∀ past t mid u later id engine other, ts = past ++ t :: mid ++ u :: later →
    t.HandsOut id engine → u.HandsOut id other → Returned id engine mid

/-- The end of turns to which one was added: it is the added one, or the added one comes after. -/
theorem split_snoc {ts past later : List Turn} {t u : Turn} (h : ts ++ [u] = past ++ t :: later) :
    (later = [] ∧ t = u ∧ ts = past) ∨
      ∃ later', later = later' ++ [u] ∧ ts = past ++ t :: later' := by
  rcases List.eq_nil_or_concat later with rfl | ⟨later', v, rfl⟩
  · obtain ⟨rfl, he⟩ := List.append_inj' h rfl
    exact .inl ⟨rfl, (List.singleton_inj.1 he).symm, rfl⟩
  · have h' : ts ++ [u] = (past ++ t :: later') ++ [v] := by rw [h]; simp
    obtain ⟨rfl, he⟩ := List.append_inj' h' rfl
    exact .inr ⟨later', by rw [List.singleton_inj.1 he, List.concat_eq_append], rfl⟩

/-- An instance that an engine got and keeps is not there to be handed out. -/
theorem Exclusive.returned {ts past mid : List Turn} {t : Turn} {other : String}
    (h : Exclusive ts s) (hts : ts = past ++ t :: mid) (ht : t.HandsOut id engine)
    (hu : Turn.HandsOut ⟨s, a⟩ id other) : Returned id engine mid := by
  rcases h.kept past t mid id engine hts ht with hr | hk
  · exact hr
  · obtain ⟨r, hr, rfl, hready, -⟩ := handsOut_ready hu
    exact absurd hready (hk r hr rfl).not_ready

theorem Exclusive.kept_act {ts mid : List Turn} (h : Exclusive ts s)
    (hk : Returned id engine mid ∨ ∀ r ∈ s.records, r.id = id → r.Kept engine mid) :
    Returned id engine (mid ++ [⟨s, a⟩]) ∨
      ∀ r ∈ (s.act a).2.records, r.id = id → r.Kept engine (mid ++ [⟨s, a⟩]) := by
  rcases hk with hr | hk
  · exact .inl (hr.snoc _)
  · refine Classical.or_iff_not_imp_left.2 fun hn r' hr' hid => ?_
    rcases act_records h.unique a hr' with ⟨r, hr, hc⟩ | ⟨w, id', rfl, hw, habs, rfl⟩
    · obtain rfl : r.id = id := hc.id.symm.trans hid
      exact (hc.kept (hk r hr rfl)).resolve_left hn
    · cases hid
      exact absurd (.replaced ⟨s, .insert w⟩ (List.mem_append_right _ List.mem_cons_self) w rfl hw
        habs) hn

theorem Exclusive.held_act {ts : List Turn} (h : Exclusive ts s) {r' : Record}
    (hr' : r' ∈ (s.act a).2.records) (hs : r'.status = .running engine) :
    LastHandedTo (ts ++ [⟨s, a⟩]) r'.id engine := by
  rcases running_of_act h.unique hr' hs with hh | ⟨r, hr, hid, hrun⟩
  · exact ⟨ts, _, [], rfl, hh, fun _ hm => nomatch hm⟩
  · obtain ⟨past, t, later, rfl, ht, hlast⟩ := h.held r hr engine hrun
    rw [← hid]
    refine ⟨past, t, later ++ [⟨s, a⟩], by simp, ht, fun u hu other hout => ?_⟩
    rcases List.mem_append.1 hu with hu | hu
    · exact hlast u hu other hout
    · cases List.mem_singleton.1 hu
      obtain ⟨x, hx, hxid, hready, -⟩ := handsOut_ready hout
      rw [h.unique.eq hx hr hxid, hrun] at hready
      cases hready

theorem exclusive_inductive : Inductive Exclusive where
  start :=
    { unique := unique_empty
      once := fun _ h => nomatch h
      held := fun _ h => nomatch h
      kept := fun past t mid _ _ h => by cases past <;> cases h
      between := fun past t mid u later _ _ _ h => by cases past <;> cases h }
  step ts s a h :=
    { unique := act_unique s a h.unique
      once := fun t ht => by
        rcases List.mem_append.1 ht with ht | ht
        · exact h.once t ht
        · cases List.mem_singleton.1 ht
          exact handedIds_nodup h.unique a
      held := fun r' hr' engine hs => h.held_act hr' hs
      kept := fun past t mid id engine hts ht => by
        rcases split_snoc hts with ⟨rfl, rfl, -⟩ | ⟨mid', rfl, hts'⟩
        · exact .inr fun r' hr' hid => .running (handsOut_running h.unique ht hr' hid)
        · exact h.kept_act (h.kept past t mid' id engine hts' ht)
      between := fun past t mid u later id engine other hts ht hu => by
        rcases split_snoc hts with ⟨-, rfl, hts'⟩ | ⟨later', -, hts'⟩
        · exact h.returned hts' ht hu
        · exact h.between past t mid u later' id engine other hts' ht hu }

end Store

/-- **A claim is exclusive.** After committed transactions, and in one that is open, whichever
engines they act for: an instance runs exactly if an engine claimed it, and that is the engine that
it was last handed to; no claim hands an instance out twice; and between two claims that hand it out
there is a recovery of the first claimant, a suspension of the instance, or a restart after its
failure, unless the instance was removed and stored anew. -/
theorem claims_exclusive (clock : Instant) (txs : List (List Store.Request))
    (qs : List Store.Request) :
    (∀ r ∈ ((Database.create clock).underway txs qs).store.records,
      (r.stage = .running ↔ r.claimedBy.isSome) ∧
        ∀ engine, r.claimedBy = some engine →
          Store.LastHandedTo (Store.empty.trail (txs.flatten ++ qs)) r.id engine) ∧
      (∀ t ∈ Store.empty.trail (txs.flatten ++ qs), t.handedIds.Nodup) ∧
      ∀ past t mid u later id engine other,
        Store.empty.trail (txs.flatten ++ qs) = past ++ t :: mid ++ u :: later →
          t.HandsOut id engine → u.HandsOut id other → Returned id engine mid := by
  have h := Store.exclusive_inductive.run (txs.flatten ++ qs)
  obtain ⟨hs, -⟩ := Database.underway_store (d := Database.create clock) rfl txs qs
  rw [hs]
  refine ⟨fun r hr => ⟨?_, fun engine he => ?_⟩, h.once, h.between⟩
  · cases hst : r.status <;> simp [Record.stage, Record.claimedBy, Status.stage, hst]
  · refine h.held r hr engine ?_
    unfold Record.claimedBy at he
    split at he
    · rename_i e hst
      rw [hst, Option.some.inj he]
    · cases he

/-- An instance is claimed by one engine, recovered for it, and claimed by another. -/
def Store.recoveredRun : List (List Store.Request) :=
  let tx (engine : String) (op : Operation) : List Store.Request := [⟨⟨engine, false⟩, .epoch, op⟩]
  [tx "a" (.insert [{ Workflow.create "t" .null with id := some ⟨1⟩ }]), tx "a" (.promote 1),
    tx "a" (.claim Workflow.defaultPool 1), tx "a" .recover, tx "b" (.claim Workflow.defaultPool 1)]

/-- Between its two claims the instance was returned. -/
theorem claims_exclusive_recovered :
    ∃ (t u : Turn) (mid : List Turn), t.HandsOut ⟨1⟩ "a" ∧ u.HandsOut ⟨1⟩ "b" ∧ Returned ⟨1⟩ "a" mid := by
  let w : Workflow := { Workflow.create "t" .null with id := some ⟨1⟩ }
  let s₁ := (Store.empty.act (.insert w)).2
  let s₂ := (s₁.act (.promote .epoch 1)).2
  let s₃ := (s₂.act (.claim "a" Workflow.defaultPool 1)).2
  let s₄ := (s₃.act (.recover "a")).2
  let t : Turn := ⟨s₂, .claim "a" Workflow.defaultPool 1⟩
  let u : Turn := ⟨s₄, .claim "b" Workflow.defaultPool 1⟩
  have ht : t.HandsOut ⟨1⟩ "a" := ⟨Workflow.defaultPool, 1, rfl, by decide +kernel⟩
  have hu : u.HandsOut ⟨1⟩ "b" := ⟨Workflow.defaultPool, 1, rfl, by decide +kernel⟩
  have hts : Store.empty.trail (Store.recoveredRun.flatten ++ []) =
      [⟨.empty, .insert w⟩, ⟨s₁, .promote .epoch 1⟩] ++ t :: [⟨s₃, .recover "a"⟩] ++ [u] := rfl
  exact ⟨t, u, _, ht, hu,
    (claims_exclusive .epoch Store.recoveredRun []).2.2 _ t _ u [] _ _ _ hts ht hu⟩

end Resumption
