import Resumption.Proofs.Store.Action
import Resumption.Proofs.Store.Insertion
import Resumption.Proofs.Store.Numbering

/-!
# Which batches are stored

A batch is stored exactly when every instance has an id, no two have the same and none is stored
(`Store.Accepts`). What is in the way of an instance is a matter of its position (`Store.Obstacle`): it
may have no id, one that is stored, or one that an earlier instance of the batch has. An insertion
fails with the first obstacle, after it has stored what comes before (`Store.insert_cases`).

What an accepted batch adds is said field by field (`Store.Gains`): of what was submitted only the id,
the type, the pool, the priority and the payload are kept.
-/

namespace Resumption.Store

/-- Every instance of a batch has an id, no two have the same, and none is stored. -/
structure Accepts (s : Store) (ws : List Workflow) : Prop where
  named : ∀ w ∈ ws, w.id.isSome = true
  distinct : (ws.map (·.id)).Nodup
  fresh : ∀ w ∈ ws, ∀ id, w.id = some id → id ∉ s.ids

/-- What is in the way of the instance at position `k` of a batch, as the error that says so. -/
inductive Obstacle (s : Store) (ws : List Workflow) (k : Nat) : StoreError → Prop where
  | nameless {w : Workflow} : ws[k]? = some w → w.id = none →
      Obstacle s ws k (.invalidArgument "instance has no id")
  | stored {w : Workflow} {id : Uuid} : ws[k]? = some w → w.id = some id → id ∈ s.ids →
      Obstacle s ws k (.invalidArgument ("duplicate instance id " ++ id.text))
  | repeated {w v : Workflow} {id : Uuid} {j : Nat} : ws[k]? = some w → w.id = some id → j < k →
      ws[j]? = some v → v.id = some id →
      Obstacle s ws k (.invalidArgument ("duplicate instance id " ++ id.text))

/-- The first position of a batch where something is in the way, and what. -/
structure FirstObstacle (s : Store) (ws : List Workflow) (k : Nat) (e : StoreError) : Prop where
  here : s.Obstacle ws k e
  first : ∀ j < k, ∀ e', ¬ s.Obstacle ws j e'

/-- What a store is with a batch at its end. -/
structure Gains (s : Store) (ws : List Workflow) (s' : Store) : Prop where
  records : ∃ new : List Record, s'.records = s.records ++ new ∧ new.length = ws.length ∧
    ∀ (i : Nat) (w : Workflow), ws[i]? = some w → ∃ id, w.id = some id ∧ new[i]? = some
      { id, number := s.drawn + 1 + i, type := w.type, pool := w.effectivePool
        priority := w.priority, payload := w.payload, status := .enqueued, lastError := none
        delivered := [], waitExpired := false }
  unclaimed : s'.unclaimed = s.unclaimed
  drawn : s'.drawn = s.drawn + ws.length

variable {s : Store} {ws : List Workflow} {w : Workflow} {id : Uuid} {k : Nat} {e : StoreError}

/-! ## Obstacles -/

theorem Obstacle.unique {e' : StoreError} (h : s.Obstacle ws k e) (h' : s.Obstacle ws k e') :
    e = e' := by
  cases h <;> cases h' <;> simp_all

/-- Behind an instance that has been stored, the obstacles are those of the rest of the batch. -/
theorem obstacle_cons (hid : w.id = some id) :
    s.Obstacle (w :: ws) (k + 1) e ↔ (s.append id w).Obstacle ws k e := by
  have hids : ∀ i, i ∈ (s.append id w).ids ↔ i ∈ s.ids ∨ i = id := by
    intro i
    rw [append_ids, List.mem_append, List.mem_singleton]
  constructor
  · intro h
    cases h with
    | nameless hw hn => exact .nameless hw hn
    | stored hw hi hs => exact .stored hw hi ((hids _).2 (.inl hs))
    | @repeated v _ i j hw hi hj hv he =>
      cases j with
      | zero =>
        cases hv
        exact .stored hw hi ((hids _).2 (.inr (Option.some.inj (he.symm.trans hid))))
      | succ j => exact .repeated hw hi (Nat.lt_of_succ_lt_succ hj) hv he
  · intro h
    cases h with
    | nameless hw hn => exact .nameless hw hn
    | stored hw hi hs =>
      rcases (hids _).1 hs with hs | rfl
      · exact .stored hw hi hs
      · exact .repeated hw hi (Nat.succ_pos k) rfl hid
    | repeated hw hi hj hv he => exact .repeated hw hi (Nat.succ_lt_succ hj) hv he

theorem FirstObstacle.cons (h : (s.append id w).FirstObstacle ws k e) (hid : w.id = some id)
    (hn : ∀ e, ¬ s.Obstacle (w :: ws) 0 e) : s.FirstObstacle (w :: ws) (k + 1) e := by
  refine ⟨(obstacle_cons hid).2 h.here, fun j hj e' ho => ?_⟩
  cases j with
  | zero => exact hn e' ho
  | succ j => exact h.first j (Nat.lt_of_succ_lt_succ hj) e' ((obstacle_cons hid).1 ho)

theorem FirstObstacle.unique {j : Nat} {e' : StoreError} (h : s.FirstObstacle ws k e)
    (h' : s.FirstObstacle ws j e') : k = j ∧ e = e' := by
  obtain rfl : k = j := by
    rcases Nat.lt_trichotomy k j with hlt | heq | hlt
    · exact absurd h.here (h'.first k hlt e)
    · exact heq
    · exact absurd h'.here (h.first j hlt e')
  exact ⟨rfl, h.here.unique h'.here⟩

/-- A batch is accepted exactly when nothing is in the way anywhere. -/
theorem accepts_iff : s.Accepts ws ↔ ∀ k e, ¬ s.Obstacle ws k e := by
  constructor
  · intro h k e ho
    cases ho with
    | nameless hw hn =>
      have := h.named _ (List.mem_of_getElem? hw)
      rw [hn] at this
      cases this
    | stored hw hi hs => exact h.fresh _ (List.mem_of_getElem? hw) _ hi hs
    | @repeated w v id j hw hi hj hv he =>
      have hjk : (ws.map (·.id))[j]? = (ws.map (·.id))[k]? := by
        simp only [List.getElem?_map, hw, hv, Option.map_some, hi, he]
      have hlt : j < (ws.map (·.id)).length := by
        rw [List.length_map]
        exact (List.getElem?_eq_some_iff.1 hv).1
      exact Nat.ne_of_lt hj ((List.getElem?_inj hlt h.distinct).1 hjk)
  · intro h
    have named : ∀ w ∈ ws, w.id.isSome = true := by
      intro w hw
      obtain ⟨k, hk⟩ := List.mem_iff_getElem?.1 hw
      by_contra hn
      exact h k _ (.nameless hk (by simpa using hn))
    refine ⟨named, ?_, fun w hw id hi hs => ?_⟩
    · rw [List.nodup_iff_getElem?_ne_getElem?]
      intro j k hjk hk he
      rw [List.length_map] at hk
      have hv : ws[j]? = some ws[j] := List.getElem?_eq_getElem (Nat.lt_trans hjk hk)
      have hw : ws[k]? = some ws[k] := List.getElem?_eq_getElem hk
      obtain ⟨id, hi⟩ := Option.isSome_iff_exists.1 (named _ (List.getElem_mem hk))
      simp only [List.getElem?_map, hv, hw, Option.map_some, hi, Option.some.injEq] at he
      exact h k _ (.repeated hw hi hjk hv he)
    · obtain ⟨k, hk⟩ := List.mem_iff_getElem?.1 hw
      exact h k _ (.stored hk hi hs)

/-! ## Gains -/

theorem gains_nil : s.Gains [] s :=
  ⟨⟨[], (List.append_nil _).symm, rfl, fun _ _ h => nomatch h⟩, rfl, rfl⟩

theorem Gains.cons {s' : Store} (h : (s.append id w).Gains ws s') (hid : w.id = some id) :
    s.Gains (w :: ws) s' := by
  obtain ⟨new, hr, hl, hnew⟩ := h.records
  refine ⟨⟨.ofWorkflow id (s.drawn + 1) w :: new, ?_, congrArg Nat.succ hl, ?_⟩, h.unclaimed, ?_⟩
  · rw [hr, append, List.append_assoc]
    rfl
  · intro i v hv
    cases i with
    | zero =>
      cases hv
      exact ⟨id, hid, rfl⟩
    | succ i =>
      obtain ⟨j, hj, hi⟩ := hnew i v hv
      refine ⟨j, hj, ?_⟩
      rw [List.getElem?_cons_succ, hi, append, Nat.add_assoc (s.drawn + 1), Nat.add_comm 1 i]
  · rw [h.drawn, List.length_cons, Nat.add_comm ws.length 1, ← Nat.add_assoc]
    rfl

theorem Gains.number_gt {s' : Store} (h : s.Gains ws s') {r : Record} (hr : r ∈ s'.records)
    (hnew : r.id ∉ s.ids) : s.drawn < r.number := by
  obtain ⟨new, hs, hl, hnew'⟩ := h.records
  rw [hs] at hr
  rcases List.mem_append.1 hr with hr | hr
  · exact absurd (List.mem_map_of_mem hr) hnew
  · obtain ⟨i, hi⟩ := List.mem_iff_getElem?.1 hr
    have hlt : i < ws.length := hl ▸ (List.getElem?_eq_some_iff.1 hi).1
    obtain ⟨id, -, hn⟩ := hnew' i ws[i] (List.getElem?_eq_getElem hlt)
    obtain rfl := Option.some.inj (hi.symm.trans hn)
    show s.drawn < s.drawn + 1 + i
    omega

/-! ## Insertion -/

/-- **An insertion** stores the whole batch when nothing is in the way; else it fails with the first
obstacle, and what comes before is stored. -/
theorem insert_cases (s : Store) (ws : List Workflow) :
    (∃ s', s.insert ws = (.ok (), s') ∧ s.Gains ws s' ∧ ∀ k e, ¬ s.Obstacle ws k e) ∨
      ∃ s' k e, s.insert ws = (.error e, s') ∧ s.Gains (ws.take k) s' ∧ s.FirstObstacle ws k e := by
  induction ws generalizing s with
  | nil => exact .inl ⟨s, rfl, gains_nil, fun k e h => by cases h <;> contradiction⟩
  | cons w ws ih =>
    cases hid : w.id with
    | none =>
      refine .inr ⟨s, 0, _, ?_, gains_nil, .nameless rfl hid, fun j hj => nomatch hj⟩
      rw [insert]
      simp only [hid]
    | some id =>
      by_cases hs : id ∈ s.ids
      · refine .inr ⟨s, 0, _, ?_, gains_nil, .stored rfl hid hs, fun j hj => nomatch hj⟩
        cases hf : s.find? id with
        | none => exact absurd hs (find?_none_iff.1 hf)
        | some r =>
          rw [insert]
          simp only [hid, hf]
      · have hi : s.insert (w :: ws) = (s.append id w).insert ws := by
          rw [insert]
          simp only [hid, find?_none_iff.2 hs]
        have hn : ∀ e, ¬ s.Obstacle (w :: ws) 0 e := by
          intro e ho
          cases ho with
          | nameless hw hn =>
            cases hw
            rw [hid] at hn
            cases hn
          | stored hw hj hm =>
            cases hw
            exact hs (Option.some.inj (hj.symm.trans hid) ▸ hm)
          | repeated _ _ hj => exact nomatch hj
        rw [hi]
        rcases ih (s.append id w) with ⟨s', ha, hg, hc⟩ | ⟨s', k, e, ha, hg, hf⟩
        · refine .inl ⟨s', ha, hg.cons hid, fun k e ho => ?_⟩
          cases k with
          | zero => exact hn e ho
          | succ k => exact hc k e ((obstacle_cons hid).1 ho)
        · exact .inr ⟨s', k + 1, e, ha, hg.cons hid, hf.cons hid hn⟩

/-- An insertion goes well exactly when the batch is accepted. -/
theorem insert_ok_iff : (s.insert ws).1 = .ok () ↔ s.Accepts ws := by
  rw [accepts_iff]
  rcases s.insert_cases ws with ⟨s', hi, -, hc⟩ | ⟨s', k, e, hi, -, hf⟩
  · rw [hi]
    exact ⟨fun _ => hc, fun _ => rfl⟩
  · rw [hi]
    exact ⟨fun h => (nomatch h), fun h => absurd hf.here (h k e)⟩

theorem insert_gains (h : s.Accepts ws) : s.Gains ws (s.insert ws).2 := by
  rcases s.insert_cases ws with ⟨s', hi, hg, -⟩ | ⟨s', k, e, -, -, hf⟩
  · rw [hi]
    exact hg
  · exact absurd hf.here (accepts_iff.1 h k e)

theorem insert_error_iff : (s.insert ws).1 = .error e ↔ ∃ k, s.FirstObstacle ws k e := by
  rcases s.insert_cases ws with ⟨s', hi, -, hc⟩ | ⟨s', k, e', hi, -, hf⟩
  · rw [hi]
    exact ⟨fun h => (nomatch h), fun ⟨k, hk⟩ => absurd hk.here (hc k e)⟩
  · rw [hi]
    constructor
    · intro h
      cases h
      exact ⟨k, hf⟩
    · rintro ⟨j, hj⟩
      rw [(hf.unique hj).2]

/-- The third instance has the id of the first. -/
example :
    let w (n : Nat) : Workflow := { Workflow.create "t" .null with id := some ⟨n⟩ }
    (empty.insert [w 1, w 2, w 1]).1 = .error (.invalidArgument
      "duplicate instance id 00000000-0000-0000-0000-000000000001") := by
  decide +kernel

/-- A stored batch is loaded as it was submitted, but for all that running it would have set. -/
theorem Gains.load {s' : Store} (h : s.Gains ws s') (hu : s'.Unique) (hw : w ∈ ws)
    (hid : w.id = some id) :
    s'.load id = some
      { w with pool := some w.effectivePool, stage := .enqueued, callback := none, responses := []
               waitExpired := false } := by
  obtain ⟨new, hr, hl, hnew⟩ := h.records
  obtain ⟨k, hk⟩ := List.mem_iff_getElem?.1 hw
  obtain ⟨i, hi, hn⟩ := hnew k w hk
  obtain rfl : i = id := Option.some.inj (hi.symm.trans hid)
  have hm := hu.find? (hr ▸ List.mem_append_right s.records (List.mem_of_getElem? hn))
  rw [Store.load, hm, Option.map_some, Record.toWorkflow, ← hid]
  rfl

/-! ## Numbers of earlier stores -/

/-- No number that was ever drawn in a run is above the count. -/
structure Counted (ts : List Turn) (s : Store) : Prop where
  numbered : s.Numbered
  past : ∀ t ∈ ts, ∀ r ∈ t.after.records, ∀ n ∈ r.draws, n ≤ s.drawn

theorem counted_inductive : Inductive Counted where
  start := ⟨numbered_empty, fun _ h => nomatch h⟩
  step ts s a h := by
    have hn := act_numbered s a h.numbered
    refine ⟨hn, fun t ht r hr n hd => ?_⟩
    rcases List.mem_append.1 ht with ht | ht
    · exact Nat.le_trans (h.past t ht r hr n hd) (act_drawn s a)
    · rw [List.mem_singleton.1 ht] at hr
      exact (hn.drawn r hr n hd).2

end Resumption.Store
