import Mathlib.Data.List.Nodup
import Resumption.Proofs.Store.Action
import Resumption.Proofs.Store.Matching

/-!
# What one action can do

Two statements say all that an action can do to a store, and every invariant is derived from them.

* `Store.act_records`: a record of the store after an action is a record from before that met one of
  ten changes (`Store.Change`), or it is the new record of an instance that was just stored.
* `Store.act_unclaimed`: an unclaimed response after an action was there before, or it has just
  been delivered and no record wanted it.

Both rest on the ids of the records being pairwise distinct, which every action keeps
(`Store.act_unique`).
-/

namespace Resumption

namespace Record

@[simp] theorem promote_id (r : Record) : r.promote.id = r.id := by
  unfold promote
  split <;> rfl

theorem earliest_mem {rs : List Record} {t : Record} (h : earliest rs = some t) : t ∈ rs := by
  induction rs with
  | nil => cases h
  | cons r rs ih =>
    rw [earliest] at h
    split at h
    · cases h; exact List.mem_cons_self
    · rename_i b hb
      split at h
      · cases h; exact List.mem_cons_self
      · cases h; exact List.mem_cons_of_mem _ (ih hb)

theorem earliest_none {rs : List Record} (h : earliest rs = none) : rs = [] := by
  cases rs with
  | nil => rfl
  | cons r rs =>
    rw [earliest] at h
    split at h
    · cases h
    · split at h <;> cases h

end Record

namespace Store

/-! ## Looking records up -/

def ids (s : Store) : List Uuid := s.records.map (·.id)

/-- No two records have the same id. -/
def Unique (s : Store) : Prop := s.ids.Nodup

theorem unique_empty : Unique .empty := List.nodup_nil

theorem Unique.eq {s : Store} (h : s.Unique) {r t : Record} (hr : r ∈ s.records)
    (ht : t ∈ s.records) (he : r.id = t.id) : r = t := List.inj_on_of_nodup_map h hr ht he

theorem find?_some {s : Store} {id : Uuid} {r : Record} (h : s.find? id = some r) :
    r ∈ s.records ∧ r.id = id :=
  ⟨List.mem_of_find?_eq_some h, by simpa using List.find?_some h⟩

theorem find?_none {s : Store} {id : Uuid} (h : s.find? id = none) :
    ∀ r ∈ s.records, r.id ≠ id := by
  intro r hr
  simpa using List.find?_eq_none.1 h r hr

theorem Unique.find? {s : Store} (h : s.Unique) {r : Record} (hr : r ∈ s.records) :
    s.find? r.id = some r := by
  cases hf : s.find? r.id with
  | none => exact absurd rfl (find?_none hf r hr)
  | some t =>
    obtain ⟨ht, he⟩ := find?_some hf
    rw [h.eq ht hr he]

theorem update_absent {s : Store} {id : Uuid} (h : s.find? id = none) (f : Record → Record) :
    s.update id f = s := by
  have : s.records.map (fun r => if r.id = id then f r else r) = s.records := by
    conv => rhs; rw [← List.map_id s.records]
    refine List.map_congr_left fun r hr => ?_
    rw [if_neg (find?_none h r hr), id_eq]
  rw [update, this]

theorem modify_store (s : Store) (id : Uuid) (f : Record → Record) :
    (s.modify id f).2 = s.update id f := by
  unfold modify
  split
  · rename_i h; exact (update_absent h f).symm
  · rfl

theorem mem_update {s : Store} {id : Uuid} {f : Record → Record} {r' : Record}
    (h : r' ∈ (s.update id f).records) :
    ∃ r ∈ s.records, (r.id = id ∧ r' = f r) ∨ (r.id ≠ id ∧ r' = r) := by
  obtain ⟨r, hr, rfl⟩ := List.mem_map.1 h
  refine ⟨r, hr, ?_⟩
  by_cases hid : r.id = id
  · exact Or.inl ⟨hid, if_pos hid⟩
  · exact Or.inr ⟨hid, if_neg hid⟩

theorem target?_some {s : Store} {c : String} {t : Record} (h : s.target? c = some t) :
    t ∈ s.records ∧ t.wants c = true := List.mem_filter.1 (Record.earliest_mem h)

theorem target?_none {s : Store} {c : String} (h : s.target? c = none) :
    ∀ r ∈ s.records, r.wants c = false := by
  intro r hr
  have := List.filter_eq_nil_iff.1 (Record.earliest_none h) r hr
  simpa using this

theorem mem_claimList {s : Store} {pool : String} {most : Nat} {r : Record}
    (h : r ∈ s.claimList pool most) : r ∈ s.records ∧ r.claimable pool = true :=
  List.mem_filter.1 (List.mem_mergeSort.1 (List.mem_of_mem_take h))

theorem claimList_ready {s : Store} {pool : String} {most : Nat} {r : Record}
    (h : r ∈ s.claimList pool most) : r.status = .ready := by
  have hc := (mem_claimList h).2
  simp only [Record.claimable, Bool.and_eq_true, beq_iff_eq] at hc
  exact hc.1

theorem mem_promotionList {s : Store} {now : Instant} {most : Nat} {r : Record}
    (h : r ∈ s.promotionList now most) : r ∈ s.records ∧ r.dueAt now = true :=
  List.mem_filter.1 (List.mem_mergeSort.1 (List.mem_of_mem_take h))

/-- With distinct ids, a record whose id is among those of some records is one of them. -/
theorem Unique.mem_of_id {s : Store} (h : s.Unique) {chosen : List Record}
    (hc : ∀ t ∈ chosen, t ∈ s.records) {r : Record} (hr : r ∈ s.records)
    (hi : r.id ∈ chosen.map (·.id)) : r ∈ chosen := by
  obtain ⟨t, ht, he⟩ := List.mem_map.1 hi
  rw [← h.eq (hc t ht) hr he]
  exact ht

/-! ## Storing and suspending -/

/-- The responses that nobody waits for yet. -/
def pending (s : Store) : List Response := s.unclaimed.map (·.response)

theorem insert_one (s : Store) (w : Workflow) :
    (s.insert [w]).2 = s ∨
      ∃ id, w.id = some id ∧ s.find? id = none ∧ (s.insert [w]).2 = s.append id w := by
  simp only [insert]
  split
  · exact Or.inl rfl
  · rename_i id hid
    split
    · exact Or.inl rfl
    · rename_i hf; exact Or.inr ⟨id, hid, hf, rfl⟩

/-- The record that a callback makes of one, and what it leaves unclaimed. -/
def suspended (s : Store) (c : Callback) (payload : Json) (r : Record) : Record × List Unclaimed :=
  collect (r.suspend payload (.ofCallback c (s.drawn + 1))) s.unclaimed c.correlations

theorem suspend_absent {s : Store} {c : Callback} (h : s.find? c.instanceId = none)
    (payload : Json) :
    s.suspend c payload =
      (.error (.instanceNotFound c.instanceId), { s with drawn := s.drawn + 1 }) := by
  have h' : Store.find? { s with drawn := s.drawn + 1 } c.instanceId = none := h
  simp only [suspend, h']

theorem suspend_present {s : Store} {c : Callback} {r : Record}
    (h : s.find? c.instanceId = some r) (payload : Json) :
    s.suspend c payload =
      (.ok (), { s.update c.instanceId fun _ => (s.suspended c payload r).1 with
        drawn := s.drawn + 1, unclaimed := (s.suspended c payload r).2 }) := by
  have h' : Store.find? { s with drawn := s.drawn + 1 } c.instanceId = some r := h
  simp only [suspend, h']
  rfl

/-- A new suspension has as many open waits for an id as the callback names it. -/
theorem openCount_ofCallback (c : Callback) (n : Nat) (d : String) :
    Suspension.openCount (Suspension.ofCallback c n).waits d = c.correlations.count d := by
  rw [Suspension.openCount, Suspension.ofCallback, List.countP_map, List.count]
  refine List.countP_congr fun x _ => ?_
  simp [Wait.opens, Wait.isOpen]

theorem suspend_room (r : Record) (payload : Json) (c : Callback) (n : Nat) :
    Room (r.suspend payload (.ofCallback c n)) c.correlations := by
  intro z hz d
  cases hz
  exact Nat.le_of_eq (openCount_ofCallback c n d).symm

theorem suspended_id (s : Store) (c : Callback) (payload : Json) (r : Record) :
    (s.suspended c payload r).1.id = r.id := by
  obtain ⟨as, h, -⟩ := collect_spec c.correlations _ s.unclaimed
    (suspend_room r payload c (s.drawn + 1))
  exact h.id

/-- A record wants nothing of what its callback leaves unclaimed. -/
theorem suspended_sated (s : Store) (c : Callback) (payload : Json) (r : Record) :
    ∀ u ∈ (s.suspended c payload r).2,
      (s.suspended c payload r).1.wants u.response.correlation = false := by
  refine collect_sated c.correlations _ s.unclaimed (suspend_room r payload c (s.drawn + 1)) ?_
  intro z hz d hd
  cases hz
  rw [openCount_ofCallback] at hd
  exact absurd hd (Nat.lt_irrefl _)

theorem suspended_sublist (s : Store) (c : Callback) (payload : Json) (r : Record) :
    (s.suspended c payload r).2.Sublist s.unclaimed := by
  obtain ⟨as, -, h, -⟩ := collect_spec c.correlations _ s.unclaimed
    (suspend_room r payload c (s.drawn + 1))
  exact h

/-- Where a callback leaves a record: waiting on it, or released by the last answer it found. -/
theorem suspended_outcome (s : Store) (c : Callback) (payload : Json) (r : Record) :
    (∃ z : Suspension, (s.suspended c payload r).1 = r.suspend payload z ∧ z.Sound c) ∨
      ∃ (z : Suspension) (x : Response), z.Sound c ∧
        0 < Suspension.openCount z.waits x.correlation ∧
        (z.answered x).resolvedByAnswer = true ∧
        (s.suspended c payload r).1 = { r with payload }.release false (z.answered x) := by
  obtain ⟨as, h, -⟩ := collect_spec c.correlations _ s.unclaimed
    (suspend_room r payload c (s.drawn + 1))
  exact h.outcome (Q := fun z => z.Sound c) (fun z x hz => hz.answered) rfl
    (Suspension.sound_ofCallback c (s.drawn + 1))

/-! ## The changes of a record -/

/-- What an action can do to a record of a store. -/
inductive Change (s : Store) : Action → Record → Record → Prop where
  | same {a : Action} {r : Record} :
      (∀ c payload, a = .suspend c payload → r.id ≠ c.instanceId) → Change s a r r
  | claim {engine pool : String} {most : Nat} {r : Record} :
      r.claimable pool = true → Change s (.claim engine pool most) r (r.claim engine)
  | deliver {x : Response} {r : Record} :
      r.wants x.correlation = true → Change s (.deliver x) r (r.answer x)
  | suspend {c : Callback} {payload : Json} {r : Record} :
      r.id = c.instanceId → Change s (.suspend c payload) r (s.suspended c payload r).1
  | finish {id : Uuid} {r : Record} : r.id = id → Change s (.finish false id) r r.finish
  | fail {id : Uuid} {cause : String} {r : Record} :
      r.id = id → Change s (.fail id cause) r (r.fail cause)
  | restart {id : Uuid} {r : Record} :
      r.id = id → r.status = .failed → Change s (.restart id) r r.restart
  | restartAll {r : Record} : r.status = .failed → Change s .restartAll r r.restart
  | promote {now : Instant} {most : Nat} {r : Record} :
      r.dueAt now = true → Change s (.promote now most) r r.promote
  | recover {engine : String} {r : Record} :
      r.status = .running engine → Change s (.recover engine) r { r with status := .ready }

theorem Change.id {s : Store} {a : Action} {r r' : Record} (h : s.Change a r r') :
    r'.id = r.id := by
  cases h with
  | deliver _ => exact Record.answer_id r _
  | suspend _ => exact suspended_id s _ _ r
  | promote _ => exact Record.promote_id r
  | _ => rfl

theorem Change.pool {s : Store} {a : Action} {r r' : Record} (h : s.Change a r r') :
    r'.pool = r.pool := by
  cases h with
  | deliver _ =>
    unfold Record.answer
    split
    · dsimp only
      split <;> rfl
    · rfl
  | @suspend c payload r _ =>
    rcases s.suspended_outcome c payload r with ⟨z, he, -⟩ | ⟨z, x, -, -, -, he⟩ <;> rw [he] <;> rfl
  | promote _ =>
    unfold Record.promote
    split <;> rfl
  | _ => rfl

/-- A change keeps a suspension sound on its callback, or makes one that is sound on a new
callback. -/
theorem Change.sound {s : Store} {a : Action} {r r' : Record} (h : s.Change a r r')
    {z' : Suspension} (hz' : r'.status = .waiting z') :
    (∃ z, r.status = .waiting z ∧ ∀ c, z.Sound c → z'.Sound c) ∨
      ∃ c payload, a = .suspend c payload ∧ r.id = c.instanceId ∧ z'.Sound c := by
  cases h with
  | same _ => exact Or.inl ⟨z', hz', fun _ h => h⟩
  | deliver hw =>
    obtain ⟨z, hz, ho⟩ := Record.wants_iff.1 hw
    obtain ⟨rfl, hres⟩ := Record.waiting_answer hz hz'
    exact Or.inl ⟨z, hz, fun c h => h.answered ho hres⟩
  | @suspend c payload r hid =>
    rcases s.suspended_outcome c payload r with ⟨z, he, hs⟩ | ⟨z, x, -, -, -, he⟩
    · rw [he] at hz'
      cases hz'
      exact Or.inr ⟨c, payload, rfl, hid, hs⟩
    · rw [he] at hz'
      cases hz'
  | promote _ =>
    unfold Record.promote at hz'
    split at hz' <;> cases hz'
  | _ => cases hz'

/-- An action that is no suspension may leave a record as it is. -/
theorem Change.refl (s : Store) {a : Action} (r : Record)
    (h : ∀ c payload, a ≠ .suspend c payload) : s.Change a r r :=
  .same fun c payload e => absurd e (h c payload)

/-- The records after an action: changed ones, and that of an instance just stored. -/
theorem act_records {s : Store} (hu : s.Unique) (a : Action) {r' : Record}
    (h : r' ∈ (s.act a).2.records) :
    (∃ r ∈ s.records, s.Change a r r') ∨
      ∃ w id, a = .insert w ∧ w.id = some id ∧ s.find? id = none ∧
        r' = .ofWorkflow id (s.drawn + 1) w := by
  cases a with
  | insert w =>
    rcases insert_one s w with hi | ⟨id, hid, hf, hi⟩
    · rw [act, plainly, hi] at h
      exact Or.inl ⟨r', h, .refl s r' (by simp)⟩
    · rw [act, plainly, hi, append] at h
      rcases List.mem_append.1 h with h | h
      · exact Or.inl ⟨r', h, .refl s r' (by simp)⟩
      · exact Or.inr ⟨w, id, rfl, hid, hf, List.mem_singleton.1 h⟩
  | claim engine pool most =>
    obtain ⟨r, hr, rfl⟩ := List.mem_map.1 h
    left
    refine ⟨r, hr, ?_⟩
    split
    · rename_i hi
      have := hu.mem_of_id (fun t ht => (mem_claimList ht).1) hr hi
      exact .claim (mem_claimList this).2
    · exact .refl s r (by simp)
  | deliver x =>
    left
    simp only [act, Store.deliver] at h
    split at h
    · rename_i t ht
      obtain ⟨hmem, hw⟩ := target?_some ht
      obtain ⟨r, hr, ⟨hid, rfl⟩ | ⟨-, rfl⟩⟩ := mem_update h
      · rw [← hu.eq hr hmem hid] at hw
        exact ⟨r, hr, .deliver hw⟩
      · exact ⟨r', hr, .refl s r' (by simp)⟩
    · exact ⟨r', h, .refl s r' (by simp)⟩
  | suspend c payload =>
    left
    cases hf : s.find? c.instanceId with
    | none =>
      rw [act, plainly, suspend_absent hf] at h
      refine ⟨r', h, .same ?_⟩
      intro c' payload' he
      cases he
      exact find?_none hf r' h
    | some t =>
      rw [act, plainly, suspend_present hf] at h
      obtain ⟨ht, hid⟩ := find?_some hf
      obtain ⟨r, hr, ⟨hrid, rfl⟩ | ⟨hrid, rfl⟩⟩ := mem_update h
      · rw [← hu.eq hr ht (hrid.trans hid.symm)]
        exact ⟨r, hr, .suspend hrid⟩
      · exact ⟨r', hr, .same fun c' payload' he => by cases he; exact hrid⟩
  | finish remove id =>
    left
    simp only [act, plainly, Store.finish] at h
    cases remove with
    | true =>
      simp only [if_true] at h
      split at h
      · exact ⟨r', h, .refl s r' (by simp)⟩
      · exact ⟨r', (List.mem_filter.1 h).1, .refl s r' (by simp)⟩
    | false =>
      simp only [Bool.false_eq_true, if_false, modify_store] at h
      obtain ⟨r, hr, ⟨hid, rfl⟩ | ⟨-, rfl⟩⟩ := mem_update h
      · exact ⟨r, hr, .finish hid⟩
      · exact ⟨r', hr, .refl s r' (by simp)⟩
  | fail id cause =>
    left
    simp only [act, plainly, Store.fail, modify_store] at h
    obtain ⟨r, hr, ⟨hid, rfl⟩ | ⟨-, rfl⟩⟩ := mem_update h
    · exact ⟨r, hr, .fail hid⟩
    · exact ⟨r', hr, .refl s r' (by simp)⟩
  | restart id =>
    left
    simp only [act, plainly, Store.restart] at h
    split at h
    · exact ⟨r', h, .refl s r' (by simp)⟩
    · rename_i t ht
      obtain ⟨hmem, hid⟩ := find?_some ht
      split at h
      · rename_i hst
        obtain ⟨r, hr, ⟨hrid, rfl⟩ | ⟨-, rfl⟩⟩ := mem_update h
        · rw [← hu.eq hr hmem (hrid.trans hid.symm)] at hst
          exact ⟨r, hr, .restart hrid hst⟩
        · exact ⟨r', hr, .refl s r' (by simp)⟩
      · exact ⟨r', h, .refl s r' (by simp)⟩
  | restartAll =>
    obtain ⟨r, hr, rfl⟩ := List.mem_map.1 h
    left
    refine ⟨r, hr, ?_⟩
    split
    · rename_i hst; exact .restartAll (by simpa using hst)
    · exact .refl s r (by simp)
  | sweep now most => exact Or.inl ⟨r', h, .refl s r' (by simp)⟩
  | promote now most =>
    obtain ⟨r, hr, rfl⟩ := List.mem_map.1 h
    left
    refine ⟨r, hr, ?_⟩
    split
    · rename_i hi
      have := hu.mem_of_id (fun t ht => (mem_promotionList ht).1) hr hi
      exact .promote (mem_promotionList this).2
    · exact .refl s r (by simp)
  | recover engine =>
    obtain ⟨r, hr, rfl⟩ := List.mem_map.1 h
    left
    refine ⟨r, hr, ?_⟩
    split
    · rename_i hst; exact .recover (by simpa using hst)
    · exact .refl s r (by simp)
  | load id => exact Or.inl ⟨r', h, .refl s r' (by simp)⟩

/-! ## Ids -/

theorem Unique.map {s : Store} (hu : s.Unique) {f : Record → Record}
    (h : ∀ r ∈ s.records, (f r).id = r.id) (us : List Unclaimed) (n : Nat) :
    Unique ⟨s.records.map f, us, n⟩ := by
  have he : ids ⟨s.records.map f, us, n⟩ = s.ids := by
    simp only [ids, List.map_map]
    exact List.map_congr_left h
  rw [Unique, he]
  exact hu

theorem Unique.update {s : Store} (hu : s.Unique) {id : Uuid} {f : Record → Record}
    (h : ∀ r ∈ s.records, r.id = id → (f r).id = id) : (s.update id f).Unique := by
  refine hu.map (fun r hr => ?_) _ _
  split
  · rename_i he; rw [h r hr he, he]
  · rfl

theorem append_ids (s : Store) (id : Uuid) (w : Workflow) : (s.append id w).ids = s.ids ++ [id] := by
  simp only [ids, append, Record.ofWorkflow, List.map_append, List.map_cons, List.map_nil]

theorem Unique.append {s : Store} (hu : s.Unique) {id : Uuid} (h : s.find? id = none)
    (w : Workflow) : (s.append id w).Unique := by
  rw [Unique, append_ids]
  refine List.nodup_append.2 ⟨hu, by simp, ?_⟩
  intro x hx y hy
  obtain ⟨r, hr, rfl⟩ := List.mem_map.1 hx
  rw [List.mem_singleton.1 hy]
  exact find?_none h r hr

theorem act_unique (s : Store) (a : Action) (hu : s.Unique) : (s.act a).2.Unique := by
  cases a with
  | insert w =>
    rcases insert_one s w with hi | ⟨id, -, hf, hi⟩
    · rw [act, plainly, hi]; exact hu
    · rw [act, plainly, hi]; exact hu.append hf w
  | claim engine pool most => exact hu.map (fun r _ => by split <;> rfl) _ _
  | deliver x =>
    simp only [act, Store.deliver]
    split
    · exact hu.update fun r _ he => by simpa using he
    · exact hu
  | suspend c payload =>
    cases hf : s.find? c.instanceId with
    | none => rw [act, plainly, suspend_absent hf]; exact hu
    | some t =>
      obtain ⟨-, hid⟩ := find?_some hf
      rw [act, plainly, suspend_present hf]
      exact hu.update fun r _ _ => by rw [suspended_id, hid]
  | finish remove id =>
    simp only [act, plainly, Store.finish]
    split
    · split
      · exact hu
      · exact (List.Sublist.map _ List.filter_sublist).nodup hu
    · rw [modify_store]; exact hu.update fun r _ he => he
  | fail id cause =>
    simp only [act, plainly, Store.fail, modify_store]
    exact hu.update fun r _ he => he
  | restart id =>
    simp only [act, plainly, Store.restart]
    split
    · exact hu
    · split
      · exact hu.update fun r _ he => he
      · exact hu
  | restartAll => exact hu.map (fun r _ => by split <;> rfl) _ _
  | sweep now most => exact hu
  | promote now most => exact hu.map (fun r _ => by split <;> simp) _ _
  | recover engine => exact hu.map (fun r _ => by split <;> rfl) _ _
  | load id => exact hu

theorem Reachable.unique {s : Store} (h : s.Reachable) : s.Unique :=
  h.holds unique_empty act_unique

/-! ## Unclaimed responses -/

theorem dropExpired_sublist (now : Instant) (us : List Unclaimed) :
    ∀ most, (dropExpired now most us).2.Sublist us := by
  induction us with
  | nil => intro most; simp [dropExpired]
  | cons u us ih =>
    intro most
    cases most with
    | zero => exact List.Sublist.refl _
    | succ most =>
      rw [dropExpired]
      split
      · exact (ih most).cons u
      · exact (ih (most + 1)).cons_cons u

/-- The unclaimed responses after an action: earlier ones, and one just delivered that no record
wanted. -/
theorem act_unclaimed (s : Store) (a : Action) {u : Unclaimed} (h : u ∈ (s.act a).2.unclaimed) :
    u ∈ s.unclaimed ∨
      ∃ x, a = .deliver x ∧ u.response = x ∧ ∀ r ∈ s.records, r.wants x.correlation = false := by
  cases a with
  | insert w =>
    rcases insert_one s w with hi | ⟨id, -, -, hi⟩ <;> rw [act, plainly, hi] at h <;> exact Or.inl h
  | deliver x =>
    simp only [act, Store.deliver] at h
    split at h
    · exact Or.inl h
    · rename_i ht
      rcases List.mem_append.1 h with h | h
      · exact Or.inl h
      · rw [List.mem_singleton.1 h]
        exact Or.inr ⟨x, rfl, rfl, target?_none ht⟩
  | suspend c payload =>
    left
    cases hf : s.find? c.instanceId with
    | none => rw [act, plainly, suspend_absent hf] at h; exact h
    | some t =>
      rw [act, plainly, suspend_present hf] at h
      exact (suspended_sublist s c payload t).subset h
  | finish remove id =>
    simp only [act, plainly, Store.finish] at h
    split at h
    · split at h <;> exact Or.inl h
    · rw [modify_store] at h; exact Or.inl h
  | fail id cause =>
    simp only [act, plainly, Store.fail, modify_store] at h
    exact Or.inl h
  | restart id =>
    simp only [act, plainly, Store.restart] at h
    split at h
    · exact Or.inl h
    · split at h <;> exact Or.inl h
  | sweep now most => exact Or.inl ((dropExpired_sublist now s.unclaimed most).subset h)
  | _ => exact Or.inl h

end Store

end Resumption
