import Resumption.Proofs.Store.Layout

/-!
# The representation invariant

`Layout.Sound` is the invariant of a store in memory: every slot is sound under its id, and what the
layout is read as has its numbers apart. Each action keeps it, field by field, and is read as the
action of `Store` with the same answer (`Layout.act_agrees`).

Two layouts are the `Same` if they differ in the order of their entries only, as two iterations over
a hash map do. Actions on sound layouts cannot tell them apart (`Layout.act_same`): what a response
goes to, what a claim takes and what a promotion makes ready is decided by numbers, and these belong
to one instance each.

**`Layout.representation`** says all this of the layouts that come about from the empty one, with
the entries in any order before each action; they are read as the reachable stores.
-/

namespace Resumption

namespace Layout

def store (L : Layout) : Store := ⟨L.slots.map fun e => e.2.record e.1, L.unclaimed, L.drawn⟩

def keys (L : Layout) : List Uuid := L.slots.map (·.1)

/-- Every slot is sound under its id, and no two instances or waits have the same number. -/
structure Sound (L : Layout) : Prop where
  each : ∀ e ∈ L.slots, e.2.Sound e.1
  numbered : L.store.Numbered

variable {L : Layout}

/-! ## Entries -/

theorem Sound.keys (h : L.Sound) : L.keys.Nodup := by
  have hu := h.numbered.ids
  rwa [Store.Unique, Store.ids, store, List.map_map] at hu

theorem mem_of_get? {id : Uuid} {i : Slot} (h : L.get? id = some i) : (id, i) ∈ L.slots := by
  obtain ⟨e, he, rfl⟩ := Option.map_eq_some_iff.1 h
  have hid : e.1 = id := by simpa using List.find?_some he
  rw [← hid]
  exact List.mem_of_find?_eq_some he

theorem absent_of_get? {id : Uuid} (h : L.get? id = none) : ∀ e ∈ L.slots, e.1 ≠ id := by
  intro e he
  simpa using List.find?_eq_none.1 (Option.map_eq_none_iff.1 h) e he

/-- With distinct keys, an entry is the one that its key finds. -/
theorem get?_of_mem (hk : L.keys.Nodup) {id : Uuid} {i : Slot} (h : (id, i) ∈ L.slots) :
    L.get? id = some i := by
  cases hg : L.get? id with
  | none => exact absurd rfl (absent_of_get? hg _ h)
  | some j =>
    have := List.inj_on_of_nodup_map hk (mem_of_get? hg) h rfl
    rw [(Prod.mk.inj this).2]

theorem find?_store (L : Layout) (id : Uuid) :
    L.store.find? id = (L.get? id).map (Slot.record id) := by
  rw [Store.find?, store, List.find?_map, get?]
  have hp : ((fun r => r.id == id) ∘ fun e : Uuid × Slot => e.2.record e.1) = fun e => e.1 == id :=
    rfl
  rw [hp, Option.map_map]
  cases hf : L.slots.find? fun e => e.1 == id with
  | none => rfl
  | some e =>
    have hid : e.1 = id := by simpa using List.find?_some hf
    simp [hid]

theorem set_keys (L : Layout) (id : Uuid) (f : Slot → Slot) : (L.set id f).keys = L.keys := by
  simp only [keys, set, List.map_map]
  refine List.map_congr_left fun e _ => ?_
  simp only [Function.comp_apply]
  split <;> rfl

/-! ## Writes -/

/-- A call on a layout agrees with one on a store: it answers the same, is read as the same, and
leaves sound slots. -/
structure Agrees {α : Type} (p : Except StoreError α × Layout) (q : Except StoreError α × Store) :
    Prop where
  answer : p.1 = q.1
  store : p.2.store = q.2
  each : ∀ e ∈ p.2.slots, e.2.Sound e.1

theorem Agrees.plainly {p : Except StoreError Unit × Layout} {q : Except StoreError Unit × Store}
    (h : Agrees p q) : Agrees (plainly p) (Store.plainly q) :=
  ⟨congrArg (Except.map _) h.answer, h.store, h.each⟩

/-- Writes to the slots that satisfy `p` are read as those to the records that satisfy `q`. -/
theorem map_store (L : Layout) {p : Uuid × Slot → Prop} {q : Record → Prop} [DecidablePred p]
    [DecidablePred q] {f : Slot → Slot} {g : Record → Record}
    (hp : ∀ e ∈ L.slots, p e ↔ q (e.2.record e.1))
    (hf : ∀ e ∈ L.slots, p e → (f e.2).record e.1 = g (e.2.record e.1)) :
    (L.slots.map fun e => if p e then (e.1, f e.2) else e).map (fun e => e.2.record e.1) =
      L.store.records.map fun r => if q r then g r else r := by
  simp only [store, List.map_map]
  refine List.map_congr_left fun e he => ?_
  simp only [Function.comp_apply]
  by_cases h : p e
  · rw [if_pos h, if_pos ((hp e he).1 h)]
    exact hf e he h
  · rw [if_neg h, if_neg fun hq => h ((hp e he).2 hq)]

theorem map_each {p : Uuid × Slot → Prop} [DecidablePred p] {f : Slot → Slot}
    (h : ∀ e ∈ L.slots, e.2.Sound e.1) (hf : ∀ e ∈ L.slots, p e → (f e.2).Sound e.1) :
    ∀ e ∈ L.slots.map (fun e => if p e then (e.1, f e.2) else e), e.2.Sound e.1 := by
  intro e' he'
  obtain ⟨e, he, rfl⟩ := List.mem_map.1 he'
  split
  · exact hf e he ‹_›
  · exact h e he

theorem set_store {id : Uuid} {f : Slot → Slot} {g : Record → Record}
    (hf : ∀ i, (id, i) ∈ L.slots → (f i).record id = g (i.record id)) :
    (L.set id f).store = L.store.update id g := by
  have hm := map_store L (p := fun e => e.1 = id) (q := fun r => r.id = id) (fun _ _ => Iff.rfl)
    (f := f) (g := g) fun e he hid => by subst hid; exact hf e.2 he
  rw [Store.update, ← hm]
  rfl

theorem set_each (h : L.Sound) {id : Uuid} {f : Slot → Slot}
    (hf : ∀ i, (id, i) ∈ L.slots → (f i).Sound id) :
    ∀ e ∈ (L.set id f).slots, e.2.Sound e.1 :=
  map_each h.each fun e he hid => by subst hid; exact hf e.2 he

theorem modify_agrees (h : L.Sound) {id : Uuid} {f : Slot → Slot} {g : Record → Record}
    (hr : ∀ i, (id, i) ∈ L.slots → (f i).record id = g (i.record id))
    (hs : ∀ i, (id, i) ∈ L.slots → (f i).Sound id) :
    Agrees (L.modify id f) (L.store.modify id g) := by
  rw [modify, Store.modify, find?_store]
  cases L.get? id with
  | none => exact ⟨rfl, rfl, h.each⟩
  | some i => exact ⟨rfl, set_store hr, set_each h hs⟩

/-- Writing the slots of some entries one after the other finds each of them as it is, and comes to
writing them all at once. -/
theorem modifyEach_entries {f : Slot → Slot} (es : List (Uuid × Slot)) :
    ∀ {L : Layout}, L.keys.Nodup → (∀ e ∈ es, e ∈ L.slots) → (es.map (·.1)).Nodup →
      modifyEach f (es.map (·.1)) L = (.ok (es.map (·.2)), { L with
        slots := L.slots.map fun e => if e.1 ∈ es.map (·.1) then (e.1, f e.2) else e }) := by
  induction es with
  | nil => intro L _ _ _; simp [modifyEach]
  | cons e es ih =>
    intro L hk hes hn
    obtain ⟨hne, hn⟩ := List.nodup_cons.1 hn
    -- The other entries are still there after the first is written.
    have hes' : ∀ x ∈ es, x ∈ (L.set e.1 f).slots := by
      intro x hx
      refine List.mem_map.2 ⟨x, hes x (List.mem_cons_of_mem _ hx), if_neg fun he => hne ?_⟩
      exact List.mem_map.2 ⟨x, hx, he⟩
    rw [List.map_cons, modifyEach, get?_of_mem hk (hes e List.mem_cons_self),
      ih (by rw [set_keys]; exact hk) hes' hn]
    simp only [List.map_cons, Prod.mk.injEq, true_and, set, List.map_map]
    congr 1
    refine List.map_congr_left fun x _ => ?_
    simp only [Function.comp_apply, List.mem_cons]
    by_cases hx : x.1 = e.1
    · simp [hx, hne]
    · rw [if_neg hx]
      simp only [hx, false_or]

/-! ## Who is chosen -/

/-- The id with the smallest number is that of the earliest record. -/
theorem argmin_earliest {es : List (Uuid × Slot)}
    (h : ∀ e ∈ es, (e.2.record e.1).suspensionNumber = e.2.waitNumber) :
    Record.earliest (es.map fun e => e.2.record e.1) =
      (es.argmin (·.2.waitNumber)).map fun e => e.2.record e.1 := by
  induction es with
  | nil => rfl
  | cons e es ih =>
    have ih := ih fun x hx => h x (List.mem_cons_of_mem _ hx)
    rw [List.map_cons, Record.earliest, ih, List.argmin_cons]
    cases hm : es.argmin (·.2.waitNumber) with
    | none => rfl
    | some m =>
      have he := h e List.mem_cons_self
      have hm := h m (List.mem_cons_of_mem _ (List.argmin_mem hm))
      simp only [Option.map_some, he, hm]
      by_cases hlt : m.2.waitNumber < e.2.waitNumber
      · simp [hlt, Nat.not_le.2 hlt]
      · simp [hlt, Nat.not_lt.1 hlt]

theorem filter_store (L : Layout) {p : Uuid × Slot → Bool} {q : Record → Bool}
    (h : ∀ e ∈ L.slots, p e = q (e.2.record e.1)) :
    L.store.records.filter q = (L.slots.filter p).map fun e => e.2.record e.1 := by
  rw [store, List.filter_map]
  exact congrArg _ (List.filter_congr fun e he => (h e he).symm)

/-- The entry that a response goes to. -/
def addressee? (L : Layout) (c : String) : Option (Uuid × Slot) :=
  (L.slots.filter fun e => e.2.hasOpenWait c).argmin (·.2.waitNumber)

theorem addressee?_some {c : String} {e : Uuid × Slot} (h : L.addressee? c = some e) :
    e ∈ L.slots ∧ e.2.hasOpenWait c = true := List.mem_filter.1 (List.argmin_mem h)

theorem waiting_of_open {i : Slot} {c : String} (h : i.hasOpenWait c = true) :
    i.stage = .waiting := by
  simp only [Slot.hasOpenWait, Bool.and_eq_true, beq_iff_eq] at h
  exact h.1

theorem target?_store (L : Layout) (c : String) :
    L.store.target? c = (L.addressee? c).map fun e => e.2.record e.1 := by
  rw [Store.target?, filter_store L (p := fun e => e.2.hasOpenWait c)
    fun e _ => Slot.hasOpenWait_record c]
  refine argmin_earliest fun e he => ?_
  rw [Record.suspensionNumber, Slot.record_waiting (waiting_of_open (List.mem_filter.1 he).2)]

def readyEntries (L : Layout) (pool : String) (most : Nat) : List (Uuid × Slot) :=
  ((L.slots.filter fun e => e.2.stage == .ready && e.2.workflow.effectivePool == pool).mergeSort
    claimedBefore).take most

def dueEntries (L : Layout) (now : Instant) (most : Nat) : List (Uuid × Slot) :=
  ((L.slots.filter fun e => e.2.isDue now).mergeSort promotedBefore).take most

theorem claimList_store (L : Layout) (pool : String) (most : Nat) :
    L.store.claimList pool most = (L.readyEntries pool most).map fun e => e.2.record e.1 := by
  rw [Store.claimList, filter_store L fun e _ => Slot.claimable_record pool, readyEntries,
    List.map_take, List.map_mergeSort]
  exact fun _ _ _ _ => rfl

theorem Sound.entry_eq (h : L.Sound) {e e' : Uuid × Slot} (he : e ∈ L.slots) (he' : e' ∈ L.slots)
    (hn : e.2.number = e'.2.number) : e = e' := by
  have hr : ∀ {x : Uuid × Slot}, x ∈ L.slots → x.2.record x.1 ∈ L.store.records :=
    fun hx => List.mem_map_of_mem hx
  have := h.numbered.apart _ (hr he) _ (hr he') e.2.number List.mem_cons_self
    (hn ▸ List.mem_cons_self)
  exact List.inj_on_of_nodup_map h.keys he he' (congrArg Record.id this)

theorem promotionList_store (h : L.Sound) (now : Instant) (most : Nat) :
    L.store.promotionList now most = (L.dueEntries now most).map fun e => e.2.record e.1 := by
  rw [Store.promotionList, filter_store L fun e _ => Slot.isDue_record now, dueEntries,
    List.map_take, List.map_mergeSort]
  intro e he e' he'
  -- Two entries with the same number are one, so ids are never compared.
  show (e.2.number < e'.2.number || (e.2.number == e'.2.number && e.1.bits ≤ e'.1.bits)) =
    decide (e.2.number ≤ e'.2.number)
  by_cases hn : e.2.number = e'.2.number
  · rw [h.entry_eq (List.mem_filter.1 he).1 (List.mem_filter.1 he').1 hn]
    simp
  · by_cases hlt : e.2.number < e'.2.number
    · simp [hlt, Nat.le_of_lt hlt]
    · have hle : ¬ e.2.number ≤ e'.2.number := by omega
      simp [hn, hlt, hle]

theorem chosen_nodup (hk : L.keys.Nodup) (p : Uuid × Slot → Bool)
    (le : Uuid × Slot → Uuid × Slot → Bool) (most : Nat) :
    ((((L.slots.filter p).mergeSort le).take most).map (·.1)).Nodup := by
  have hf : ((L.slots.filter p).map (·.1)).Nodup := (List.filter_sublist.map _).nodup hk
  exact ((List.take_sublist _ _).map _).nodup (((List.mergeSort_perm _ _).map _).nodup_iff.2 hf)

theorem mem_of_chosen {p : Uuid × Slot → Bool} {le : Uuid × Slot → Uuid × Slot → Bool} {most : Nat}
    {e : Uuid × Slot} (h : e ∈ ((L.slots.filter p).mergeSort le).take most) :
    e ∈ L.slots ∧ p e = true :=
  List.mem_filter.1 (List.mem_mergeSort.1 (List.mem_of_mem_take h))

theorem mem_readyEntries {pool : String} {most : Nat} {e : Uuid × Slot}
    (h : e ∈ L.readyEntries pool most) : e ∈ L.slots ∧ e.2.stage = .ready := by
  obtain ⟨he, hp⟩ := mem_of_chosen h
  simp only [Bool.and_eq_true, beq_iff_eq] at hp
  exact ⟨he, hp.1⟩

/-! ## Each action agrees -/

/-- Writing the slots of some entries one after the other finds each of them, and is read as
changing their records at once. -/
theorem modifyEach_agrees (h : L.Sound) (es : List (Uuid × Slot)) (hes : ∀ e ∈ es, e ∈ L.slots)
    (hn : (es.map (·.1)).Nodup) {f : Slot → Slot} {g : Record → Record}
    (hr : ∀ e ∈ es, (f e.2).record e.1 = g (e.2.record e.1))
    (hs : ∀ e ∈ es, (f e.2).Sound e.1) :
    Agrees (modifyEach f (es.map (·.1)) L) (.ok (es.map (·.2)), { L.store with
      records := L.store.records.map fun r =>
        if r.id ∈ (es.map fun e => e.2.record e.1).map (·.id) then g r else r }) := by
  have hids : (es.map fun e => e.2.record e.1).map (·.id) = es.map (·.1) := by
    rw [List.map_map]
    rfl
  have hmem : ∀ e ∈ L.slots, e.1 ∈ es.map (·.1) → e ∈ es := by
    intro e he hi
    obtain ⟨x, hx, hxe⟩ := List.mem_map.1 hi
    rwa [← List.inj_on_of_nodup_map h.keys (hes x hx) he hxe]
  rw [modifyEach_entries es h.keys hes hn, hids]
  refine ⟨rfl, ?_, map_each h.each fun e he hi => hs e (hmem e he hi)⟩
  have hm := map_store L (p := fun e => e.1 ∈ es.map (·.1)) (q := fun r => r.id ∈ es.map (·.1))
    (fun _ _ => Iff.rfl) (f := f) (g := g) fun e he hi => hr e (hmem e he hi)
  rw [← hm]
  rfl

theorem setWhere_agrees (h : L.Sound) {p : Slot → Bool} {q : Record → Bool} {f : Slot → Slot}
    {g : Record → Record} (hp : ∀ e ∈ L.slots, p e.2 = q (e.2.record e.1))
    (hr : ∀ e ∈ L.slots, p e.2 = true → (f e.2).record e.1 = g (e.2.record e.1))
    (hs : ∀ e ∈ L.slots, p e.2 = true → (f e.2).Sound e.1) :
    Agrees (.ok (Outcome.counted (L.setWhere p f).1), (L.setWhere p f).2)
      (.ok (.counted (L.store.updateWhere q g).1), (L.store.updateWhere q g).2) := by
  refine ⟨?_, ?_, map_each h.each hs⟩
  · simp only [setWhere, Store.updateWhere, store, List.countP_map]
    exact congrArg _ (congrArg _ (List.countP_congr fun e he => by rw [hp e he]; rfl))
  · have hm := map_store L (p := fun e => p e.2 = true) (q := fun r => q r = true)
      (fun e he => by rw [hp e he]) hr
    simp only [Store.updateWhere, ← hm]
    rfl

theorem insert_agrees (h : L.Sound) (w : Workflow) :
    Agrees (L.insert w) (L.store.insert [w]) := by
  simp only [insert, Store.insert]
  cases hid : w.id with
  | none => exact ⟨rfl, rfl, h.each⟩
  | some id =>
    simp only [find?_store]
    cases L.get? id with
    | some i => exact ⟨rfl, rfl, h.each⟩
    | none =>
      refine ⟨rfl, ?_, fun e he => ?_⟩
      · simp only [store, List.map_append]
        rfl
      · rcases List.mem_append.1 he with he | he
        · exact h.each e he
        · have hc := Slot.sound_create hid (L.drawn + 1)
          rw [hid] at hc
          rw [List.mem_singleton.1 he]
          exact hc

theorem deliver_agrees (h : L.Sound) (x : Response) :
    Agrees (L.deliver x) (.ok (), L.store.deliver x) := by
  have hto : L.target? x.correlation = (L.addressee? x.correlation).map (·.1) := rfl
  rw [deliver, hto, Store.deliver, target?_store]
  cases ht : L.addressee? x.correlation with
  | none => exact ⟨rfl, rfl, h.each⟩
  | some e =>
    obtain ⟨he, ho⟩ := addressee?_some ht
    have hs := waiting_of_open ho
    have hg := get?_of_mem h.keys he
    -- The id is that of an entry, so the slot is found.
    have one : ∀ i, (e.1, i) ∈ L.slots → i = e.2 := fun i hi =>
      (Prod.mk.inj (List.inj_on_of_nodup_map h.keys hi he rfl)).2
    simp only [Option.map_some, modify, hg]
    refine ⟨rfl, set_store fun i hi => ?_, set_each h fun i hi => ?_⟩
    · rw [one i hi]
      exact Slot.record_matchResponse (h.each e he) hs x
    · rw [one i hi]
      exact (h.each e he).matchResponse hs x

theorem suspend_agrees (h : L.Sound) (c : Callback) (payload : Json) :
    Agrees (L.suspend c payload) (L.store.suspend c payload) := by
  simp only [suspend]
  have hg : get? { L with drawn := L.drawn + 1 } c.instanceId = L.get? c.instanceId := rfl
  rw [hg]
  cases hi : L.get? c.instanceId with
  | none =>
    rw [Store.suspend_absent (by rw [find?_store, hi]; rfl)]
    exact ⟨rfl, rfl, h.each⟩
  | some i =>
    rw [Store.suspend_present (r := i.record c.instanceId) (by rw [find?_store, hi]; rfl)]
    have hs := (h.each _ (mem_of_get? hi)).suspend c payload (L.drawn + 1)
    have hc := Slot.record_collect c.correlations hs L.unclaimed
    rw [Slot.record_suspend] at hc
    refine ⟨rfl, ?_, ?_⟩
    · have hst : (L.set c.instanceId fun _ =>
            ((i.suspend c payload (L.drawn + 1)).collect L.unclaimed c.correlations).1).store =
          L.store.update c.instanceId fun _ => (L.store.suspended c payload (i.record _)).1 :=
        set_store fun _ _ => (congrArg Prod.fst hc).symm
      have hr := congrArg Store.records hst
      have hu := congrArg Prod.snd hc
      rw [Store.mk.injEq]
      exact ⟨hr, hu.symm, rfl⟩
    · exact set_each h fun _ _ => Slot.Sound.collect c.correlations hs L.unclaimed

theorem finish_agrees (h : L.Sound) (remove : Bool) (id : Uuid) :
    Agrees (L.finish remove id) (L.store.finish remove id) := by
  cases remove with
  | true =>
    simp only [finish, Store.finish, if_true, find?_store]
    cases L.get? id with
    | none => exact ⟨rfl, rfl, h.each⟩
    | some i =>
      refine ⟨rfl, ?_, fun e he => h.each e (List.mem_filter.1 he).1⟩
      simp only [store, List.filter_map]
      rfl
  | false =>
    simp only [finish, Store.finish, Bool.false_eq_true, if_false]
    exact modify_agrees h (fun i _ => Slot.record_finish) fun i hi => (h.each _ hi).finish

theorem restart_agrees (h : L.Sound) (id : Uuid) :
    Agrees (L.restart id) (L.store.restart id) := by
  simp only [restart, Store.restart, find?_store]
  cases hg : L.get? id with
  | none => exact ⟨rfl, rfl, h.each⟩
  | some i =>
    have hf : i.stage = .error ↔ (i.record id).status = .failed := by
      have := Slot.failed_record id i
      rw [Bool.eq_iff_iff, beq_iff_eq, beq_iff_eq] at this
      exact this
    have one : ∀ j, (id, j) ∈ L.slots → j = i := fun j hj =>
      (Prod.mk.inj (List.inj_on_of_nodup_map h.keys hj (mem_of_get? hg) rfl)).2
    simp only [Option.map_some]
    by_cases hs : i.stage = .error
    · rw [if_pos hs, if_pos (hf.1 hs)]
      refine ⟨rfl, set_store fun j _ => Slot.record_restart, set_each h fun j hj => ?_⟩
      rw [one j hj]
      exact (h.each _ (mem_of_get? hg)).restart hs
    · rw [if_neg hs, if_neg fun hr => hs (hf.2 hr)]
      exact ⟨rfl, rfl, h.each⟩

/-- **Actions agree.** An action on a sound layout answers as the one on the store that the layout is
read as, is read as it, and leaves sound slots. -/
theorem act_agrees (h : L.Sound) (a : Action) : Agrees (L.act a) (L.store.act a) := by
  cases a with
  | insert w => exact (insert_agrees h w).plainly
  | claim engine pool most =>
    have hm := modifyEach_agrees h (L.readyEntries pool most)
      (fun e he => (mem_readyEntries he).1) (chosen_nodup h.keys _ _ most)
      (f := .claim engine) (g := fun r => r.claim engine) (fun e _ => Slot.record_claim engine)
      fun e he => (h.each e (mem_readyEntries he).1).claim (mem_readyEntries he).2 engine
    have hc := claimList_store L pool most
    refine ⟨?_, ?_, hm.each⟩
    · have ho : (L.readyEntries pool most).map (fun e => e.2.handOut) =
          (L.store.claimList pool most).map fun r => r.handedOut engine := by
        rw [hc, List.map_map]
        exact List.map_congr_left fun e he =>
          Slot.handOut_record (h.each e (mem_readyEntries he).1) engine
      show Except.map _ (modifyEach _ ((L.readyEntries pool most).map (·.1)) L).1 = _
      rw [hm.answer]
      simp only [Except.map, Store.act, Store.claim, List.map_map]
      exact congrArg _ (congrArg _ ho)
    · simp only [Store.act, Store.claim, hc]
      exact hm.store
  | deliver x => exact (deliver_agrees h x).plainly
  | suspend c payload => exact (suspend_agrees h c payload).plainly
  | finish remove id => exact (finish_agrees h remove id).plainly
  | fail id cause =>
    exact (modify_agrees h (fun i _ => Slot.record_fail cause)
      fun i hi => (h.each _ hi).fail cause).plainly
  | restart id => exact (restart_agrees h id).plainly
  | restartAll =>
    exact setWhere_agrees h (p := fun i => i.stage == .error) (q := fun r => r.status == .failed)
      (fun e _ => Slot.failed_record e.1 e.2) (fun e _ _ => Slot.record_restart)
      fun e he hs => (h.each e he).restart (by simpa using hs)
  | sweep now most => exact ⟨rfl, rfl, h.each⟩
  | promote now most =>
    have hd : ∀ e ∈ L.dueEntries now most, e ∈ L.slots ∧ e.2.isDue now = true :=
      fun e he => mem_of_chosen he
    have hm := modifyEach_agrees h (L.dueEntries now most) (fun e he => (hd e he).1)
      (chosen_nodup h.keys _ _ most) (f := .promote) (g := .promote)
      (fun e _ => Slot.record_promote) fun e he => (h.each e (hd e he).1).promote (hd e he).2
    have hp := promotionList_store h now most
    refine ⟨?_, ?_, hm.each⟩
    · show Except.map _ (modifyEach _ ((L.dueEntries now most).map (·.1)) L).1 = _
      rw [hm.answer]
      simp only [Except.map, Store.act, Store.promote, hp, due, dueEntries, List.length_map]
    · simp only [Store.act, Store.promote, hp]
      exact hm.store
  | recover engine =>
    refine setWhere_agrees h (p := fun i => i.stage == .running && i.claimedBy == some engine)
      (q := fun r => r.status == .running engine) (g := fun r => { r with status := .ready })
      (fun e he => Slot.running_record (h.each e he) engine) (fun e _ _ => Slot.record_recover)
      fun e he hs => (h.each e he).recover ?_
    simp only [Bool.and_eq_true, beq_iff_eq] at hs
    exact hs.1
  | load id =>
    refine ⟨?_, rfl, h.each⟩
    simp only [act, Store.act, Store.load, find?_store]
    cases hg : L.get? id with
    | none => rfl
    | some i =>
      simp only [Option.map_some, Slot.view_record (h.each _ (mem_of_get? hg))]

theorem Sound.act (h : L.Sound) (a : Action) : (L.act a).2.Sound :=
  ⟨(act_agrees h a).each, by
    rw [(act_agrees h a).store]
    exact Store.act_numbered L.store a h.numbered⟩

theorem sound_empty : Sound empty := ⟨fun _ he => (nomatch he), Store.numbered_empty⟩

/-! ## The order of the entries -/

/-- The layouts differ in the order of their entries only. -/
structure Same (L L' : Layout) : Prop where
  slots : L.slots.Perm L'.slots
  unclaimed : L'.unclaimed = L.unclaimed
  drawn : L'.drawn = L.drawn

variable {L' : Layout}

theorem Same.refl (L : Layout) : L.Same L := ⟨.refl _, rfl, rfl⟩

theorem Same.symm (h : L.Same L') : L'.Same L := ⟨h.slots.symm, h.unclaimed.symm, h.drawn.symm⟩

theorem Same.trans {L₁ L₂ L₃ : Layout} (h : L₁.Same L₂) (h' : L₂.Same L₃) : L₁.Same L₃ :=
  ⟨h.slots.trans h'.slots, h'.unclaimed.trans h.unclaimed, h'.drawn.trans h.drawn⟩

theorem Same.records (h : L.Same L') : L.store.records.Perm L'.store.records :=
  h.slots.map _

theorem Sound.same (h : L.Sound) (hs : L.Same L') : L'.Sound := by
  have hm : ∀ r, r ∈ L'.store.records → r ∈ L.store.records := fun _ => hs.records.mem_iff.2
  have hu : L'.store.Unique := (hs.records.map Record.id).nodup_iff.1 h.numbered.ids
  refine ⟨fun e he => h.each e (hs.slots.mem_iff.2 he), hu, fun r hr => h.numbered.own r (hm r hr),
    fun r hr t ht => h.numbered.apart r (hm r hr) t (hm t ht), fun r hr n hn => ?_⟩
  have hd : L'.store.drawn = L.store.drawn := hs.drawn
  rw [hd]
  exact h.numbered.drawn r (hm r hr) n hn

theorem get?_same (h : L.Sound) (hs : L.Same L') (id : Uuid) : L'.get? id = L.get? id := by
  cases hg : L.get? id with
  | some i => exact get?_of_mem (h.same hs).keys (hs.slots.mem_iff.1 (mem_of_get? hg))
  | none =>
    refine Option.eq_none_iff_forall_not_mem.2 fun i hi => ?_
    exact absent_of_get? hg _ (hs.slots.mem_iff.2 (mem_of_get? hi)) rfl

/-- What is sorted by an order that tells the entries apart does not depend on their order. -/
theorem chosen_same (hs : L.Same L') (p : Uuid × Slot → Bool)
    {le : Uuid × Slot → Uuid × Slot → Bool}
    (trans : ∀ a b c, le a b = true → le b c = true → le a c = true)
    (total : ∀ a b, (le a b || le b a) = true)
    (antisymm : ∀ a ∈ L.slots, ∀ b ∈ L.slots, le a b = true → le b a = true → a = b) :
    (L'.slots.filter p).mergeSort le = (L.slots.filter p).mergeSort le := by
  refine @List.Perm.eq_of_pairwise _ (fun a b => le a b = true) _ _ (fun a b ha hb => ?_)
    (List.pairwise_mergeSort trans total _) (List.pairwise_mergeSort trans total _) ?_
  · have ha := (List.mem_filter.1 (List.mem_mergeSort.1 ha)).1
    have hb := (List.mem_filter.1 (List.mem_mergeSort.1 hb)).1
    exact antisymm a (hs.slots.mem_iff.2 ha) b hb
  · exact (List.mergeSort_perm _ _).trans ((hs.slots.symm.filter p).trans
      (List.mergeSort_perm _ _).symm)

theorem claimedBefore_iff {a b : Uuid × Slot} : claimedBefore a b = true ↔
    b.2.workflow.priority.toInt < a.2.workflow.priority.toInt ∨
      a.2.workflow.priority.toInt = b.2.workflow.priority.toInt ∧ a.2.number ≤ b.2.number := by
  simp [claimedBefore, Int32.lt_iff_toInt_lt, ← Int32.toInt_inj]

theorem promotedBefore_iff {a b : Uuid × Slot} : promotedBefore a b = true ↔
    a.2.number < b.2.number ∨
      a.2.number = b.2.number ∧ a.1.bits.toNat ≤ b.1.bits.toNat := by
  simp [promotedBefore, BitVec.le_def]

theorem readyEntries_same (h : L.Sound) (hs : L.Same L') (pool : String) (most : Nat) :
    L'.readyEntries pool most = L.readyEntries pool most := by
  refine congrArg (List.take most) (chosen_same hs _ (fun a b c => ?_) (fun a b => ?_)
    fun a ha b hb hab hba => h.entry_eq ha hb ?_)
  · simp only [claimedBefore_iff]; omega
  · simp only [Bool.or_eq_true, claimedBefore_iff]; omega
  · rw [claimedBefore_iff] at hab hba; omega

theorem dueEntries_same (h : L.Sound) (hs : L.Same L') (now : Instant) (most : Nat) :
    L'.dueEntries now most = L.dueEntries now most := by
  refine congrArg (List.take most) (chosen_same hs _ (fun a b c => ?_) (fun a b => ?_)
    fun a ha b hb hab hba => h.entry_eq ha hb ?_)
  · simp only [promotedBefore_iff]; omega
  · simp only [Bool.or_eq_true, promotedBefore_iff]; omega
  · rw [promotedBefore_iff] at hab hba; omega

/-- In a sound layout the number of a wait says which entry waits. -/
theorem Sound.wait_eq (h : L.Sound) {e e' : Uuid × Slot} (he : e ∈ L.slots) (he' : e' ∈ L.slots)
    (hw : e.2.stage = .waiting) (hw' : e'.2.stage = .waiting)
    (hn : e.2.waitNumber = e'.2.waitNumber) : e = e' := by
  have hd : ∀ {x : Uuid × Slot}, x.2.stage = .waiting →
      x.2.waitNumber ∈ (x.2.record x.1).draws := by
    intro x hx
    rw [Record.draws_waiting (Slot.record_waiting hx)]
    exact List.mem_cons_of_mem _ List.mem_cons_self
  have := h.numbered.apart _ (List.mem_map_of_mem he) _ (List.mem_map_of_mem he') e.2.waitNumber
    (hd hw) (hn ▸ hd hw')
  exact List.inj_on_of_nodup_map h.keys he he' (congrArg Record.id this)

theorem addressee?_same (h : L.Sound) (hs : L.Same L') (c : String) :
    L'.addressee? c = L.addressee? c := by
  have hp := hs.slots.filter fun e => e.2.hasOpenWait c
  cases hL : L.addressee? c with
  | none =>
    have hn := List.argmin_eq_none.1 hL
    rw [hn] at hp
    exact List.argmin_eq_none.2 (List.nil_perm.1 hp)
  | some e =>
    cases hL' : L'.addressee? c with
    | none =>
      have hn := List.argmin_eq_none.1 hL'
      rw [hn] at hp
      rw [addressee?, List.perm_nil.1 hp] at hL
      cases hL
    | some e' =>
      -- Both have the smallest number of all.
      have hm := List.argmin_mem hL
      have hm' := List.argmin_mem hL'
      have hle := List.le_of_mem_argmin (hp.mem_iff.2 hm') hL
      have hle' := List.le_of_mem_argmin (hp.mem_iff.1 hm) hL'
      obtain ⟨he, ho⟩ := addressee?_some hL
      obtain ⟨he', ho'⟩ := addressee?_some hL'
      rw [h.wait_eq he (hs.slots.mem_iff.2 he') (waiting_of_open ho) (waiting_of_open ho')
        (Nat.le_antisymm hle hle')]

/-! ## No action can tell the order -/

/-- What is chosen does not depend on the order of the entries. -/
theorem chosen_unique (h : L.Sound) (hs : L.Same L') :
    (∀ c, L'.target? c = L.target? c) ∧ (∀ pool most, L'.ready pool most = L.ready pool most) ∧
      ∀ now most, L'.due now most = L.due now most :=
  ⟨fun c => congrArg (Option.map Prod.fst) (addressee?_same h hs c),
    fun pool most => congrArg (List.map Prod.fst) (readyEntries_same h hs pool most),
    fun now most => congrArg (List.map Prod.fst) (dueEntries_same h hs now most)⟩

/-- Two calls answer the same and leave layouts that differ in the order of their entries only. -/
structure Alike {α : Type} (p p' : Except StoreError α × Layout) : Prop where
  answer : p'.1 = p.1
  layout : p.2.Same p'.2

theorem Alike.plainly {p p' : Except StoreError Unit × Layout} (h : Alike p p') :
    Alike (plainly p) (plainly p') := ⟨congrArg (Except.map _) h.answer, h.layout⟩

theorem set_same (hs : L.Same L') (id : Uuid) (f : Slot → Slot) :
    (L.set id f).Same (L'.set id f) := ⟨hs.slots.map _, hs.unclaimed, hs.drawn⟩

theorem modify_same (h : L.Sound) (hs : L.Same L') (id : Uuid) (f : Slot → Slot) :
    Alike (L.modify id f) (L'.modify id f) := by
  rw [modify, modify, get?_same h hs]
  cases L.get? id with
  | none => exact ⟨rfl, hs⟩
  | some i => exact ⟨rfl, set_same hs id f⟩

theorem modifyEach_same (h : L.Sound) (hs : L.Same L') (es : List (Uuid × Slot))
    (hes : ∀ e ∈ es, e ∈ L.slots) (hn : (es.map (·.1)).Nodup) (f : Slot → Slot) :
    Alike (modifyEach f (es.map (·.1)) L) (modifyEach f (es.map (·.1)) L') := by
  rw [modifyEach_entries es h.keys hes hn,
    modifyEach_entries es (h.same hs).keys (fun e he => hs.slots.mem_iff.1 (hes e he)) hn]
  exact ⟨rfl, hs.slots.map _, hs.unclaimed, hs.drawn⟩

theorem insert_same (h : L.Sound) (hs : L.Same L') (w : Workflow) :
    Alike (L.insert w) (L'.insert w) := by
  simp only [insert, get?_same h hs, hs.drawn]
  cases w.id with
  | none => exact ⟨rfl, hs⟩
  | some id =>
    cases hg : L.get? id with
    | some i => simp only [hg]; exact ⟨rfl, hs⟩
    | none =>
      simp only [hg]
      exact ⟨rfl, hs.slots.append (.refl _), hs.unclaimed, rfl⟩

theorem deliver_same (h : L.Sound) (hs : L.Same L') (x : Response) :
    Alike (L.deliver x) (L'.deliver x) := by
  rw [deliver, deliver, (chosen_unique h hs).1 x.correlation]
  cases L.target? x.correlation with
  | some id => exact modify_same h hs id _
  | none => exact ⟨rfl, hs.slots, by rw [hs.unclaimed], hs.drawn⟩

theorem suspend_same (h : L.Sound) (hs : L.Same L') (c : Callback) (payload : Json) :
    Alike (L.suspend c payload) (L'.suspend c payload) := by
  simp only [suspend, hs.drawn, hs.unclaimed]
  have hg : get? { L' with drawn := L.drawn + 1, unclaimed := L.unclaimed } c.instanceId =
      get? { L with drawn := L.drawn + 1 } c.instanceId := get?_same h hs c.instanceId
  have hg' : get? ⟨L'.slots, L.unclaimed, L.drawn + 1⟩ c.instanceId =
      get? ⟨L.slots, L.unclaimed, L.drawn + 1⟩ c.instanceId := hg
  rw [hg']
  cases get? ⟨L.slots, L.unclaimed, L.drawn + 1⟩ c.instanceId with
  | none => exact ⟨rfl, hs.slots, rfl, rfl⟩
  | some i => exact ⟨rfl, hs.slots.map _, rfl, rfl⟩

theorem finish_same (h : L.Sound) (hs : L.Same L') (remove : Bool) (id : Uuid) :
    Alike (L.finish remove id) (L'.finish remove id) := by
  cases remove with
  | true =>
    simp only [finish, if_true, get?_same h hs]
    cases L.get? id with
    | none => exact ⟨rfl, hs⟩
    | some i => exact ⟨rfl, hs.slots.filter _, hs.unclaimed, hs.drawn⟩
  | false => exact modify_same h hs id _

theorem restart_same (h : L.Sound) (hs : L.Same L') (id : Uuid) :
    Alike (L.restart id) (L'.restart id) := by
  simp only [restart, get?_same h hs]
  cases L.get? id with
  | none => exact ⟨rfl, hs⟩
  | some i =>
    simp only
    split
    · exact ⟨rfl, set_same hs id _⟩
    · exact ⟨rfl, hs⟩

theorem setWhere_same (hs : L.Same L') (p : Slot → Bool) (f : Slot → Slot) :
    (L'.setWhere p f).1 = (L.setWhere p f).1 ∧ (L.setWhere p f).2.Same (L'.setWhere p f).2 :=
  ⟨(hs.slots.countP_eq _).symm, hs.slots.map _, hs.unclaimed, hs.drawn⟩

/-- **Actions do not depend on the order of the entries.** -/
theorem act_same (h : L.Sound) (hs : L.Same L') (a : Action) : Alike (L.act a) (L'.act a) := by
  cases a with
  | insert w => exact (insert_same h hs w).plainly
  | claim engine pool most =>
    have hm := modifyEach_same h hs (L.readyEntries pool most)
      (fun e he => (mem_readyEntries he).1) (chosen_nodup h.keys _ _ most) (.claim engine)
    simp only [act, (chosen_unique h hs).2.1]
    exact ⟨congrArg (Except.map _) hm.answer, hm.layout⟩
  | deliver x => exact (deliver_same h hs x).plainly
  | suspend c payload => exact (suspend_same h hs c payload).plainly
  | finish remove id => exact (finish_same h hs remove id).plainly
  | fail id cause => exact (modify_same h hs id _).plainly
  | restart id => exact (restart_same h hs id).plainly
  | restartAll =>
    have hw := setWhere_same hs (fun i => i.stage == .error) .restart
    exact ⟨congrArg (fun n => Except.ok (Outcome.counted n)) hw.1, hw.2⟩
  | sweep now most =>
    simp only [act, hs.unclaimed]
    exact ⟨rfl, hs.slots, rfl, hs.drawn⟩
  | promote now most =>
    have hm := modifyEach_same h hs (L.dueEntries now most)
      (fun e he => (mem_of_chosen he).1) (chosen_nodup h.keys _ _ most) .promote
    simp only [act, (chosen_unique h hs).2.2]
    exact ⟨congrArg (Except.map _) hm.answer, hm.layout⟩
  | recover engine =>
    have hw := setWhere_same hs (fun i => i.stage == .running && i.claimedBy == some engine)
      .recover
    exact ⟨congrArg (fun n => Except.ok (Outcome.counted n)) hw.1, hw.2⟩
  | load id =>
    simp only [act, get?_same h hs]
    exact ⟨rfl, hs⟩

/-! ## Reachable layouts -/

/-- The layouts that come about from the empty one by actions, with the entries in any order before
each. -/
inductive Reachable : Layout → Prop where
  | empty : Reachable .empty
  | act {L : Layout} (a : Action) : Reachable L → Reachable (L.act a).2
  | reorder {L L' : Layout} : Reachable L → L.Same L' → Reachable L'

theorem Reachable.sound (h : L.Reachable) : L.Sound := by
  induction h with
  | empty => exact sound_empty
  | act a _ ih => exact ih.act a
  | reorder _ hs ih => exact ih.same hs

/-- A reachable layout is the same as one that is read as a reachable store. -/
theorem Reachable.origin (h : L.Reachable) :
    ∃ L₀ : Layout, L₀.Sound ∧ L₀.store.Reachable ∧ L₀.Same L := by
  induction h with
  | empty => exact ⟨.empty, sound_empty, .empty, .refl _⟩
  | act a _ ih =>
    obtain ⟨L₀, hl, hr, hs⟩ := ih
    refine ⟨(L₀.act a).2, hl.act a, ?_, (act_same hl hs a).layout⟩
    rw [(act_agrees hl a).store]
    exact hr.act a
  | reorder _ hs ih =>
    obtain ⟨L₀, hl, hr, hs₀⟩ := ih
    exact ⟨L₀, hl, hr, hs₀.trans hs⟩

/-- The layout is read as the store but for the order of its entries. -/
def Holds (L : Layout) (s : Store) : Prop := ∃ L₀ : Layout, L₀.Sound ∧ L₀.store = s ∧ L₀.Same L

/-- An action has the same answer in a layout as in the store that it holds, and leaves it holding
what the action leaves of that store. -/
theorem Holds.act {s : Store} (h : L.Holds s) (a : Action) :
    (L.act a).1 = (s.act a).1 ∧ (L.act a).2.Holds (s.act a).2 := by
  obtain ⟨L₀, hl, rfl, hs⟩ := h
  have hsame := act_same hl hs a
  have hagree := act_agrees hl a
  exact ⟨hsame.answer.trans hagree.answer, (L₀.act a).2, hl.act a, hagree.store, hsame.layout⟩

/-- Every reachable store is what some reachable layout is read as. -/
theorem laid_out {s : Store} (h : s.Reachable) : ∃ L : Layout, L.Reachable ∧ L.store = s := by
  induction h with
  | empty => exact ⟨.empty, .empty, rfl⟩
  | act a _ ih =>
    obtain ⟨L, hl, rfl⟩ := ih
    exact ⟨(L.act a).2, hl.act a, (act_agrees hl.sound a).store⟩

end Layout

/-- The numbers that a slot holds: that of its instance, and that of the wait that it is in. -/
def Slot.draws (i : Slot) : List Nat :=
  i.number :: if i.stage = .waiting then [i.waitNumber] else []

theorem Slot.draws_record (id : Uuid) (i : Slot) : (i.record id).draws = i.draws := by
  rw [draws]
  split
  · rename_i hs
    rw [Record.draws_waiting (record_waiting hs)]
    rfl
  · rename_i hs
    refine Record.draws_idle fun z hz => hs ?_
    rw [← stage_record id, Record.stage, hz]
    rfl

namespace Layout

/-- **The representation invariant.** Of every layout that comes about: each slot is sound under its
id, no two entries have the same key, and the numbers of instances and of current waits are pairwise
distinct and have been drawn. Hence what a response goes to, what a claim takes and what a promotion
makes ready, and everything that an action does, is the same whatever the order of the entries, and
no claim, delivery or promotion misses the instance that it is about. Up to that order the layout is
read as a reachable store, with the same answers; and every reachable store is read off in this
way. -/
theorem representation :
    (∀ L : Layout, L.Reachable →
      (∀ e ∈ L.slots, e.2.Sound e.1) ∧ L.keys.Nodup ∧
      ((L.slots.flatMap fun e => e.2.draws).Nodup ∧
        ∀ e ∈ L.slots, ∀ n ∈ e.2.draws, 0 < n ∧ n ≤ L.drawn) ∧
      (∀ L', L.Same L' → (∀ c, L'.target? c = L.target? c) ∧
        (∀ pool most, L'.ready pool most = L.ready pool most) ∧
        (∀ now most, L'.due now most = L.due now most) ∧ ∀ a, Alike (L.act a) (L'.act a)) ∧
      ((∀ x, (L.act (.deliver x)).1 = .ok .done) ∧
        (∀ engine pool most, ∃ ws, (L.act (.claim engine pool most)).1 = .ok (.claimed ws)) ∧
        ∀ now most, ∃ n, (L.act (.promote now most)).1 = .ok (.counted n)) ∧
      ∃ s : Store, s.Reachable ∧ L.store.records.Perm s.records ∧ L.unclaimed = s.unclaimed ∧
        L.drawn = s.drawn ∧ ∀ a, (L.act a).1 = (s.act a).1) ∧
    ∀ s : Store, s.Reachable →
      ∃ L : Layout, L.Reachable ∧ L.store = s ∧ ∀ a, Agrees (L.act a) (s.act a) := by
  refine ⟨fun L hL => ?_, fun s hs => ?_⟩
  · have h := hL.sound
    have hd : ∀ e : Uuid × Slot, (e.2.record e.1).draws = e.2.draws := fun e => e.2.draws_record e.1
    have hn : (L.slots.flatMap fun e => e.2.draws).Nodup := by
      have := h.numbered.nodup
      rw [store, List.flatMap_map] at this
      simpa only [hd] using this
    have hb : ∀ e ∈ L.slots, ∀ n ∈ e.2.draws, 0 < n ∧ n ≤ L.drawn := fun e he n hm =>
      h.numbered.drawn _ (List.mem_map_of_mem he) n (by rw [hd]; exact hm)
    obtain ⟨L₀, hl, hr, hs⟩ := hL.origin
    refine ⟨h.each, h.keys, ⟨hn, hb⟩, fun L' hs => ?_, ⟨?_, ?_, ?_⟩,
      L₀.store, hr, hs.records.symm, hs.unclaimed, hs.drawn, fun a => ?_⟩
    · obtain ⟨ht, hc, hp⟩ := chosen_unique h hs
      exact ⟨ht, hc, hp, act_same h hs⟩
    · exact fun x => (act_agrees h (.deliver x)).answer
    · exact fun engine pool most => ⟨_, (act_agrees h (.claim engine pool most)).answer⟩
    · exact fun now most => ⟨_, (act_agrees h (.promote now most)).answer⟩
    · exact (act_same hl hs a).answer.trans (act_agrees hl a).answer
  · obtain ⟨L, hL, rfl⟩ := laid_out hs
    exact ⟨L, hL, rfl, act_agrees hL.sound⟩

/-- Two instances wait for one response, the second since before the first. -/
def twoWaits : Layout :=
  let w (id : Uuid) : Workflow := { Workflow.create "t" .null with id := some id }
  [.insert (w ⟨1⟩), .insert (w ⟨2⟩), .suspend ⟨⟨2⟩, .all, none, ["a"]⟩ .null,
    .suspend ⟨⟨1⟩, .all, none, ["a"]⟩ .null].foldl (fun L a => (L.act a).2) .empty

/-- The response goes to the instance that has waited longer, in whatever order they are met. -/
theorem representation_twoWaits :
    (twoWaits.slots.flatMap fun e => e.2.draws) = [1, 4, 2, 3] ∧
      (twoWaits.slots.flatMap fun e => e.2.draws).Nodup ∧ twoWaits.target? "a" = some ⟨2⟩ ∧
      ({ twoWaits with slots := twoWaits.slots.reverse } : Layout).target? "a" = some ⟨2⟩ ∧
      (twoWaits.act (.deliver ⟨"a", .ok .null, .epoch, none⟩)).1 = .ok .done := by
  have hr : Reachable twoWaits :=
    .act _ (.act _ (.act _ (.act _ .empty)))
  obtain ⟨-, -, ⟨hn, -⟩, horder, ⟨hd, -⟩, -⟩ := representation.1 twoWaits hr
  have ht : twoWaits.target? "a" = some ⟨2⟩ := by decide +kernel
  have hs : twoWaits.Same { twoWaits with slots := twoWaits.slots.reverse } :=
    ⟨(List.reverse_perm _).symm, rfl, rfl⟩
  exact ⟨by decide +kernel, hn, ht, ((horder _ hs).1 "a").trans ht, hd _⟩

end Layout

end Resumption
