import Resumption.Proofs.Store.Identity

/-!
# The order of insertion

Instances are numbered as they are stored, and their numbers rise along the records. What that means
for who uses the store is said by the turns of a run: one instance comes before another if the turn
that stored it came first (`StoredBefore`), whatever became of either since. A batch is stored one
instance after the other, so its instances follow each other as they do in the batch.

**Invariant.** `Store.Ordered`: along the records both the numbers and the turns rise. An action
leaves the ids and numbers of the records as they are, takes out some, or puts the next at the end
(`Store.act_places`).

**Result.** `Ordered.before`: the smaller number is that of the instance that was stored first.
-/

namespace Resumption

/-- Of two stored instances the first was stored earlier. Neither was removed since. -/
def StoredBefore (ts : List Turn) (i j : Uuid) : Prop :=
  ∃ past t mid u later v w, ts = past ++ t :: mid ++ u :: later ∧ t.Stores v i ∧ u.Stores w j ∧
    (∀ x ∈ mid ++ u :: later, ¬ x.Removes i) ∧ ∀ x ∈ later, ¬ x.Removes j

theorem Turn.Stores.not_removes {t : Turn} {w : Workflow} {i : Uuid} (h : t.Stores w i) (j : Uuid) :
    ¬ t.Removes j := by
  intro hrem
  have he : Action.insert w = .finish true j := h.1.symm.trans hrem
  cases he

theorem StoredBefore.snoc {ts : List Turn} {i j : Uuid} (h : StoredBefore ts i j) {t : Turn}
    (hi : ¬ t.Removes i) (hj : ¬ t.Removes j) : StoredBefore (ts ++ [t]) i j := by
  obtain ⟨past, u, mid, v, later, w, w', rfl, hu, hv, hmid, hlater⟩ := h
  refine ⟨past, u, mid, v, later ++ [t], w, w', by simp, hu, hv, fun x hx => ?_, fun x hx => ?_⟩
  · rw [← List.cons_append, ← List.append_assoc] at hx
    rcases List.mem_append.1 hx with hx | hx
    · exact hmid x hx
    · rwa [List.mem_singleton.1 hx]
  · rcases List.mem_append.1 hx with hx | hx
    · exact hlater x hx
    · rwa [List.mem_singleton.1 hx]

namespace Record

/-- The id and the number of a record, which no action changes. -/
def place (r : Record) : Uuid × Nat := (r.id, r.number)

@[simp] theorem promote_place (r : Record) : r.promote.place = r.place := by
  unfold promote
  split <;> rfl

@[simp] theorem answer_place (r : Record) (x : Response) : (r.answer x).place = r.place := by
  unfold answer
  split
  · dsimp only
    split <;> rfl
  · rfl

end Record

namespace Store

variable {s : Store} {a : Action}

/-- The ids and numbers of the records. -/
def places (s : Store) : List (Uuid × Nat) := s.records.map Record.place

theorem places_map (f : Record → Record) (h : ∀ r ∈ s.records, (f r).place = r.place)
    (us : List Unclaimed) (n : Nat) : places ⟨s.records.map f, us, n⟩ = s.places := by
  simp only [places, List.map_map]
  exact List.map_congr_left h

theorem places_update {id : Uuid} {f : Record → Record}
    (h : ∀ r ∈ s.records, r.id = id → (f r).place = r.place) :
    (s.update id f).places = s.places := by
  refine places_map _ (fun r hr => ?_) _ _
  split
  · rename_i he; exact h r hr he
  · rfl

theorem suspended_place (s : Store) (c : Callback) (payload : Json) (r : Record) :
    (s.suspended c payload r).1.place = r.place := by
  rcases s.suspended_outcome c payload r with ⟨z, he, -⟩ | ⟨z, x, -, -, -, he⟩ <;> rw [he] <;> rfl

/-- An action puts what it stores at the end, under the next number, and leaves the other ids and
numbers as they are or takes them out. -/
theorem act_places (hu : s.Unique) (a : Action) :
    (s.act a).2.places.Sublist s.places ∨
      ∃ w id, Turn.Stores ⟨s, a⟩ w id ∧ (s.act a).2.places = s.places ++ [(id, s.drawn + 1)] := by
  have same : ∀ {s' : Store}, s'.places = s.places → s'.places.Sublist s.places := fun h => by
    rw [h]
  cases a with
  | insert w =>
    rcases insert_one s w with hi | ⟨id, hid, hf, hi⟩
    · exact .inl (same (by rw [act, plainly, hi]))
    · refine .inr ⟨w, id, ⟨rfl, hid, hf⟩, ?_⟩
      rw [act, plainly, hi, places, append, List.map_append]
      rfl
  | claim engine pool most => exact .inl (same (places_map _ (fun r _ => by split <;> rfl) _ _))
  | deliver x =>
    refine .inl (same ?_)
    simp only [act, Store.deliver]
    split
    · exact places_update fun r _ _ => r.answer_place x
    · rfl
  | suspend c payload =>
    refine .inl (same ?_)
    cases hf : s.find? c.instanceId with
    | none => rw [act, plainly, suspend_absent hf]; rfl
    | some t =>
      obtain ⟨ht, hid⟩ := find?_some hf
      rw [act, plainly, suspend_present hf]
      refine places_update (f := fun _ => (s.suspended c payload t).1) fun r hr he => ?_
      rw [hu.eq hr ht (he.trans hid.symm)]
      exact s.suspended_place c payload t
  | finish remove id =>
    left
    simp only [act, plainly, Store.finish]
    split
    · split
      · exact List.Sublist.refl _
      · exact List.Sublist.map _ List.filter_sublist
    · rw [modify_store]
      exact same (places_update fun _ _ _ => rfl)
  | fail id cause =>
    refine .inl (same ?_)
    simp only [act, plainly, Store.fail, modify_store]
    exact places_update fun _ _ _ => rfl
  | restart id =>
    refine .inl (same ?_)
    simp only [act, plainly, Store.restart]
    split
    · rfl
    · split
      · exact places_update fun _ _ _ => rfl
      · rfl
  | restartAll => exact .inl (same (places_map _ (fun r _ => by split <;> rfl) _ _))
  | sweep now most => exact .inl (List.Sublist.refl _)
  | promote now most => exact .inl (same (places_map _ (fun r _ => by split <;> simp) _ _))
  | recover engine => exact .inl (same (places_map _ (fun r _ => by split <;> rfl) _ _))
  | load id => exact .inl (List.Sublist.refl _)

theorem mem_places {p : Uuid × Nat} : p ∈ s.places ↔ ∃ r ∈ s.records, r.place = p := List.mem_map

/-- What is there before and after a turn is not removed in it. -/
theorem not_removes (hu : s.Unique) {r r' : Record} (hr : r ∈ s.records)
    (hr' : r' ∈ (s.act a).2.records) (hid : r'.id = r.id) : ¬ Turn.Removes ⟨s, a⟩ r.id := by
  rcases act_origin hu hr' with ⟨-, hn⟩ | ⟨w, -, -, hf⟩
  · rwa [hid] at hn
  · exact absurd hid.symm (find?_none hf r hr)

/-! ## A run -/

/-- Along the records the numbers rise, and so do the turns that stored them; and what was stored
and not removed since was stored in one turn. -/
structure Ordered (ts : List Turn) (s : Store) : Prop where
  traced : Traced ts s
  numbered : s.Numbered
  rising : s.places.Pairwise fun p q => p.2 < q.2 ∧ StoredBefore ts p.1 q.1
  once : ∀ past t later w past' t' later' w' id, ts = past ++ t :: later → t.Stores w id →
    (∀ x ∈ later, ¬ x.Removes id) → ts = past' ++ t' :: later' → t'.Stores w' id →
    (∀ x ∈ later', ¬ x.Removes id) → past.length = past'.length

/-- What was stored before a turn was stored before that which it stores. -/
theorem Traced.storedBefore {ts : List Turn} (h : Traced ts s) {r : Record} (hr : r ∈ s.records)
    {w : Workflow} {id : Uuid} (hw : Turn.Stores ⟨s, a⟩ w id) :
    StoredBefore (ts ++ [⟨s, a⟩]) r.id id := by
  obtain ⟨past, t, later, v, rfl, ht, hlater⟩ := h.origin r hr
  refine ⟨past, t, later, ⟨s, a⟩, [], v, w, by simp, ht, hw, fun x hx => ?_, fun _ hx => nomatch hx⟩
  rcases List.mem_append.1 hx with hx | hx
  · exact hlater x hx
  · rw [List.mem_singleton.1 hx]
    exact hw.not_removes r.id

theorem Ordered.rising_act {ts : List Turn} (h : Ordered ts s) :
    (s.act a).2.places.Pairwise fun p q => p.2 < q.2 ∧ StoredBefore (ts ++ [⟨s, a⟩]) p.1 q.1 := by
  have hu := h.traced.unique
  rcases act_places hu a with hsub | ⟨w, id, hw, he⟩
  · refine (h.rising.sublist hsub).imp_of_mem fun {p q} hp hq hpq => ⟨hpq.1, ?_⟩
    have stays : ∀ p ∈ (s.act a).2.places, ¬ Turn.Removes ⟨s, a⟩ p.1 := fun p hp => by
      obtain ⟨r, hr, rfl⟩ := mem_places.1 (hsub.subset hp)
      obtain ⟨r', hr', he⟩ := mem_places.1 hp
      exact not_removes hu hr hr' (congrArg Prod.fst he)
    exact hpq.2.snoc (stays p hp) (stays q hq)
  · rw [he]
    refine List.pairwise_append.2 ⟨h.rising.imp fun hpq =>
      ⟨hpq.1, hpq.2.snoc (hw.not_removes _) (hw.not_removes _)⟩, List.pairwise_singleton _ _,
      fun p hp q hq => ?_⟩
    obtain ⟨r, hr, rfl⟩ := mem_places.1 hp
    rw [List.mem_singleton.1 hq]
    exact ⟨Nat.lt_succ_of_le (h.numbered.drawn r hr r.number List.mem_cons_self).2,
      h.traced.storedBefore hr hw⟩

/-- What was stored and not removed since is not stored anew. -/
theorem Traced.not_stores {ts past later : List Turn} {t : Turn} {v w : Workflow} {id : Uuid}
    (h : Traced ts s) (hts : ts = past ++ t :: later) (ht : t.Stores v id)
    (hlater : ∀ x ∈ later, ¬ x.Removes id) : ¬ Turn.Stores ⟨s, a⟩ w id := by
  rintro ⟨-, -, hf⟩
  obtain ⟨r, hr, hid, -⟩ := h.lasting past t later v id hts ht hlater
  exact find?_none hf r hr hid

theorem Ordered.once_act {ts past later past' later' : List Turn} {t t' : Turn}
    {w w' : Workflow} {id : Uuid} (h : Ordered ts s) (hts : ts ++ [⟨s, a⟩] = past ++ t :: later)
    (ht : t.Stores w id) (hlater : ∀ x ∈ later, ¬ x.Removes id)
    (hts' : ts ++ [⟨s, a⟩] = past' ++ t' :: later') (ht' : t'.Stores w' id)
    (hlater' : ∀ x ∈ later', ¬ x.Removes id) : past.length = past'.length := by
  have early : ∀ {later : List Turn}, (∀ x ∈ later ++ [⟨s, a⟩], ¬ x.Removes id) →
      ∀ x ∈ later, ¬ x.Removes id := fun h x hx => h x (List.mem_append_left _ hx)
  rcases split_snoc hts with ⟨rfl, rfl, rfl⟩ | ⟨l, rfl, hl⟩ <;>
    rcases split_snoc hts' with ⟨rfl, rfl, rfl⟩ | ⟨l', rfl, hl'⟩
  · rfl
  · exact absurd ht (h.traced.not_stores hl' ht' (early hlater'))
  · exact absurd ht' (h.traced.not_stores hl ht (early hlater))
  · exact h.once _ _ _ _ _ _ _ _ id hl ht (early hlater) hl' ht' (early hlater')

theorem ordered_inductive : Inductive Ordered where
  start :=
    { traced := traced_inductive.start
      numbered := numbered_empty
      rising := .nil
      once := fun past t later _ _ _ _ _ _ h => by cases past <;> cases h }
  step ts s a h :=
    { traced := traced_inductive.step ts s a h.traced
      numbered := act_numbered s a h.numbered
      rising := h.rising_act
      once := fun _ _ _ _ _ _ _ _ _ hts ht hlater hts' ht' hlater' =>
        h.once_act hts ht hlater hts' ht' hlater' }

/-- Of two instances only one was stored before the other. -/
theorem Ordered.asymm {ts : List Turn} (h : Ordered ts s) {i j : Uuid} (hij : StoredBefore ts i j) :
    ¬ StoredBefore ts j i := by
  rintro ⟨past', t', mid', u', later', v', w', hts', ht', hu', hmid', hlater'⟩
  obtain ⟨past, t, mid, u, later, v, w, hts, ht, hu, hmid, hlater⟩ := hij
  have hsplit : ∀ {past mid later : List Turn} {t u : Turn}, ts = past ++ t :: mid ++ u :: later →
      ts = past ++ t :: (mid ++ u :: later) := fun h => by simpa using h
  have hi := h.once _ _ _ _ _ _ _ _ i (hsplit hts) ht hmid hts' hu' hlater'
  have hj := h.once _ _ _ _ _ _ _ _ j hts hu hlater (hsplit hts') ht' hmid'
  simp only [List.length_append, List.length_cons] at hi hj
  omega

/-- The smaller number is that of the instance that was stored first. -/
theorem Ordered.before {ts : List Turn} (h : Ordered ts s) {r t : Record} (hr : r ∈ s.records)
    (ht : t ∈ s.records) (hn : r.number < t.number) : StoredBefore ts r.id t.id := by
  have hrise : s.records.Pairwise fun a b => a.number < b.number ∧ StoredBefore ts a.id b.id :=
    List.pairwise_map.1 h.rising
  obtain ⟨i, hi, rfl⟩ := List.getElem_of_mem hr
  obtain ⟨j, hj, rfl⟩ := List.getElem_of_mem ht
  rcases Nat.lt_trichotomy i j with hij | rfl | hij
  · exact (List.pairwise_iff_getElem.1 hrise i j hi hj hij).2
  · exact absurd hn (Nat.lt_irrefl _)
  · exact absurd hn (Nat.lt_asymm (List.pairwise_iff_getElem.1 hrise j i hj hi hij).1)

theorem Numbered.eq {s : Store} (h : s.Numbered) {r t : Record} (hr : r ∈ s.records)
    (ht : t ∈ s.records) (he : r.number = t.number) : r = t :=
  h.apart r hr t ht r.number List.mem_cons_self (by rw [he]; exact List.mem_cons_self)

end Store

end Resumption
