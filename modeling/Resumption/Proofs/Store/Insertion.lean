import Resumption.Proofs.Store.Change

/-!
# Storing a batch

A batch is stored one instance after the other, up to the first whose id is taken: by an instance that
was stored before, or by one of the same batch. What is stored up to there stays in the store
(`Store.insert_named`), which is the store with that part of the batch at its end (`Store.appendAll`).
All of the batch is stored exactly when its ids are distinct and new (`Store.Fits.all`).
-/

namespace Resumption.Store

/-- Puts instances at the end, each under the id that it is paired with. -/
def appendAll (s : Store) (work : List (Uuid × Workflow)) : Store :=
  work.foldl (fun s p => s.append p.1 p.2) s

variable {s : Store} {work : List (Uuid × Workflow)} {k : Nat}

theorem find?_none_iff {id : Uuid} : s.find? id = none ↔ id ∉ s.ids := by
  simp only [find?, ids, List.find?_eq_none, beq_iff_eq, List.mem_map, not_exists, not_and]

/-- The records are those from before and one new record for each instance, in order. -/
theorem appendAll_records (s : Store) (work : List (Uuid × Workflow)) :
    (s.appendAll work).records =
      s.records ++ work.mapIdx fun i p => .ofWorkflow p.1 (s.drawn + 1 + i) p.2 := by
  induction work generalizing s with
  | nil => exact (List.append_nil _).symm
  | cons p work ih =>
    rw [appendAll, List.foldl_cons, ← appendAll, ih, List.mapIdx_cons, append, List.append_assoc]
    simp only [Nat.add_assoc, Nat.add_comm 1, Nat.add_zero, List.singleton_append]

theorem appendAll_unclaimed (s : Store) (work : List (Uuid × Workflow)) :
    (s.appendAll work).unclaimed = s.unclaimed := by
  induction work generalizing s with
  | nil => rfl
  | cons p work ih => exact ih _

/-- The first `k` instances of a batch are those before the first whose id is taken. -/
structure Fits (s : Store) (work : List (Uuid × Workflow)) (k : Nat) : Prop where
  le : k ≤ work.length
  distinct : ((work.take k).map (·.1)).Nodup
  fresh : ∀ p ∈ work.take k, p.1 ∉ s.ids
  taken : ∀ p, work[k]? = some p → p.1 ∈ s.ids ∨ p.1 ∈ (work.take k).map (·.1)

/-- Instances with distinct and new ids fit altogether. -/
theorem Fits.all (h : s.Fits work k) (hd : (work.map (·.1)).Nodup) (hn : ∀ p ∈ work, p.1 ∉ s.ids) :
    k = work.length := by
  by_contra hk
  have hlt : k < work.length := Nat.lt_of_le_of_ne h.le hk
  have hp : work[k]? = some work[k] := List.getElem?_eq_getElem hlt
  rcases h.taken _ hp with hi | hi
  · exact hn _ (List.getElem_mem hlt) hi
  · rw [← List.take_append_drop k work, List.map_append, List.nodup_append] at hd
    refine hd.2.2 _ hi _ ?_ rfl
    rw [List.drop_eq_getElem_cons hlt, List.map_cons]
    exact List.mem_cons_self

/-- With one more instance at the front, under an id that is new. -/
theorem Fits.cons {p : Uuid × Workflow} (h : (s.append p.1 p.2).Fits work k) (hp : p.1 ∉ s.ids) :
    s.Fits (p :: work) (k + 1) := by
  have hids : ∀ id, id ∈ (s.append p.1 p.2).ids ↔ id ∈ s.ids ∨ id = p.1 := by
    intro id
    rw [append_ids, List.mem_append, List.mem_singleton]
  refine ⟨Nat.succ_le_succ h.le, ?_, ?_, ?_⟩
  · rw [List.take_succ_cons, List.map_cons, List.nodup_cons]
    refine ⟨fun hm => ?_, h.distinct⟩
    obtain ⟨q, hq, he⟩ := List.mem_map.1 hm
    exact h.fresh q hq ((hids _).2 (.inr he))
  · intro q hq
    rw [List.take_succ_cons] at hq
    rcases List.mem_cons.1 hq with rfl | hq
    · exact hp
    · exact fun hi => h.fresh q hq ((hids _).2 (.inl hi))
  · intro q hq
    rw [List.getElem?_cons_succ] at hq
    rw [List.take_succ_cons, List.map_cons, List.mem_cons]
    rcases h.taken q hq with hi | hi
    · rcases (hids _).1 hi with hi | hi
      · exact .inl hi
      · exact .inr (.inl hi)
    · exact .inr (.inr hi)

/-- **Storing a batch** stores what comes before the first id that is taken, and fails with this id if
there is one. -/
theorem insert_named (s : Store) (work : List (Uuid × Workflow))
    (hn : ∀ p ∈ work, p.2.id = some p.1) :
    ∃ k, s.Fits work k ∧
      s.insert (work.map (·.2)) =
        (match work[k]? with
          | none => .ok ()
          | some p => .error (.invalidArgument ("duplicate instance id " ++ p.1.text)),
          s.appendAll (work.take k)) := by
  induction work generalizing s with
  | nil => exact ⟨0, ⟨Nat.le_refl 0, List.nodup_nil, fun _ h => (nomatch h), fun _ h => nomatch h⟩, rfl⟩
  | cons p work ih =>
    have hid := hn p List.mem_cons_self
    cases hf : s.find? p.1 with
    | some r =>
      refine ⟨0, ⟨Nat.zero_le _, List.nodup_nil, fun _ h => (nomatch h), fun q hq => ?_⟩, ?_⟩
      · cases hq
        exact .inl (by_contra fun h => by rw [find?_none_iff.2 h] at hf; cases hf)
      · rw [List.map_cons, insert]
        simp only [hid, hf]
        rfl
    | none =>
      obtain ⟨k, hk, hi⟩ := ih (s.append p.1 p.2) fun q hq => hn q (List.mem_cons_of_mem _ hq)
      refine ⟨k + 1, hk.cons (find?_none_iff.1 hf), ?_⟩
      rw [List.map_cons, insert]
      simp only [hid, hf]
      exact hi

/-- A batch that was stored altogether had distinct and new ids. -/
theorem insert_ok {s' : Store} (hn : ∀ p ∈ work, p.2.id = some p.1)
    (h : s.insert (work.map (·.2)) = (.ok (), s')) :
    s.Fits work work.length ∧ s' = s.appendAll work := by
  obtain ⟨k, hk, hi⟩ := s.insert_named work hn
  have hl : k = work.length := by
    by_contra hne
    rw [hi, List.getElem?_eq_getElem (Nat.lt_of_le_of_ne hk.le hne)] at h
    cases h
  subst hl
  rw [hi, List.take_length] at h
  exact ⟨hk, (congrArg Prod.snd h).symm⟩

/-- A batch with distinct and new ids is stored altogether. -/
theorem insert_new (hn : ∀ p ∈ work, p.2.id = some p.1) (hd : (work.map (·.1)).Nodup)
    (hf : ∀ p ∈ work, p.1 ∉ s.ids) : (s.insert (work.map (·.2))).1 = .ok () := by
  obtain ⟨k, hk, hi⟩ := s.insert_named work hn
  rw [hi, hk.all hd hf, List.getElem?_eq_none (Nat.le_refl _)]

end Resumption.Store
