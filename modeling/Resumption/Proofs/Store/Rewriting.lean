import Resumption.Proofs.Store.Change

/-!
# Recording an outcome in the store

Finishing an instance, marking it as failed and suspending it rewrite the record of this instance
and of no other (`Store.Rewrites`). What is written is told exactly by `rewrites_finish`,
`rewrites_fail` and `rewrites_suspend`, in any store and at any stage of the instance.
-/

namespace Resumption

namespace Store

/-- The record of one instance becomes what `now` makes of it, or is removed; all others stay as
they are. -/
structure Rewrites (s : Store) (id : Uuid) (now : Record → Option Record) (s' : Store) : Prop where
  found : ∃ r, s.find? id = some r ∧ s'.find? id = now r
  others : ∀ j, j ≠ id → s'.find? j = s.find? j

variable {s s' : Store} {id : Uuid}

theorem find?_update {f : Record → Record} (hf : ∀ r, r.id = id → (f r).id = id) :
    (s.update id f).find? id = (s.find? id).map f := by
  unfold update find?
  induction s.records with
  | nil => rfl
  | cons r rs ih =>
    by_cases h : r.id = id
    · simp [h, hf r h]
    · have hne : (r.id == id) = false := by simpa using h
      simp only [List.map_cons, if_neg h, List.find?_cons, hne]
      exact ih

theorem find?_update_ne {f : Record → Record} (hf : ∀ r, r.id = id → (f r).id = id) {j : Uuid}
    (hj : j ≠ id) : (s.update id f).find? j = s.find? j := by
  unfold update find?
  induction s.records with
  | nil => rfl
  | cons r rs ih =>
    by_cases h : r.id = id
    · have hne : (r.id == j) = false := by simpa [h] using hj.symm
      have hne' : ((f r).id == j) = false := by simpa [hf r h] using hj.symm
      simp only [List.map_cons, if_pos h, List.find?_cons, hne, hne']
      exact ih
    · simp only [List.map_cons, if_neg h, List.find?_cons, ih]

theorem find?_remove :
    ({ s with records := s.records.filter fun r => r.id ≠ id } : Store).find? id = none := by
  refine List.find?_eq_none.2 fun r hr => ?_
  simpa using (List.mem_filter.1 hr).2

theorem find?_remove_ne {j : Uuid} (hj : j ≠ id) :
    ({ s with records := s.records.filter fun r => r.id ≠ id } : Store).find? j = s.find? j := by
  unfold find?
  rw [List.find?_filter]
  congr 1
  funext r
  by_cases h : r.id = j
  · simp [h, hj]
  · simp [h]

theorem rewrites_update {f : Record → Record} (hf : ∀ r, r.id = id → (f r).id = id) {r : Record}
    (hr : s.find? id = some r) : s.Rewrites id (fun r => some (f r)) (s.update id f) :=
  ⟨⟨r, hr, by rw [find?_update hf, hr]; rfl⟩, fun _ hj => find?_update_ne hf hj⟩

theorem rewrites_modify {f : Record → Record} (hf : ∀ r, r.id = id → (f r).id = id)
    (h : s.modify id f = (.ok (), s')) : s.Rewrites id (fun r => some (f r)) s' := by
  unfold modify at h
  split at h
  · cases h
  · rename_i r hr
    cases h
    exact rewrites_update hf hr

theorem rewrites_finish {remove : Bool} (h : s.finish remove id = (.ok (), s')) :
    s.Rewrites id (fun r => if remove then none else some { r with status := .finished }) s' := by
  unfold finish at h
  split at h
  · rename_i hremove
    simp only [hremove, if_true]
    split at h
    · cases h
    · rename_i r hr
      cases h
      exact ⟨⟨r, hr, find?_remove⟩, fun j hj => find?_remove_ne hj⟩
  · rename_i hkeep
    simp only [if_neg hkeep]
    exact rewrites_modify (fun _ h => h) h

theorem rewrites_fail {cause : String} (h : s.fail id cause = (.ok (), s')) :
    s.Rewrites id (fun r => some { r with status := .failed, lastError := some cause }) s' :=
  rewrites_modify (f := fun r => r.fail cause) (fun _ h => h) h

/-- A suspended instance becomes what its callback makes of it. -/
theorem rewrites_suspend {c : Callback} {payload : Json}
    (h : s.suspend c payload = (.ok (), s')) :
    s.Rewrites c.instanceId (fun r => some (s.suspended c payload r).1) s' := by
  cases hf : s.find? c.instanceId with
  | none => rw [suspend_absent hf] at h; cases h
  | some r =>
    rw [suspend_present hf] at h
    cases h
    have hid : ∀ r' : Record, r'.id = c.instanceId →
        (s.suspended c payload r).1.id = c.instanceId :=
      fun _ _ => (suspended_id s c payload r).trans (find?_some hf).2
    obtain ⟨-, others⟩ := rewrites_update hid hf
    refine ⟨⟨r, hf, ?_⟩, others⟩
    have := find?_update (s := s) hid
    rw [hf] at this
    exact this

end Store

end Resumption
