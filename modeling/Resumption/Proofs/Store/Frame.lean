import Resumption.Proofs.Database.Atomicity
import Resumption.Proofs.Store.Change

/-!
# What actions leave alone

`Store.act_records` says where the records after an action come from. This is the other direction:
a record that an action has no business with is there afterwards, as it was (`Store.act_spares`), and
whatever is stored stays stored unless it is finished and removed (`Store.act_ids`).

Instances that run or are finished are the business of four actions only: the three that settle a
run and the recovery of an engine. A claim makes ready instances run, and every other action is
`Gentle`: before and after it, the same instances run and are finished, with the same records
(`Store.act_agree`). Work that is made of gentle actions is as gentle, whichever calls fail
(`Database.Mild`).
-/

namespace Resumption

/-- The instance runs or is finished. -/
def Record.Lasting (r : Record) : Prop := r.stage = .running ∨ r.stage = .finished

theorem Record.Lasting.stage {r : Record} (h : r.Lasting) {st : Status} (hs : r.status = st) :
    st.stage = .running ∨ st.stage = .finished := by
  rw [← hs]
  exact h

theorem Record.lasting_running {r : Record} {engine : String} (h : r.status = .running engine) :
    r.Lasting := .inl (by rw [stage, h]; rfl)

theorem Record.lasting_finished {r : Record} (h : r.status = .finished) : r.Lasting :=
  .inr (by rw [stage, h]; rfl)

theorem Record.status_of_finished {r : Record} (h : r.stage = .finished) : r.status = .finished := by
  cases hs : r.status <;> simp [stage, hs, Status.stage] at h
  rfl

namespace Action

/-- The action has no business with the record. -/
def Spares (r : Record) : Action → Prop
  | .claim _ pool _ => r.claimable pool = false
  | .deliver x => r.wants x.correlation = false
  | .suspend c _ => r.id ≠ c.instanceId
  | .finish _ id => r.id ≠ id
  | .fail id _ => r.id ≠ id
  | .restart _ => r.status ≠ .failed
  | .restartAll => r.status ≠ .failed
  | .promote now _ => r.dueAt now = false
  | .recover engine => r.status ≠ .running engine
  | _ => True

/-- The action neither settles a run, nor claims, nor recovers. -/
def Gentle : Action → Prop
  | .insert _ | .deliver _ | .restart _ | .restartAll | .sweep _ _ | .promote _ _ | .load _ => True
  | _ => False

/-- A gentle action has no business with an instance that runs or is finished. -/
theorem Gentle.spares {a : Action} (h : a.Gentle) {r : Record} (hr : r.Lasting) : a.Spares r := by
  cases a with
  | deliver x =>
    refine Bool.eq_false_iff.2 fun hw => ?_
    obtain ⟨z, hz, -⟩ := Record.wants_iff.1 hw
    exact absurd (hr.stage hz) (by simp [Status.stage])
  | restart id => exact fun he => absurd (hr.stage he) (by simp [Status.stage])
  | restartAll => exact fun he => absurd (hr.stage he) (by simp [Status.stage])
  | promote now most =>
    show r.dueAt now = false
    unfold Record.dueAt
    split
    · rename_i he; exact absurd (hr.stage he) (by simp [Status.stage])
    · rename_i z he; exact absurd (hr.stage he) (by simp [Status.stage])
    · rfl
  | _ => trivial

end Action

namespace Store

variable {s s' : Store} {a : Action} {r : Record}

theorem mem_map_of_fix {f : Record → Record} (hr : r ∈ s.records) (h : f r = r) :
    r ∈ s.records.map f := List.mem_map.2 ⟨r, hr, h⟩

theorem mem_update_of_ne {id : Uuid} {f : Record → Record} (hr : r ∈ s.records) (h : r.id ≠ id) :
    r ∈ (s.update id f).records := mem_map_of_fix hr (if_neg h)

/-- A record that an action has no business with stays as it is. -/
theorem act_spares (hu : s.Unique) (hr : r ∈ s.records) (h : a.Spares r) :
    r ∈ (s.act a).2.records := by
  cases a with
  | insert w =>
    rcases insert_one s w with hi | ⟨id, -, -, hi⟩ <;> rw [act, plainly, hi]
    · exact hr
    · exact List.mem_append_left _ hr
  | claim engine pool most =>
    refine mem_map_of_fix hr (if_neg fun hm => ?_)
    have := (mem_claimList (hu.mem_of_id (fun t ht => (mem_claimList ht).1) hr hm)).2
    rw [show r.claimable pool = false from h] at this
    cases this
  | deliver x =>
    simp only [act, Store.deliver]
    split
    · rename_i t ht
      obtain ⟨hmem, hw⟩ := target?_some ht
      refine mem_update_of_ne hr fun hid => ?_
      rw [← hu.eq hr hmem hid, show r.wants x.correlation = false from h] at hw
      cases hw
    · exact hr
  | suspend c payload =>
    cases hf : s.find? c.instanceId with
    | none => rw [act, plainly, suspend_absent hf]; exact hr
    | some t => rw [act, plainly, suspend_present hf]; exact mem_update_of_ne (s := s) hr h
  | finish remove id =>
    simp only [act, plainly, Store.finish]
    split
    · split
      · exact hr
      · exact List.mem_filter.2 ⟨hr, decide_eq_true h⟩
    · rw [modify_store]; exact mem_update_of_ne hr h
  | fail id cause =>
    simp only [act, plainly, Store.fail, modify_store]
    exact mem_update_of_ne hr h
  | restart id =>
    simp only [act, plainly, Store.restart]
    split
    · exact hr
    · rename_i t ht
      obtain ⟨hmem, hid⟩ := find?_some ht
      split
      · rename_i hst
        refine mem_update_of_ne hr fun he => h ?_
        rw [hu.eq hr hmem (he.trans hid.symm)]
        exact hst
      · exact hr
  | restartAll => exact mem_map_of_fix hr (if_neg fun he => h (by simpa using he))
  | sweep now most => exact hr
  | promote now most =>
    refine mem_map_of_fix hr (if_neg fun hm => ?_)
    have := (mem_promotionList (hu.mem_of_id (fun t ht => (mem_promotionList ht).1) hr hm)).2
    rw [show r.dueAt now = false from h] at this
    cases this
  | recover engine => exact mem_map_of_fix hr (if_neg fun he => h (by simpa using he))
  | load id => exact hr

/-- A gentle action makes no instance run and finishes none. -/
theorem Change.gentle {r' : Record} (h : s.Change a r r') (ha : a.Gentle) (hr : r'.Lasting) :
    r' = r := by
  have no : ∀ {t : Record}, t.status = .ready → ¬ t.Lasting := fun ht hl =>
    absurd (hl.stage ht) (by simp [Status.stage])
  cases h with
  | same _ => rfl
  | deliver hw =>
    obtain ⟨z, hz, -⟩ := Record.wants_iff.1 hw
    rw [Record.answer_waiting hz] at hr
    split at hr
    · exact absurd hr (no rfl)
    · rcases hr with hr | hr <;> cases hr
  | restart _ _ => exact absurd hr (no rfl)
  | restartAll _ => exact absurd hr (no rfl)
  | promote _ =>
    unfold Record.promote at hr
    split at hr <;> exact absurd hr (no rfl)
  | _ => exact ha.elim

/-! ## Instances stay stored -/

theorem ids_map (f : Record → Record) (h : ∀ r ∈ s.records, (f r).id = r.id)
    (us : List Unclaimed) (n : Nat) : ids ⟨s.records.map f, us, n⟩ = s.ids := by
  simp only [ids, List.map_map]
  exact List.map_congr_left h

theorem ids_update {id : Uuid} {f : Record → Record}
    (h : ∀ r ∈ s.records, r.id = id → (f r).id = id) : (s.update id f).ids = s.ids := by
  refine ids_map _ (fun r hr => ?_) _ _
  split
  · rename_i he; rw [h r hr he, he]
  · rfl

/-- What is stored stays stored, unless it is finished and removed. -/
theorem act_ids (s : Store) (a : Action) {id : Uuid} (h : id ∈ s.ids) (ha : a ≠ .finish true id) :
    id ∈ (s.act a).2.ids := by
  cases a with
  | insert w =>
    rcases insert_one s w with hi | ⟨new, -, -, hi⟩
    · rw [act, plainly, hi]; exact h
    · rw [act, plainly, hi, ids, append, List.map_append]
      exact List.mem_append_left _ h
  | claim engine pool most => rwa [act, claim, ids_map _ fun r _ => by split <;> rfl]
  | deliver x =>
    simp only [act, deliver]
    split
    · rwa [ids_update fun r _ he => by simpa using he]
    · exact h
  | suspend c payload =>
    cases hf : s.find? c.instanceId with
    | none => rw [act, plainly, suspend_absent hf]; exact h
    | some t =>
      rw [act, plainly, suspend_present hf]
      have hu : (s.update c.instanceId fun _ => (s.suspended c payload t).1).ids = s.ids :=
        ids_update fun r _ _ => (suspended_id s c payload t).trans (find?_some hf).2
      exact hu.symm ▸ h
  | finish remove other =>
    simp only [act, plainly, finish]
    split
    · rename_i hr
      split
      · exact h
      · obtain ⟨r, hr', rfl⟩ := List.mem_map.1 h
        refine List.mem_map_of_mem (List.mem_filter.2 ⟨hr', ?_⟩)
        simpa using fun he => ha (by rw [hr, he])
    · rwa [modify_store, ids_update (f := Record.finish) fun r _ he => he]
  | fail other cause =>
    simp only [act, plainly, fail, modify_store]
    rwa [ids_update (f := fun r => r.fail cause) fun r _ he => he]
  | restart other =>
    simp only [act, plainly, restart]
    split
    · exact h
    · split
      · show id ∈ (s.update other Record.restart).ids
        rwa [ids_update (f := Record.restart) fun r _ he => he]
      · exact h
  | restartAll => rwa [act, restartAll, updateWhere, ids_map _ fun r _ => by split <;> rfl]
  | sweep now most => exact h
  | promote now most => rwa [act, promote, ids_map _ fun r _ => by split <;> simp]
  | recover engine => rwa [act, recover, updateWhere, ids_map _ fun r _ => by split <;> rfl]
  | load other => exact h

/-! ## Agreement -/

/-- The same instances run and are finished in both stores, with the same records, and what is
stored in the first is stored in the second. -/
structure Agree (s s' : Store) : Prop where
  unique : s.Unique → s'.Unique
  lasting : s.Unique → ∀ r : Record, r.Lasting → (r ∈ s.records ↔ r ∈ s'.records)
  ids : ∀ id ∈ s.ids, id ∈ s'.ids

theorem Agree.refl (s : Store) : s.Agree s := ⟨id, fun _ _ _ => Iff.rfl, fun _ h => h⟩

theorem Agree.trans {s₁ s₂ s₃ : Store} (h : s₁.Agree s₂) (h' : s₂.Agree s₃) : s₁.Agree s₃ :=
  ⟨h'.unique ∘ h.unique, fun hu r hr =>
    (h.lasting hu r hr).trans (h'.lasting (h.unique hu) r hr), fun id hi => h'.ids id (h.ids id hi)⟩

theorem act_agree (s : Store) (ha : a.Gentle) : s.Agree (s.act a).2 := by
  refine ⟨act_unique s a, fun hu r hr => ⟨fun h => act_spares hu h (ha.spares hr), fun h => ?_⟩,
    fun id hi => act_ids s a hi (by rintro rfl; exact ha)⟩
  rcases act_records hu a h with ⟨t, ht, hc⟩ | ⟨w, id, -, -, -, rfl⟩
  · rw [hc.gentle ha hr]
    exact ht
  · rcases hr with hr | hr <;> cases hr

/-! ## Sparing some records -/

/-- The records that satisfy `p` are there afterwards as they were. -/
structure Spares (p : Record → Prop) (s s' : Store) : Prop where
  unique : s.Unique → s'.Unique
  spared : s.Unique → ∀ r ∈ s.records, p r → r ∈ s'.records

theorem Spares.refl (p : Record → Prop) (s : Store) : Spares p s s := ⟨id, fun _ _ h _ => h⟩

theorem Spares.weaken {p q : Record → Prop} (h : Spares p s s') (hq : ∀ r, q r → p r) :
    Spares q s s' := ⟨h.unique, fun hu r hr hqr => h.spared hu r hr (hq r hqr)⟩

theorem Spares.act {p : Record → Prop} (h : Spares p s s') (ha : ∀ r, p r → a.Spares r) :
    Spares p s (s'.act a).2 :=
  ⟨act_unique s' a ∘ h.unique, fun hu r hr hp =>
    act_spares (h.unique hu) (h.spared hu r hr hp) (ha r hp)⟩

theorem Agree.spares {s s' : Store} (h : s.Agree s') : s.Spares Record.Lasting s' :=
  ⟨h.unique, fun hu r hr hl => (h.lasting hu r hl).1 hr⟩

theorem claim_spares {s s' : Store} {engine pool : String} {most : Nat} {ws : List Workflow}
    (h : s.claim engine pool most = (ws, s')) : s.Spares (fun r => r.status ≠ .ready) s' := by
  have hs : s' = (s.act (.claim engine pool most)).2 := by
    show s' = (s.claim engine pool most).2
    rw [h]
  rw [hs]
  exact (Spares.refl _ s).act fun r hr => by
    show r.claimable pool = false
    simp [Record.claimable, hr]

end Store

/-! ## Gentle work -/

namespace Database

/-- What happened to the database is the business of no instance that runs or is finished. -/
structure Mild (d d' : Database) : Prop where
  aside : d.Aside d'
  agree : d.store.Agree d'.store

theorem Mild.refl (d : Database) : d.Mild d := ⟨.refl d, .refl d.store⟩

theorem Mild.trans {d₁ d₂ d₃ : Database} (h : d₁.Mild d₂) (h' : d₂.Mild d₃) : d₁.Mild d₃ :=
  ⟨h.aside.trans h'.aside, h.agree.trans h'.agree⟩

/-- Nothing was done but telling. -/
def Told (d d' : Database) : Prop := ∃ journal, d' = { d with journal }

theorem Told.refl (d : Database) : d.Told d := ⟨d.journal, rfl⟩

theorem Told.trans {d₁ d₂ d₃ : Database} (h : d₁.Told d₂) (h' : d₂.Told d₃) : d₁.Told d₃ := by
  obtain ⟨j, rfl⟩ := h
  obtain ⟨j', rfl⟩ := h'
  exact ⟨j', rfl⟩

theorem Told.store {d d' : Database} (h : d.Told d') : d'.store = d.store := by
  obtain ⟨j, rfl⟩ := h
  rfl

theorem Told.mild {d d' : Database} (h : d.Told d') : d.Mild d' := by
  obtain ⟨j, rfl⟩ := h
  exact ⟨⟨rfl, rfl, id, id, id⟩, .refl d.store⟩

theorem told_tell (d : Database) (e : Event) : d.Told (d.tell e) := ⟨_, rfl⟩

theorem told_tellAll (d : Database) (es : List Event) : d.Told (d.tellAll es) := by
  induction es generalizing d with
  | nil => exact .refl d
  | cons e es ih => exact (d.told_tell e).trans (ih (d.tell e))

theorem mild_of_store {d d' : Database} (ha : d.Aside d') (hs : d'.store = d.store) : d.Mild d' :=
  ⟨ha, by rw [hs]; exact .refl d.store⟩

/-- What fails leaves the store alone, when no commit fails after it took effect. -/
theorem mild_of_error {α : Type} {w : Work α} (hw : w.Discreet) {d d' : Database} (hd : d.Timely)
    {e : Failure} (h : (Work.transact w).on d = (.error e, d')) : d.Mild d' := by
  have ha := Work.discreet_transact hw d
  rw [h] at ha
  exact mild_of_store ha (Work.transact_error hw hd h)

end Database

namespace Work

variable {α : Type}

/-- Work that is the business of no instance that runs or is finished. -/
structure Gentle (w : Work α) : Prop where
  discreet : w.Discreet
  keeps : ∀ s : Store, w.Keeps s.Agree fun _ => True

theorem Gentle.mild {w : Work α} (h : w.Gentle) (d : Database) : d.Mild (w.on d).2 :=
  ⟨h.discreet d, (h.keeps d.store d (.refl _)).1⟩

theorem Gentle.transact {w : Work α} (h : w.Gentle) : (Work.transact w).Gentle :=
  ⟨discreet_transact h.discreet, fun s => keeps_transact (h.keeps s)⟩

theorem gentle_insert (ws : List Workflow) : (insert ws).Gentle :=
  ⟨discreet_call _ _, fun _ => keeps_insert fun t _ _ h => h.trans (t.act_agree trivial)⟩

theorem gentle_notify (rs : List Response) : (notify rs).Gentle :=
  ⟨discreet_callTotal _ _, fun _ => keeps_notify fun t _ _ h => h.trans (t.act_agree trivial)⟩

theorem gentle_restart (id : Uuid) : (restart id).Gentle :=
  ⟨discreet_call _ _, fun _ => keeps_call fun t h =>
    h.trans (t.act_agree (a := .restart id) trivial)⟩

theorem gentle_restartAll : restartAll.Gentle :=
  ⟨discreet_callTotal _ _, fun _ => keeps_callTotal fun t h =>
    h.trans (t.act_agree (a := .restartAll) trivial)⟩

theorem gentle_sweep (most : Nat) : (sweep most).Gentle :=
  ⟨discreet_clock (f := fun now => callTotal .sweep fun s => s.sweep now most)
      fun _ => discreet_callTotal _ _,
    fun _ => keeps_clock (f := fun now => callTotal .sweep fun s => s.sweep now most)
      fun now => keeps_callTotal fun t h => h.trans (t.act_agree (a := .sweep now most) trivial)⟩

theorem gentle_promote (most : Nat) : (promote most).Gentle :=
  ⟨discreet_clock (f := fun now => callTotal .promote fun s => s.promote now most)
      fun _ => discreet_callTotal _ _,
    fun _ => keeps_clock (f := fun now => callTotal .promote fun s => s.promote now most)
      fun now => keeps_callTotal fun t h => h.trans (t.act_agree (a := .promote now most) trivial)⟩

theorem gentle_load (id : Uuid) : (load id).Gentle :=
  ⟨discreet_callTotal _ _, fun _ => keeps_callTotal fun _ h => h⟩

theorem gentle_executeAll (a : Access) (r : Response) : (executeAll a [.notify r]).Gentle :=
  ⟨discreet_executeAll _ _, fun _ => keeps_executeAll _ fun t c hc h => by
    cases List.mem_singleton.1 hc
    exact h.trans (t.act_agree trivial)⟩

theorem keeps_execute_others {a : Access} {c : Command} {id : Uuid} (hc : c.instanceId? = some id)
    (s : Store) : (executeAll a [c]).Keeps (s.Spares fun r => r.id ≠ id) fun _ => True := by
  refine keeps_executeAll _ fun t x hx h => h.act fun r hr => ?_
  cases List.mem_singleton.1 hx
  cases c with
  | notify r => cases hc
  | _ => cases hc; exact hr

/-- A recovery spares all that the engine does not run. -/
theorem keeps_recover_others (a : Access) (s : Store) :
    (recover a).Keeps (s.Spares fun r => r.status ≠ .running a.engine) fun _ => True :=
  keeps_callTotal fun _ h => h.act (a := .recover a.engine) fun _ hr => hr

end Work

end Resumption
