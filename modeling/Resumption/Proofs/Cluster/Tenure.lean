import Mathlib.Data.List.Perm.Basic
import Resumption.Proofs.Cluster.Happening
import Resumption.Proofs.Store.Exclusion

/-!
# Who runs what

`Tenure` is the invariant of engines over one database: every dispatch under way has its instance to
itself, and the instance runs for the engine of the dispatch. It also holds of the store that an open
transaction would go back to, because no instance begins to run or is finished in between
(`Tenure.back`).

`Manned` is the other half: of two engines that claim under the same name, at most one has something
going on. This is what makes a recovery harmless, which takes all instances from a name.

`Tenure.stride` is the step of one engine, and `Tenure.hold` and `Tenure.ended` those of a
transaction that a caller holds. **In each of them every finished instance lasts, and no instance of
a dispatch under way is touched, but for the one that its dispatch settles** (`Endures`).
-/

namespace Resumption

namespace Database

/-- The instance runs for the engine. -/
def Runs (d : Database) (engine : String) (subject : Option Uuid) : Prop :=
  ∃ r ∈ d.store.records, some r.id = subject ∧ r.status = .running engine

/-- What is finished stays as it is. -/
def Lasts (d d' : Database) : Prop :=
  ∀ r ∈ d.store.records, r.status = .finished → r ∈ d'.store.records

theorem Lasts.refl (d : Database) : d.Lasts d := fun _ h _ => h

variable {d d' : Database} {p : Record → Prop} {engine : String} {subject : Option Uuid}

theorem Runs.spared (h : d.Runs engine subject) (hu : d.store.Unique)
    (hs : d.store.Spares p d'.store)
    (hp : ∀ r : Record, some r.id = subject → r.status = .running engine → p r) :
    d'.Runs engine subject := by
  obtain ⟨r, hr, hid, hst⟩ := h
  exact ⟨r, hs.spared hu r hr (hp r hid hst), hid, hst⟩

theorem lasts_of_spares (hu : d.store.Unique) (hs : d.store.Spares p d'.store)
    (hp : ∀ r ∈ d.store.records, r.status = .finished → p r) : d.Lasts d' :=
  fun r hr hst => hs.spared hu r hr (hp r hr hst)

end Database

/-! ## The invariant -/

/-- Every dispatch under way has its instance to itself, and the instance runs for its engine. -/
structure Tenure (es : List Engine) (d : Database) : Prop where
  timely : d.Timely
  unique : d.store.Unique
  back : ∀ b, d.held = some b →
    b.Unique ∧ ∀ r ∈ d.store.records, r.Lasting → r ∈ b.records
  sole : (es.flatMap Engine.subjects).Nodup
  runs : ∀ e ∈ es, ∀ s ∈ e.subjects, d.Runs e.claimant s

/-- Of two engines that claim under one name, one is at rest. -/
def Engine.Apart (e o : Engine) : Prop :=
  o.claimant = e.claimant → e.atRest = true ∨ o.atRest = true

/-- Engines that are sound, where nothing goes on before the start, and where names are not shared by
engines that are not at rest. -/
structure Manned (es : List Engine) : Prop where
  sound : ∀ e ∈ es, e.Sound
  unborn : ∀ e ∈ es, e.lifecycle = .raw → e.isOver = true
  apart : es.Pairwise Engine.Apart

theorem Engine.Apart.symm {e o : Engine} (h : e.Apart o) : o.Apart e :=
  fun hc => (h hc.symm).symm

theorem Engine.isOver_subjects {e : Engine} (h : e.isOver = true) : e.subjects = [] := by
  rw [Engine.subjects, Engine.isOver_dispatches h]
  rfl

theorem Engine.atRest_subjects {e : Engine} (h : e.atRest = true) : e.subjects = [] := by
  simp only [Engine.atRest, Bool.and_eq_true] at h
  exact Engine.isOver_subjects h.1

/-- What is finished stays as it is, and so do the instances of dispatches under way, but for the one
that is settled. -/
structure Endures (es : List Engine) (d d' : Database) (settled : Option Uuid) : Prop where
  lasts : d.Lasts d'
  keeps : ∀ o ∈ es, ∀ s ∈ o.subjects, s ≠ settled → ∀ r ∈ d.store.records, some r.id = s →
    r ∈ d'.store.records

section
variable {e e' : Engine} {es es' : List Engine} {d d' : Database} {settled : Option Uuid}

theorem Endures.refl (es : List Engine) (d : Database) : Endures es d d settled :=
  ⟨.refl d, fun _ _ _ _ _ _ hr _ => hr⟩

theorem Endures.perm (h : Endures es d d' settled) (hp : es.Perm es') : Endures es' d d' settled :=
  ⟨h.lasts, fun o ho => h.keeps o (hp.mem_iff.2 ho)⟩

theorem Tenure.endures (h : Tenure es d) {p : Record → Prop} (hs : d.store.Spares p d'.store)
    (fin : ∀ r ∈ d.store.records, r.status = .finished → p r)
    (hp : ∀ o ∈ es, ∀ s ∈ o.subjects, s ≠ settled → ∀ r : Record, some r.id = s →
      r.status = .running o.claimant → p r) : Endures es d d' settled := by
  refine ⟨Database.lasts_of_spares h.unique hs fin, fun o ho s hm hne r hr hid => ?_⟩
  obtain ⟨t, ht, htid, hst⟩ := h.runs o ho s hm
  obtain rfl := h.unique.eq hr ht (Option.some.inj (hid.trans htid.symm))
  exact hs.spared h.unique r hr (hp o ho s hm hne r hid hst)

theorem Tenure.perm (h : Tenure es d) (hp : es.Perm es') : Tenure es' d :=
  ⟨h.timely, h.unique, h.back, (hp.flatMap_right _).nodup_iff.1 h.sole,
    fun e he => h.runs e (hp.mem_iff.2 he)⟩

theorem Manned.perm (h : Manned es) (hp : es.Perm es') : Manned es' :=
  ⟨fun e he => h.sound e (hp.mem_iff.2 he), fun e he => h.unborn e (hp.mem_iff.2 he),
    hp.pairwise h.apart fun h => h.symm⟩

/-- An engine at a place among others, and what is put in its place. -/
theorem perm_at {i : Nat} (h : es[i]? = some e) (e' : Engine) :
    es.Perm (e :: es.eraseIdx i) ∧ (es.set i e').Perm (e' :: es.eraseIdx i) := by
  obtain ⟨hlt, rfl⟩ := List.getElem?_eq_some_iff.1 h
  exact ⟨(List.getElem_cons_eraseIdx_perm hlt).symm, List.set_perm_cons_eraseIdx hlt e'⟩

theorem Tenure.join (h : Tenure es d) (he : e.Fresh) : Tenure (e :: es) d := by
  have hn := Engine.atRest_subjects he.atRest
  refine ⟨h.timely, h.unique, h.back, ?_, fun o ho s hs => ?_⟩
  · rw [List.flatMap_cons, hn]
    exact h.sole
  · rcases List.mem_cons.1 ho with rfl | ho
    · rw [hn] at hs
      cases hs
    · exact h.runs o ho s hs

theorem Manned.join (h : Manned es) (he : e.Fresh) : Manned (e :: es) :=
  ⟨List.forall_mem_cons.2 ⟨he.sound, h.sound⟩, List.forall_mem_cons.2 ⟨fun _ => he.quiet, h.unborn⟩,
    List.pairwise_cons.2 ⟨fun _ _ _ => .inl he.atRest, h.apart⟩⟩

/-! ## Steps of the database -/

/-- Nobody begins or ends to run, and nobody is finished or stops being so. -/
theorem Tenure.still (h : Tenure es d) (ht : d'.Timely)
    (hs : d.store.Spares Record.Lasting d'.store)
    (hb : ∀ b, d'.held = some b → b.Unique ∧ ∀ r ∈ d'.store.records, r.Lasting → r ∈ b.records) :
    Tenure es d' ∧ Endures es d d' settled :=
  ⟨⟨ht, hs.unique h.unique, hb, h.sole, fun e he s hm =>
      (h.runs e he s hm).spared h.unique hs fun _ _ => Record.lasting_running⟩,
    h.endures hs (fun _ _ => Record.lasting_finished) fun _ _ _ _ _ _ _ => Record.lasting_running⟩

theorem Tenure.mild (h : Tenure es d) (hm : d.Mild d') :
    Tenure es d' ∧ Endures es d d' settled := by
  refine h.still (hm.aside.timely h.timely) hm.agree.spares fun b hb => ?_
  rw [hm.aside.held] at hb
  obtain ⟨hu, hl⟩ := h.back b hb
  exact ⟨hu, fun r hr hlast => hl r ((hm.agree.lasting h.unique r hlast).2 hr) hlast⟩

theorem Tenure.weather (h : Tenure es d) {faults : List Fault} (clock : Instant)
    (hf : ∀ f ∈ faults, f.method = .commit → f.after = false) :
    Tenure es { d with faults, clock } ∧ Endures es d { d with faults, clock } settled :=
  ⟨⟨hf, h.unique, h.back, h.sole, h.runs⟩, ⟨fun _ hr _ => hr, fun _ _ _ _ _ _ hr _ => hr⟩⟩

theorem Tenure.hold (h : Tenure es d) :
    Tenure es (Work.hold.on d).2 ∧ Endures es d (Work.hold.on d).2 settled := by
  obtain ⟨d₁, ha, hs, ⟨e, h'⟩ | h'⟩ := d.hold_cases <;> rw [h']
  · exact h.mild (Database.mild_of_store ha hs)
  · have hspares : d.store.Spares Record.Lasting d₁.store := hs ▸ .refl _ _
    refine h.still (ha.timely h.timely) hspares ?_
    intro b hb
    cases hb
    exact ⟨h.unique, fun r hr _ => hs ▸ hr⟩

/-- The transaction that a caller held has ended, in any way. -/
theorem Tenure.ended (h : Tenure es d) {f : Store → Work Unit} (hd : ∀ s, (f s).Discreet)
    (hf : ∀ {P : Store → Prop} s, P s → Work.Keeps P (f s) fun _ => True) :
    Tenure es ((Work.release >>= f).on d).2 ∧
      Endures es d ((Work.release >>= f).on d).2 settled := by
  obtain ⟨hn, htimely⟩ := d.ended_free hd
  obtain ⟨hstore, -⟩ := Database.end_both
    (P := fun s => s.Unique ∧ ∀ r ∈ d.store.records, r.Lasting → r ∈ s.records) (d := d) (f := f)
    ⟨⟨h.unique, fun r hr _ => hr⟩, h.back⟩ fun s hs => hf s hs
  refine h.still (htimely h.timely) ⟨fun _ => hstore.1, fun _ => hstore.2⟩ fun b hb => ?_
  rw [hn] at hb
  cases hb

/-! ## The step of an engine -/

theorem Manned.alone (h : Manned (e :: es)) (he : e.atRest = false) {o : Engine} (ho : o ∈ es)
    (hc : o.claimant = e.claimant) : o.atRest = true :=
  ((List.pairwise_cons.1 h.apart).1 o ho hc).resolve_left (by rw [he]; exact Bool.false_ne_true)

/-- The instances of dispatches that are neither new nor settled run on. -/
theorem Tenure.runsOn (h : Tenure es d) (hd : Endures es d d' settled) {o : Engine} (ho : o ∈ es)
    {s : Option Uuid} (hm : s ∈ o.subjects) (hne : s ≠ settled) : d'.Runs o.claimant s := by
  obtain ⟨r, hr, hid, hst⟩ := h.runs o ho s hm
  exact ⟨r, hd.keeps o ho s hm hne r hr hid, hid, hst⟩

/-- After a transaction of its own an engine has these dispatches. -/
theorem Tenure.after (h : Tenure (e :: es) d) (free : d.held = none) (aside : d.Aside d')
    (unique : d'.store.Unique) (sole : (e'.subjects ++ es.flatMap Engine.subjects).Nodup)
    (own : ∀ s ∈ e'.subjects, d'.Runs e'.claimant s)
    (others : ∀ o ∈ es, ∀ s ∈ o.subjects, d'.Runs o.claimant s) : Tenure (e' :: es) d' := by
  refine ⟨aside.timely h.timely, unique, fun b hb => ?_, ?_, ?_⟩
  · rw [aside.held, free] at hb
    cases hb
  · rw [List.flatMap_cons]
    exact sole
  · intro o ho
    rcases List.mem_cons.1 ho with rfl | ho
    · exact own
    · exact others o ho

theorem Tenure.sole_cons (h : Tenure (e :: es) d) :
    (e.subjects ++ es.flatMap Engine.subjects).Nodup := by
  have := h.sole
  rwa [List.flatMap_cons] at this

theorem Tenure.lessen (h : Tenure (e :: es) d) (hc : e'.claimant = e.claimant)
    (subjects : e'.subjects.Sublist e.subjects) (store : d.Mild d') :
    Tenure (e' :: es) d' ∧ Endures (e :: es) d d' settled := by
  obtain ⟨h', hd⟩ := h.mild store
  refine ⟨⟨h'.timely, h'.unique, h'.back, ?_, ?_⟩, hd⟩
  · rw [List.flatMap_cons]
    exact (subjects.append (.refl _)).nodup h.sole_cons
  · intro o ho s hmem
    rcases List.mem_cons.1 ho with rfl | ho
    · rw [hc]
      exact h'.runs e List.mem_cons_self s (subjects.subset hmem)
    · exact h'.runs o (List.mem_cons_of_mem _ ho) s hmem

theorem Tenure.settle (h : Tenure (e :: es) d) (hc : e'.claimant = e.claimant)
    {l₁ l₂ : List (Option Uuid)} (before : e.subjects = l₁ ++ settled :: l₂)
    (after : e'.subjects = l₁ ++ l₂) (free : d.held = none) (aside : d.Aside d')
    (store : d.store.Spares (fun r => some r.id ≠ settled) d'.store) :
    Tenure (e' :: es) d' ∧ Endures (e :: es) d d' settled := by
  have sole := h.sole_cons
  rw [before, List.append_assoc, List.cons_append, List.nodup_middle, List.nodup_cons,
    ← List.append_assoc, ← after] at sole
  obtain ⟨hne, sole⟩ := sole
  -- the instance is nobody else's, and it is not finished
  have ne : ∀ s ∈ e'.subjects ++ es.flatMap Engine.subjects, s ≠ settled := fun s hm he =>
    hne (he ▸ hm)
  have kept : e'.subjects ⊆ e.subjects := by
    rw [after, before]
    exact List.append_subset.2 ⟨List.subset_append_left _ _, fun s hm =>
      List.mem_append_right _ (List.mem_cons_of_mem _ hm)⟩
  obtain ⟨t, ht, htid, hts⟩ := h.runs e List.mem_cons_self settled (by rw [before]; simp)
  have hd : Endures (e :: es) d d' settled := by
    refine h.endures store (fun r hr hst he => ?_) fun o _ s _ hs r hid _ he => hs (hid ▸ he)
    rw [h.unique.eq hr ht (Option.some.inj (he.trans htid.symm)), hts] at hst
    cases hst
  refine ⟨h.after free aside (store.unique h.unique) sole (fun s hm => ?_) fun o ho s hm => ?_, hd⟩
  · rw [hc]
    exact h.runsOn hd List.mem_cons_self (kept hm) (ne s (List.mem_append_left _ hm))
  · exact h.runsOn hd (List.mem_cons_of_mem _ ho) hm
      (ne s (List.mem_append_right _ (List.mem_flatMap.2 ⟨o, ho, hm⟩)))

theorem Tenure.claim (h : Tenure (e :: es) d) (hc : e'.claimant = e.claimant) {pool : String}
    {most : Nat} {ws : List Workflow} (subjects : e'.subjects.Perm (e.subjects ++ ws.map (·.id)))
    (free : d.held = none) (aside : d.Aside d')
    (store : d.store.claim e.claimant pool most = (ws, d'.store)) :
    Tenure (e' :: es) d' ∧ Endures (e :: es) d d' settled := by
  have spares := Store.claim_spares store
  have busy : ∀ n, ∀ r : Record, r.status = .running n → r.status ≠ .ready := fun n r hr => by
    rw [hr]; exact fun h => nomatch h
  refine ⟨h.after free aside (spares.unique h.unique) ?_ (fun s hm => ?_) fun o ho s hm => ?_,
    h.endures spares (fun r _ hst => by rw [hst]; exact fun h => nomatch h)
      fun o _ s _ _ r _ hr => busy _ r hr⟩
  · have hp : (e'.subjects ++ es.flatMap Engine.subjects).Perm
        (e.subjects ++ es.flatMap Engine.subjects ++ ws.map (·.id)) :=
      (subjects.append_right _).trans (by
        simp only [List.append_assoc]
        exact List.perm_append_comm.append_left _)
    rw [hp.nodup_iff]
    refine List.nodup_append.2 ⟨h.sole_cons, Store.claim_once h.unique store,
      fun s hm _ hw he => ?_⟩
    subst he
    -- what is claimed was ready, and so it was nobody's
    obtain ⟨r, hr, hid, hready, -⟩ := Store.claim_runs store hw
    rw [← List.flatMap_cons] at hm
    obtain ⟨o, ho, hm⟩ := List.mem_flatMap.1 hm
    obtain ⟨t, ht, htid, hts⟩ := h.runs o ho s hm
    exact busy _ t hts (h.unique.eq hr ht (Option.some.inj (hid.trans htid.symm)) ▸ hready)
  · rw [hc]
    rcases List.mem_append.1 (subjects.mem_iff.1 hm) with hm | hm
    · exact (h.runs e List.mem_cons_self s hm).spared h.unique spares fun r _ hr => busy _ r hr
    · obtain ⟨r, -, hid, -, r', hr', hid', hst'⟩ := Store.claim_runs store hm
      exact ⟨r', hr', by rw [hid', hid], hst'⟩
  · exact (h.runs o (List.mem_cons_of_mem _ ho) s hm).spared h.unique spares fun r _ hr => busy _ r hr

theorem Tenure.recover (h : Tenure (e :: es) d) (quiet : e.subjects = [])
    (alone : ∀ o ∈ es, o.claimant = e.claimant → o.atRest = true) (after : e'.subjects = [])
    (free : d.held = none) (aside : d.Aside d')
    (store : d.store.Spares (fun r => r.status ≠ .running e.claimant) d'.store) :
    Tenure (e' :: es) d' ∧ Endures (e :: es) d d' settled := by
  -- whoever claims under the same name has no dispatches
  have others : ∀ o ∈ e :: es, ∀ s ∈ o.subjects, ∀ r : Record, r.status = .running o.claimant →
      r.status ≠ .running e.claimant := fun o ho s hm r hr he => by
    have hn : o.subjects = [] := by
      rcases List.mem_cons.1 ho with rfl | ho
      · exact quiet
      · exact Engine.atRest_subjects (alone o ho (Status.running.inj (hr.symm.trans he)))
    rw [hn] at hm
    cases hm
  refine ⟨h.after free aside (store.unique h.unique) ?_ (fun s hm => by rw [after] at hm; cases hm)
    fun o ho s hm => ?_, h.endures store (fun r _ hst => by rw [hst]; exact fun h => nomatch h)
      fun o ho s hm _ r _ => others o ho s hm r⟩
  · rw [after]
    exact (List.nodup_append.1 h.sole_cons).2.1
  · have ho := List.mem_cons_of_mem e ho
    exact (h.runs o ho s hm).spared h.unique store fun r _ => others o ho s hm r

/-- **A step of an engine** keeps every dispatch in possession of its instance. What is finished lasts,
and the instance of a dispatch is only touched when it is settled. -/
theorem Tenure.stride (h : Tenure (e :: es) d) (hm : Manned (e :: es))
    (hs : e.Stride d e' d' settled) : Tenure (e' :: es) d' ∧ Endures (e :: es) d d' settled := by
  cases hs.deed with
  | mild subjects store => exact h.lessen hs.claimant subjects store
  | settled l₁ l₂ before after free aside store =>
    exact h.settle hs.claimant before after free aside store
  | claimed pool most ws subjects free aside store =>
    exact h.claim hs.claimant subjects free aside store
  | recovered quiet awake after free aside store =>
    exact h.recover (Engine.isOver_subjects quiet) (fun o => hm.alone awake) after free aside store


/-- The step of an engine among others, after which it is at rest if it was, or all others are that
claim under its name. -/
theorem Manned.stride (h : Manned (e :: es)) (hs : e.Stride d e' d' settled) (ha : e.Aged e')
    (hr : (e.atRest = true → e'.atRest = true) ∨
      ∀ o ∈ es, o.claimant = e.claimant → o.atRest = true) : Manned (e' :: es) := by
  obtain ⟨hpair, hrest⟩ := List.pairwise_cons.1 h.apart
  refine ⟨fun o ho => ?_, fun o ho hl => ?_, List.pairwise_cons.2 ⟨fun o ho hc => ?_, hrest⟩⟩
  · rcases List.mem_cons.1 ho with rfl | ho
    · exact hs.sound
    · exact h.sound o (List.mem_cons_of_mem _ ho)
  · rcases List.mem_cons.1 ho with rfl | ho
    · refine ha.quiet (.inr hl) (h.unborn e List.mem_cons_self ?_)
      exact Classical.byContradiction fun hn => ha.born hn hl
    · exact h.unborn o (List.mem_cons_of_mem _ ho) hl
  · rw [hs.claimant] at hc
    rcases hr with hr | hr
    · exact (hpair o ho hc).imp_left hr
    · exact .inr (hr o ho hc)

end

end Resumption
