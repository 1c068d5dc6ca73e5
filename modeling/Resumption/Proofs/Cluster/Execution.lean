import Resumption.Proofs.Cluster.Numbering
import Resumption.Proofs.Cluster.Tenure

/-!
# No double execution

Many engines over one store, each with its own pools, whatever happens to them as long as it is
permitted (`Cluster.Permits`).

**Invariant.** `Cluster.Sound`: every dispatch under way has its instance to itself, and the instance
runs for its engine (`Tenure`); engines that claim under one name are not busy at the same time
(`Manned`); and each request under way is in a phase that its engine allows, with at most one start
of an engine that opens the storage (`Orderly`). `Sound.happen` is the step.

**Result.** `no_double_execution`: at every moment no instance has two executions, each execution's
instance runs and is claimed by its engine, every execution commits at most one outcome and is over
then, nothing else touches its instance, and what is finished stays so.
-/

namespace Resumption

namespace Cluster

/-! ## Requests -/

/-- Each request has its own number and is in a phase that its engine allows; one start of an engine
opens the storage. -/
structure Orderly (c : Cluster) : Prop where
  begun : ∀ r ∈ c.requests, r.serial < c.issued
  once : (c.requests.map (·.serial)).Nodup
  seated : ∀ r ∈ c.requests, ∃ e, c.engines[r.engine]? = some e ∧ r.task.Sound e
  opening : ∀ r ∈ c.requests, ∀ q ∈ c.requests, r.engine = q.engine →
    r.task.isOpening = true → q.task.isOpening = true → r = q

section
variable {c c' : Cluster}

theorem Orderly.numbered (h : c.Orderly) : c.Numbered := ⟨h.begun, h.once⟩

/-- No request came, and those that are left are in phases that their engines allow. -/
theorem Orderly.sub (h : c.Orderly) (hi : c'.issued = c.issued)
    (hr : c'.requests.Sublist c.requests)
    (hs : ∀ q ∈ c'.requests, ∀ e, c.engines[q.engine]? = some e → q.task.Sound e →
      ∃ e', c'.engines[q.engine]? = some e' ∧ q.task.Sound e') : c'.Orderly where
  begun := (h.numbered.sub hi hr).begun
  once := (h.numbered.sub hi hr).once
  seated q hm := by
    obtain ⟨e, he, ht⟩ := h.seated q (hr.subset hm)
    exact hs q hm e he ht
  opening r hm q hq := h.opening r (hr.subset hm) q (hr.subset hq)

theorem seated_set {es : List Engine} {place : Nat} {e e' : Engine} (he : es[place]? = some e)
    {q : Request} (hs : q.engine = place → q.task.Sound e → q.task.Sound e') {o : Engine}
    (ho : es[q.engine]? = some o) (ht : q.task.Sound o) :
    ∃ o', (es.set place e')[q.engine]? = some o' ∧ q.task.Sound o' := by
  by_cases hq : q.engine = place
  · rw [hq] at ho ⊢
    cases he.symm.trans ho
    exact ⟨e', by rw [List.getElem?_set_self', he]; rfl, hs hq ht⟩
  · exact ⟨o, by rw [List.getElem?_set_ne (Ne.symm hq)]; exact ho, ht⟩

end

/-! ## The invariant -/

/-- What holds of a cluster at every moment. -/
structure Sound (c : Cluster) : Prop where
  tenure : Tenure c.engines c.site.db
  manned : Manned c.engines
  orderly : c.Orderly

/-- Engines and a database after those of the cluster. -/
structure Moves (c : Cluster) (es : List Engine) (d : Database) (settled : Option Uuid := none) :
    Prop where
  tenure : Tenure es d
  manned : Manned es
  endures : Endures c.engines c.site.db d settled
  later : ∀ (i : Nat) (e : Engine), c.engines[i]? = some e → ∃ e', es[i]? = some e' ∧ e.Later e'

/-- What holds after something happened, and what is as before. -/
structure Follows (c c' : Cluster) (settled : Option Uuid := none) : Prop where
  moves : c.Moves c'.engines c'.site.db settled
  orderly : c'.Orderly

/-- What holds after several things happened, and what is as before. -/
structure Reaches (c c' : Cluster) : Prop where
  sound : c'.Sound
  lasts : c.site.db.Lasts c'.site.db
  later : ∀ (i : Nat) (e : Engine), c.engines[i]? = some e →
    ∃ e', c'.engines[i]? = some e' ∧ e.Later e'

variable {c c' c'' : Cluster} {settled : Option Uuid}

theorem Sound.follows (h : c.Sound) : c.Follows c settled :=
  ⟨⟨h.tenure, h.manned, .refl _ _, fun _ e he => ⟨e, he, .refl _⟩⟩, h.orderly⟩

theorem Follows.reaches (h : c.Follows c' settled) : c.Reaches c' :=
  ⟨⟨h.moves.tenure, h.moves.manned, h.orderly⟩, h.moves.endures.lasts, h.moves.later⟩

theorem Sound.reaches (h : c.Sound) : c.Reaches c := have hf : c.Follows c := h.follows; hf.reaches

theorem Reaches.trans (h : c.Reaches c') (h' : c'.Reaches c'') : c.Reaches c'' := by
  refine ⟨h'.sound, fun r hr hst => h'.lasts r (h.lasts r hr hst) hst, fun i e he => ?_⟩
  obtain ⟨e', he', hl⟩ := h.later i e he
  obtain ⟨e'', he'', hl'⟩ := h'.later i e' he'
  exact ⟨e'', he'', hl.trans hl'⟩

theorem Follows.undisturbed {x : Happening} (h : c.Follows (c.happen x) (c.settled? x)) :
    c.Undisturbed x := by
  intro e y hx hne r hr hid
  obtain ⟨o, ho, hy⟩ := List.mem_flatMap.1 hx
  obtain ⟨z, hz, heq⟩ := List.mem_map.1 hy
  cases heq
  exact h.moves.endures.keeps e ho _ (List.mem_map_of_mem hz) hne r hr hid

/-- The database has changed, and the engines have not. -/
theorem Sound.database (h : c.Sound) {d : Database}
    (hd : Tenure c.engines d ∧ Endures c.engines c.site.db d settled) :
    c.Moves c.engines d settled :=
  ⟨hd.1, h.manned, hd.2, fun _ e he => ⟨e, he, .refl _⟩⟩

theorem Sound.moves (h : c.Sound) {place : Nat} {e e' : Engine} {d : Database}
    (he : c.engines[place]? = some e) (hs : e.Stride c.site.db e' d settled) (ha : e.Aged e')
    (hr : (e.atRest = true → e'.atRest = true) ∨ c.Alone place) :
    c.Moves (c.engines.set place e') d settled := by
  obtain ⟨hp, hp'⟩ := perm_at he e'
  have hm := h.manned.perm hp
  obtain ⟨ht, hd⟩ := (h.tenure.perm hp).stride hm hs
  refine ⟨ht.perm hp'.symm, (hm.stride hs ha (hr.imp_right fun hr => hr e he)).perm hp'.symm,
    hd.perm hp.symm, fun i o ho => ?_⟩
  by_cases hi : place = i
  · subst hi
    cases he.symm.trans ho
    exact ⟨e', by rw [List.getElem?_set_self', he]; rfl, hs.later⟩
  · exact ⟨o, by rw [List.getElem?_set_ne hi]; exact ho, .refl _⟩

/-! ## Steps of an engine on its own -/

theorem Sound.stepEngine (h : c.Sound) {place : Nat} {f : Engine → Site → Engine × Site}
    (hf : ∀ e, c.engines[place]? = some e →
      e.Stride c.site.db (f e c.site).1 (f e c.site).2.db settled ∧ e.Placid (f e c.site).1) :
    c.Follows (c.stepEngine place f) settled := by
  unfold Cluster.stepEngine
  split
  · exact h.follows
  · rename_i e he
    obtain ⟨hs, hp⟩ := hf e he
    exact ⟨h.moves he hs hp.aged (.inl hp.atRest), h.orderly.sub rfl (.refl _)
      fun q _ o ho ht => seated_set he (fun _ hq => hq.placid hp) ho ht⟩

theorem Sound.stepStorage (h : c.Sound) {place : Nat}
    {f : Storage → Database → Storage × Database}
    (hf : ∀ e, c.engines[place]? = some e →
      e.storage.Alike (f e.storage c.site.db).1 ∧ c.site.db.Mild (f e.storage c.site.db).2) :
    c.Follows (c.stepStorage place f) := by
  refine h.stepEngine fun e he => ?_
  obtain ⟨ha, hm⟩ := hf e he
  have hc := Engine.calm_storage ha
  exact ⟨hc.alike.stride (h.manned.sound e (List.mem_of_getElem? he)) hm, hc.placid⟩

/-! ## Steps of requests -/

section
variable {r : Request} {e e' : Engine} {x : Site} {t : Task}

/-- No other start of the engine opens the storage when this one does. -/
theorem Orderly.sole (h : c.Orderly) (hr : r ∈ c.requests) (he : c.engines[r.engine]? = some e)
    (hs : TaskStride e c.site r.task (.going t, e', x)) (ht : t.isOpening = true) {q : Request}
    (hq : q ∈ c.requests) (hne : q.serial ≠ r.serial) (heng : q.engine = r.engine) :
    q.task.isOpening ≠ true := by
  intro ho
  obtain ⟨o, hoe, hsound⟩ := h.seated q hq
  rw [heng] at hoe
  cases he.symm.trans hoe
  rcases hs.opens t rfl ht with hrt | hch
  · exact hne (congrArg _ (h.opening q hq r hr heng ho hrt))
  · have := (hsound.opening ho).2
    rw [hch] at this
    cases this

theorem Orderly.going (h : c.Orderly) (hr : r ∈ c.requests) (he : c.engines[r.engine]? = some e)
    (hs : TaskStride e c.site r.task (.going t, e', x)) :
    Orderly { c.put r.engine e' x with
      requests := c.requests.map fun q => if q.serial = r.serial then { q with task := t } else q } := by
  have hn : Numbered { c.put r.engine e' x with
      requests := c.requests.map fun q => if q.serial = r.serial then { q with task := t } else q } :=
    h.numbered.going hr rfl rfl
  refine ⟨hn.begun, hn.once, fun q hq => ?_, fun q hq q' hq' heng ho ho' => ?_⟩
  · rcases h.numbered.mem_going hr hq with rfl | ⟨hq, hne⟩
    · exact ⟨e', by rw [put, List.getElem?_set_self', he]; rfl, hs.going t rfl⟩
    · obtain ⟨o, ho, ht⟩ := h.seated q hq
      exact seated_set he (fun heng hsound => hs.keeps hsound fun hqo hro =>
        hne (congrArg _ (h.opening q hq r hr heng hqo hro))) ho ht
  · rcases h.numbered.mem_going hr hq with rfl | ⟨hm, hne⟩ <;>
      rcases h.numbered.mem_going hr hq' with rfl | ⟨hm', hne'⟩
    · rfl
    · exact absurd ho' (h.sole hr he hs ho hm' hne' heng.symm)
    · exact absurd ho (h.sole hr he hs ho' hm hne heng)
    · exact h.opening q hm q' hm' heng ho ho'

end

theorem Orderly.without (h : c.Orderly) {r : Request} (hr : r ∈ c.requests) {e : Engine}
    (he : c.engines[r.engine]? = some e) {e' : Engine} (hc : c'.engines = c.engines.set r.engine e')
    (hi : c'.issued = c.issued) (hq : c'.requests = c.requests.filter fun q => q.serial ≠ r.serial)
    (hs : ∀ q : Task, q.Sound e → (q.isOpening = true → r.task.isOpening ≠ true) → q.Sound e') :
    c'.Orderly := by
  refine h.sub hi (hq ▸ List.filter_sublist) fun q hm o ho ht => ?_
  rw [hq] at hm
  obtain ⟨hm, hne⟩ := List.mem_filter.1 hm
  rw [hc]
  refine seated_set he (fun heng hsound => hs _ hsound fun hqo hro => ?_) ho ht
  exact of_decide_eq_true hne (congrArg _ (h.opening q hm r hr heng hqo hro))

theorem Sound.goOn (h : c.Sound) {r : Request} (hr : r ∈ c.requests) {e : Engine}
    (he : c.engines[r.engine]? = some e) (hready : c.taskReady c.site.unlocked e r.task = true)
    (ha : r.task = .starting .entering → c.Alone r.engine) : c.Follows (c.goOn e r) := by
  obtain ⟨o, ho, ht⟩ := h.orderly.seated r hr
  cases he.symm.trans ho
  have hmem := List.mem_of_getElem? he
  have hs := advanceTask_stride (h.manned.sound e hmem) (h.manned.unborn e hmem) ht hready
  have hm := h.moves he hs.stride hs.aged (by
    by_cases hstart : r.task = .starting .entering
    · exact .inr (ha hstart)
    · exact .inl (hs.rest hstart))
  unfold Cluster.goOn
  split <;> rename_i heq <;> rw [heq] at hs hm
  · exact ⟨hm, h.orderly.going hr he hs⟩
  · exact ⟨hm, h.orderly.without hr he rfl rfl rfl fun q => hs.keeps⟩

/-- The start or the stop of an engine is no longer under way. -/
theorem quit_calm (e : Engine) : e.Alike { e with changing := false } ∧
    e.Aged { e with changing := false } ∧
      (e.atRest = true → Engine.atRest { e with changing := false } = true) := by
  refine ⟨Engine.alike_of_eq rfl rfl rfl rfl, ⟨id, fun _ => id⟩, fun hr => ?_⟩
  simp only [Engine.atRest, Bool.and_eq_true] at hr
  simp only [Engine.atRest, Bool.and_false, Bool.not_false, Bool.and_true]
  exact hr.1

theorem Sound.giveUp (h : c.Sound) {r : Request} (hr : r ∈ c.requests) :
    c.Follows (c.giveUp r) := by
  obtain ⟨e, he, ht⟩ := h.orderly.seated r hr
  -- the engine is as before
  have plain : c.Follows { c with requests := c.requests.filter fun q => q.serial ≠ r.serial } :=
    ⟨h.follows.moves, h.orderly.sub rfl List.filter_sublist fun q _ o ho ht => ⟨o, ho, ht⟩⟩
  -- a start or a stop was under way
  have quit : (∀ q : Task, q.isOpening = true → q.Sound e → r.task.isOpening = true) →
      c.Follows (modifyEngine
        { c with requests := c.requests.filter fun q => q.serial ≠ r.serial } r.engine
        fun e => { e with changing := false }) := by
    intro hopen
    obtain ⟨halike, haged, hrest⟩ := quit_calm e
    have hset : c.engines.modify r.engine (fun e => { e with changing := false }) =
        c.engines.set r.engine { e with changing := false } := by
      rw [List.modify_eq_set_getElem?, he]
      rfl
    have hm : c.Moves (c.engines.set r.engine { e with changing := false }) c.site.db :=
      h.moves he (halike.stride (h.manned.sound e (List.mem_of_getElem? he)) (.refl _)) haged
        (.inl hrest)
    rw [← hset] at hm
    refine ⟨hm, h.orderly.without hr he hset rfl rfl fun q hq hne => ?_⟩
    exact hq.aged haged (Bool.eq_false_iff.2 fun ho => hne ho (hopen q ho hq))
  unfold Cluster.giveUp
  dsimp only
  split
  · exact plain
  · exact plain
  · rename_i p hne heq
    refine quit fun q ho hq => ?_
    rw [heq] at ht ⊢
    cases p with
    | entering => exact (hne rfl).elim
    | opening p => rfl
    | closing reason halts => exact absurd (hq.opening ho).1 ht
    | shutting reason p => exact absurd (hq.opening ho).1 ht.1
  · rename_i p hne heq
    refine quit fun q ho hq => ?_
    rw [heq] at ht
    cases p with
    | entering => exact (hne rfl).elim
    | closing halts => exact absurd (hq.opening ho).1 ht
    | shutting outcome p => exact absurd (hq.opening ho).1 ht.1
  · exact plain

/-- A request that can go on, or is late, goes on or is given up. -/
theorem Sound.stepRequest (h : c.Sound) {serial : Nat} (hp : c.Permits (.goes (.request serial))) :
    c.Follows (c.stepRequest serial) := by
  obtain ⟨hready, halone⟩ := hp
  unfold Cluster.stepRequest
  split
  · exact h.follows
  · rename_i r hfind
    obtain ⟨hr, rfl⟩ := request?_some hfind
    split
    · exact h.follows
    · rename_i e he
      split
      · exact h.giveUp hr
      · rename_i hnot
        refine h.goOn hr he (taskReady_of_ready hready hfind he hnot) fun hstart =>
          halone r.engine ?_
        simp only [begins?, hfind, Option.bind_some, hstart]
        rfl

/-! ## What happens -/

theorem settled?_dispatch {engine : Nat} {e : Engine} (he : c.engines[engine]? = some e)
    (place serial : Nat) : c.settled? (.goes (.dispatch engine place serial)) =
      (e.outcome? c.site place serial).bind Prod.fst := by
  rw [settled?, verdict?, he, Option.bind_some, Option.bind_map]
  rfl

theorem Sound.step (h : c.Sound) {a : Actor} (hp : c.Permits (.goes a)) :
    c.Follows (c.step a) (c.settled? (.goes a)) := by
  have hd := h.tenure.timely
  cases a with
  | request serial => exact h.stepRequest hp
  | worker place =>
    refine h.stepStorage (f := stepWorker c.site.time) fun e he => ?_
    rw [stepWorker, (h.manned.sound e (List.mem_of_getElem? he)).sync]
    exact ⟨.refl _, .refl _⟩
  | updater place => exact h.stepStorage fun e _ => Storage.stepUpdater_mild _ _ _
  | reaper place => exact h.stepStorage fun e _ => Storage.stepReaper_mild _ _ _
  | poll engine place =>
    refine h.stepEngine (f := fun e x => e.stepPoll x place) fun e he => Engine.stepPoll_stride
      (h.manned.sound e (List.mem_of_getElem? he)) hd fun p hpool => ?_
    have hready := hp.1
    simpa only [ready, readyWhen, he, Option.bind_some, hpool, Option.map_some,
      Option.getD_some] using hready
  | dispatch engine place serial =>
    refine h.stepEngine (f := fun e x => e.stepDispatch x (c.alive engine) place serial)
      fun e he => ?_
    rw [settled?_dispatch he]
    refine Engine.stepDispatch_stride (h.manned.sound e (List.mem_of_getElem? he)) hd _ _ _
      fun p y hpool hy => ?_
    have hready := hp.1
    simpa only [ready, readyWhen, he, Option.bind_some, hpool, hy, Option.map_some,
      Bool.or_eq_true] using hready

theorem Sound.modifyDatabase (h : c.Sound) {f : Database → Database}
    (hd : Tenure c.engines (f c.site.db) ∧
      Endures c.engines c.site.db (f c.site.db) settled) :
    c.Follows (c.modifyDatabase f) settled :=
  ⟨h.database hd, h.orderly.sub rfl (.refl _) fun _ _ o ho ht => ⟨o, ho, ht⟩⟩

theorem Sound.request (h : c.Sound) {place : Nat} {d : Demand} (hp : place < c.engines.length)
    (hd : d.Allowed) (patience : Option Nat) : c.Follows (c.request place d patience).2 := by
  have hn := h.orderly.numbered.request place d patience
  refine ⟨h.follows.moves, hn.begun, hn.once, fun r hr => ?_, fun r hr q hq heng ho ho' => ?_⟩
  · rcases List.mem_append.1 hr with hr | hr
    · exact h.orderly.seated r hr
    · cases List.mem_singleton.1 hr
      exact ⟨_, List.getElem?_eq_getElem hp, hd⟩
  · rcases List.mem_append.1 hr with hr | hr
    · rcases List.mem_append.1 hq with hq | hq
      · exact h.orderly.opening r hr q hq heng ho ho'
      · cases List.mem_singleton.1 hq
        cases ho'
    · cases List.mem_singleton.1 hr
      cases ho

theorem Sound.addEngine (h : c.Sound) {e : Engine} (he : e.Fresh) : c.Follows (c.addEngine e) := by
  have hp := (List.perm_append_singleton e c.engines).symm
  have keep : ∀ {i o}, c.engines[i]? = some o → (c.engines ++ [e])[i]? = some o := fun {i o} ho => by
    obtain ⟨hlt, -⟩ := List.getElem?_eq_some_iff.1 ho
    rw [List.getElem?_append_left hlt, ho]
  exact ⟨⟨(h.tenure.join he).perm hp, (h.manned.join he).perm hp, .refl _ _, fun i o ho =>
    ⟨o, keep ho, .refl _⟩⟩,
    h.orderly.sub rfl (.refl _) fun q _ o ho ht => ⟨o, keep ho, ht⟩⟩

theorem Sound.bury (h : c.Sound) (place : Nat) : c.Follows (c.bury place) := by
  have stay : ∀ {i}, i ≠ place → (c.engines.modify place Engine.dead)[i]? = c.engines[i]? :=
    fun {i} hi => by
      simp only [List.getElem?_modify, if_neg hi.symm]
      exact Option.map_id'
  have orderly : (c.bury place).Orderly := by
    refine h.orderly.sub rfl List.filter_sublist fun q hq o ho ht => ⟨o, ?_, ht⟩
    rw [← ho]
    exact stay (of_decide_eq_true (List.mem_filter.1 hq).2)
  refine ⟨?_, orderly⟩
  show c.Moves (c.engines.modify place Engine.dead) c.site.db
  rw [List.modify_eq_set_getElem?]
  cases he : c.engines[place]? with
  | none => exact h.follows.moves
  | some e =>
    exact h.moves he (Engine.dead_stride (h.manned.sound e (List.mem_of_getElem? he)) _) e.dead_aged
      (.inl fun _ => e.dead_atRest)

/-- **Whatever happens.** -/
theorem Sound.happen (h : c.Sound) {x : Happening} (hp : c.Permits x) :
    c.Follows (c.happen x) (c.settled? x) := by
  cases x with
  | goes a => exact h.step hp
  | asks place d patience => exact h.request hp.1 hp.2 patience
  | delivers place rs =>
    rw [Cluster.happen]
    split
    · exact h.modifyDatabase (h.tenure.mild (Storage.notifyHeld_gentle _ _ _))
    · exact h.follows
  | holds => exact h.modifyDatabase (f := fun d => (Work.hold.on d).2) h.tenure.hold
  | commits =>
    exact h.modifyDatabase (f := fun d => (Work.commitHeld.on d).2)
      (h.tenure.ended Work.discreet_commit fun _ => Work.keeps_commit)
  | rollsBack =>
    exact h.modifyDatabase (f := fun d => (Work.rollbackHeld.on d).2)
      (h.tenure.ended Work.discreet_rollback fun _ => Work.keeps_rollback)
  | forgets =>
    exact h.modifyDatabase (f := fun d => (Work.dropHeld.on d).2)
      (h.tenure.ended Work.discreet_restore fun _ => Work.keeps_restore)
  | passes time => exact ⟨h.follows.moves, h.orderly.sub rfl (.refl _)
      fun _ _ o ho ht => ⟨o, ho, ht⟩⟩
  | weather faults clock =>
    exact h.modifyDatabase (f := fun d => { d with faults, clock })
      (h.tenure.weather clock hp)
  | joins e => exact h.addEngine hp
  | dies place => exact h.bury place

theorem Sound.run (h : c.Sound) {hs : List Happening} (hl : c.Legal hs) : c.Reaches (c.run hs) := by
  induction hs generalizing c with
  | nil => exact h.reaches
  | cons x hs ih =>
    have hx := (h.happen hl.1).reaches
    exact hx.trans (ih hx.sound hl.2)

/-! ## Outcomes -/

/-- The execution has begun and is over. -/
def Spent (c : Cluster) (x : Execution) : Prop :=
  ∃ e, c.engines[x.engine]? = some e ∧ e.Spent x.place x.serial

theorem Reaches.spent (h : c.Reaches c') {x : Execution} (hs : c.Spent x) : c'.Spent x := by
  obtain ⟨e, he, hsp⟩ := hs
  obtain ⟨e', he', hl⟩ := h.later _ e he
  exact ⟨e', he', hl.spent hsp⟩

theorem Spent.ended {x : Execution} (h : c.Spent x) : c.dispatch? x = none := by
  obtain ⟨e, he, hs⟩ := h
  rw [dispatch?, he, Option.bind_some]
  cases hp : e.pool? x.place with
  | none => rfl
  | some p =>
    rw [Option.bind_some]
    cases hy : p.dispatch? x.serial with
    | none => rfl
    | some y => exact absurd hs (Engine.not_spent hp hy)

/-- **An outcome** is of the instance of an execution under way, which is spent by it, and it does to
the store what the command says. -/
theorem Sound.verdict (h : c.Sound) {x : Happening} {v : Verdict} (hv : c.verdict? x = some v) :
    v.command.instanceId? = v.subject ∧ v.subject.isSome ∧ c.Performs x v ∧
      ¬ c.Spent v.execution ∧ (c.happen x).Spent v.execution := by
  unfold verdict? at hv
  split at hv
  · rename_i engine place serial
    obtain ⟨e, he, hv⟩ := Option.bind_eq_some_iff.1 hv
    obtain ⟨⟨subject, command⟩, ho, rfl⟩ := Option.map_eq_some_iff.1 hv
    obtain ⟨hid, hsome, hstore, hnot, hspent⟩ := Engine.stepDispatch_outcome
      (h.manned.sound e (List.mem_of_getElem? he)) h.tenure.timely (c.alive engine) ho
    have hstep : c.happen (.goes (.dispatch engine place serial)) = c.put engine
        (e.stepDispatch c.site (c.alive engine) place serial).1
        (e.stepDispatch c.site (c.alive engine) place serial).2 := by
      simp only [Cluster.happen, Cluster.step, Cluster.stepEngine, he]
    refine ⟨hid, hsome, ⟨e, he, by rw [hstep]; exact hstore⟩, fun ⟨o, ho, hs⟩ => ?_, _, ?_, hspent⟩
    · cases he.symm.trans ho
      exact hnot hs
    · rw [hstep, put, List.getElem?_set_self', he]
      rfl
  · cases hv

/-- The outcomes of a run: of executions that were not spent before, that are spent after it, each
once. -/
theorem Sound.verdicts (h : c.Sound) {hs : List Happening} (hl : c.Legal hs) :
    (∀ v ∈ c.verdicts hs, v.command.instanceId? = v.subject ∧ v.subject.isSome ∧
        ¬ c.Spent v.execution ∧ (c.run hs).Spent v.execution) ∧
      ((c.verdicts hs).map (·.execution)).Nodup := by
  induction hs generalizing c with
  | nil => exact ⟨fun _ h => (nomatch h), List.nodup_nil⟩
  | cons x hs ih =>
    have hx := (h.happen hl.1).reaches
    obtain ⟨hall, honce⟩ := ih hx.sound hl.2
    have later : ∀ v ∈ (c.happen x).verdicts hs, v.command.instanceId? = v.subject ∧
        v.subject.isSome ∧ ¬ c.Spent v.execution ∧ (c.run (x :: hs)).Spent v.execution :=
      fun v hv =>
        have ⟨hid, hsome, hn, hs⟩ := hall v hv
        ⟨hid, hsome, fun hc => hn (hx.spent hc), hs⟩
    rw [Cluster.verdicts]
    cases hv : c.verdict? x with
    | none => exact ⟨later, honce⟩
    | some v =>
      obtain ⟨hid, hsome, -, hn, hspent⟩ := h.verdict hv
      have hend := (hx.sound.run hl.2).spent hspent
      refine ⟨fun w hw => ?_, ?_⟩
      · rcases List.mem_cons.1 hw with rfl | hw
        · exact ⟨hid, hsome, hn, hend⟩
        · exact later w hw
      · -- this execution was spent when the others committed
        refine List.nodup_cons.2 ⟨fun hm => ?_, honce⟩
        obtain ⟨w, hw, he⟩ := List.mem_map.1 hm
        exact (hall w hw).2.2.1 (by rw [he]; exact hspent)

/-! ## The result -/

theorem create_sound {d : Database} (hu : d.store.Unique) (ht : d.Timely) (hn : d.held = none) :
    (create d).Sound where
  tenure :=
    { timely := ht
      unique := hu
      back := fun b (hb : d.held = some b) => by rw [hn] at hb; cases hb
      sole := List.nodup_nil
      runs := fun _ h => nomatch h }
  manned := ⟨fun _ h => (nomatch h), fun _ h => (nomatch h), .nil⟩
  orderly := ⟨fun _ h => (nomatch h), List.nodup_nil, fun _ h => (nomatch h), fun _ h => nomatch h⟩

/-- The instances of the executions are the subjects of the engines. -/
theorem executions_subjects (c : Cluster) :
    c.executions.map (·.2.workflow.id) = c.engines.flatMap Engine.subjects := by
  rw [executions, List.map_flatMap]
  congr 1
  funext e
  rw [List.map_map]
  rfl

/-- The instance of an execution runs and is claimed by its engine, in the store and in the one that
an open transaction would go back to. -/
theorem Sound.running (h : c.Sound) {e : Engine} {y : Dispatch} (hx : (e, y) ∈ c.executions) :
    ∃ r ∈ c.site.db.store.records, some r.id = y.workflow.id ∧ r.stage = .running ∧
      r.claimedBy = some e.claimant ∧ ∀ b, c.site.db.held = some b → r ∈ b.records := by
  obtain ⟨o, ho, hy⟩ := List.mem_flatMap.1 hx
  obtain ⟨z, hz, he⟩ := List.mem_map.1 hy
  cases he
  obtain ⟨r, hr, hid, hst⟩ := h.tenure.runs e ho _ (List.mem_map_of_mem hz)
  refine ⟨r, hr, hid, ?_, ?_, fun b hb => (h.tenure.back b hb).2 r hr (Record.lasting_running hst)⟩
  · rw [Record.stage, hst]
    rfl
  · rw [Record.claimedBy, hst]

end Cluster

/-- **No double execution, and finished is final.** Whatever happens to the engines over a store, as
long as it is permitted, at every moment: no instance has two executions; the instance of an
execution runs and is claimed by its engine; each execution commits at most one outcome, of its own
instance, and is not under way any more then; nothing but this outcome touches the instance of an
execution, and it takes effect; and what was finished at an earlier moment still is. -/
theorem no_double_execution {d : Database} (hu : d.store.Unique) (ht : d.Timely)
    (hn : d.held = none) {hs : List Happening} (hl : (Cluster.create d).Legal hs) :
    (((Cluster.create d).run hs).executions.map (·.2.workflow.id)).Nodup ∧
      (∀ e y, (e, y) ∈ ((Cluster.create d).run hs).executions →
        ∃ r ∈ ((Cluster.create d).run hs).site.db.store.records,
          some r.id = y.workflow.id ∧ r.stage = .running ∧ r.claimedBy = some e.claimant ∧
            ∀ b, ((Cluster.create d).run hs).site.db.held = some b → r ∈ b.records) ∧
      (((Cluster.create d).verdicts hs).map (·.execution)).Nodup ∧
      (∀ v ∈ (Cluster.create d).verdicts hs, v.command.instanceId? = v.subject ∧ v.subject.isSome ∧
        ((Cluster.create d).run hs).dispatch? v.execution = none) ∧
      (∀ past x later, hs = past ++ x :: later →
        ((Cluster.create d).run past).Undisturbed x ∧
          ∀ v ∈ ((Cluster.create d).run past).verdict? x,
            ((Cluster.create d).run past).Performs x v) ∧
      ∀ past later, hs = past ++ later →
        ∀ r ∈ ((Cluster.create d).run past).site.db.store.records, r.stage = .finished →
          r ∈ ((Cluster.create d).run hs).site.db.store.records := by
  have h₀ := Cluster.create_sound hu ht hn
  have h := (h₀.run hl).sound
  obtain ⟨hv, honce⟩ := h₀.verdicts hl
  refine ⟨?_, fun e y hx => h.running hx, honce, fun v hm => ?_, ?_, ?_⟩
  · rw [Cluster.executions_subjects]
    exact h.tenure.sole
  · obtain ⟨hid, hsome, -, hspent⟩ := hv v hm
    exact ⟨hid, hsome, hspent.ended⟩
  · rintro past x later rfl
    obtain ⟨hp, hx, -⟩ := Cluster.legal_append.1 hl
    have hpast := (h₀.run hp).sound
    exact ⟨(hpast.happen hx).undisturbed, fun v hm => (hpast.verdict hm).2.2.1⟩
  · rintro past later rfl r hr hst
    obtain ⟨hp, hrest⟩ := Cluster.legal_append.1 hl
    have hlast := ((h₀.run hp).sound.run hrest).lasts r hr (Record.status_of_finished hst)
    rwa [← Cluster.run_append] at hlast

/-! ## A run -/

/-- An engine with one pool, whose runner finishes every instance. -/
def Engine.finisher (name : String) : Engine :=
  .create name (Registry.empty.register "t" fun _ w => .finished w) (fun w => w)
    (.create name .standard none false) [.pool (.create (.standard Workflow.defaultPool))]

theorem Engine.finisher_fresh (name : String) : (Engine.finisher name).Fresh := by
  refine create_fresh rfl (fun w id runner surroundings hr hw => ?_)
    (List.forall_mem_singleton.2 rfl)
  replace hr : List.lookup w.type [("t", fun _ w => .finished w)] = some runner := hr
  rw [List.lookup_cons] at hr
  split at hr
  · cases hr
    exact hw
  · cases hr

namespace Cluster

/-- An engine starts, gets an instance, claims it and dies. -/
def firstLife : List Happening :=
  [.joins (.finisher "a"), .asks 0 .start none,
    .asks 0 (.ask (.submit [.durable { Workflow.create "t" .null with id := some ⟨1⟩ }])) none] ++
    ([.request 0, .request 0, .request 0, .request 0, .request 1, .request 1, .request 1,
      .request 1, .request 1, .updater 0, .poll 0 0, .poll 0 0] : List Actor).map .goes

/-- It starts again under the same name, recovers and claims the instance, and finishes it. -/
def secondLife : List Happening :=
  [.dies 0, .joins (.finisher "a"), .asks 1 .start none] ++
    ([.request 2, .request 2, .request 2, .request 2, .poll 1 0, .poll 1 0, .dispatch 1 0 0,
      .dispatch 1 0 0, .dispatch 1 0 0] : List Actor).map .goes

theorem lives_legal : (create (.create .epoch)).Legal (firstLife ++ secondLife) := by
  refine legal_append.2 ⟨legal_append.2 ⟨⟨Engine.finisher_fresh "a", ⟨by decide, trivial⟩,
    ⟨by decide, trivial⟩, trivial⟩, ?_⟩, legal_append.2 ⟨⟨trivial, Engine.finisher_fresh "a",
      ⟨by decide +kernel, trivial⟩, trivial⟩, ?_⟩⟩
  · decide +kernel
  · decide +kernel

end Cluster

/-- Of the two executions of the instance, the second commits an outcome. -/
theorem no_double_execution_secondLife :
    ((Cluster.create (.create .epoch)).run Cluster.firstLife).executions.map (·.2.workflow.id) =
        [some ⟨1⟩] ∧
      ((Cluster.create (.create .epoch)).verdicts (Cluster.firstLife ++ Cluster.secondLife)).map
        (·.execution) = [⟨1, 0, 0⟩] ∧
      ∀ v ∈ (Cluster.create (.create .epoch)).verdicts (Cluster.firstLife ++ Cluster.secondLife),
        v.command.instanceId? = v.subject ∧ v.subject.isSome ∧
          ((Cluster.create (.create .epoch)).run
            (Cluster.firstLife ++ Cluster.secondLife)).dispatch? v.execution = none :=
  ⟨by decide +kernel, by decide +kernel,
    (no_double_execution (d := .create .epoch) Store.unique_empty
      (Database.timely_of_quiet rfl) rfl Cluster.lives_legal).2.2.2.1⟩

end Resumption
