import Mathlib.Data.List.Induction
import Mathlib.Data.List.Perm.Basic
import Resumption.Proofs.Storage.StartFrame
import Resumption.Proofs.Storage.Lifetime

/-!
# The start of a storage

A start sweeps, recovers what an earlier life of the engine left running, and then spawns the loops.
But a storage counts as started as soon as the first start has come, before any of this is done, and
later starts are granted at once and do nothing.

**How far a storage is.** No start came, or one is under way, or it went well, or it came to
nothing, because it failed or its caller gave it up (`Course`). An occasion takes the course on as
`Service.Turns` says (`Fits.turns`). **Invariant** (`Fits`): one start at most is under way, and no
loop is there until it went well.

**Result.** `opens_once`: in every run a start goes well at most once, and what it has done then. A
start that is granted goes well, or one went well before. The exception: when the first start came
to nothing, or is still under way, later ones are granted all the same (`grants_unopened`).
-/

namespace Resumption

/-- How far a storage is with its start. -/
inductive Course where
  /-- No start came. -/
  | shut
  /-- A start is under way. -/
  | opening
  /-- A start went well. -/
  | opened
  /-- A start came to nothing. -/
  | lost
  deriving DecidableEq

namespace Service

variable {k k' : Service} {engine : String} {c : Course} {o : Occasion} {os : List Occasion}

/-! ## What becomes of a start -/

/-- At this occasion a start goes well: it has recovered. -/
def Opens (k : Service) (o : Occasion) : Prop :=
  ∃ place, o = .goesOn place ∧ k.calls[place]? = some .recovering ∧
    (k.storage.advance k.time k.database .recovering).1 = .over .done

/-- At this occasion a start comes to nothing: it does not go well, or its caller gives it up. -/
def Founders (k : Service) (o : Occasion) : Prop :=
  ∃ place p, k.calls[place]? = some p ∧ p.Opens ∧
    (o = .leaves place ∨
      o = .goesOn place ∧ ∃ r, (k.storage.advance k.time k.database p).1 = .over r ∧ r ≠ .done)

/-- At this occasion the caller of a start is told that it went well. -/
def Grants (k : Service) (o : Occasion) : Prop :=
  (o = .comes .start ∧ (k.storage.begin k.database .start).1 = .over .done) ∨
    ∃ place p, o = .goesOn place ∧ k.calls[place]? = some p ∧ p.Opens ∧
      (k.storage.advance k.time k.database p).1 = .over .done

/-- A start is under way. -/
def Opening (k : Service) : Prop := ∃ p ∈ k.calls, p.Opens

/-- It happened in a run. -/
def Had (P : Service → Occasion → Prop) : Service → List Occasion → Prop
  | _, [] => False
  | k, o :: os => P k o ∨ Had P (k.next o) os

/-- How many starts are under way. -/
def openings (k : Service) : Nat := k.calls.countP Storage.Phase.opening

/-- What the service of an engine is when its start is so far. -/
structure Fits (k : Service) (engine : String) (c : Course) : Prop where
  engine : k.storage.access.engine = engine
  started : k.storage.started = true ↔ c ≠ .shut
  single : k.openings = if c = .opening then 1 else 0
  updater : k.storage.updater = .absent ↔ c ≠ .opened
  reaper : k.storage.reaper = .absent ↔ c ≠ .opened

/-- How an occasion takes the start on. -/
inductive Turns (k : Service) (o : Occasion) : Course → Course → Prop where
  | comes (came : o = .comes .start) : Turns k o .shut .opening
  | opens (opens : k.Opens o) : Turns k o .opening .opened
  | founders (founders : k.Founders o) : Turns k o .opening .lost
  | stays (c : Course) (not_opens : ¬ k.Opens o) (not_founders : ¬ k.Founders o) : Turns k o c c

/-! ## One step -/

theorem opening_iff : k.Opening ↔ 0 < k.openings := by
  simp only [Opening, openings, List.countP_pos_iff, Storage.Phase.opening_iff]

theorem Fits.opening (h : k.Fits engine c) (hk : k.Opening) : c = .opening := by
  have := opening_iff.1 hk
  rw [h.single] at this
  by_contra hc
  rw [if_neg hc] at this
  exact Nat.lt_irrefl 0 this

theorem Opens.opening (h : k.Opens o) : k.Opening := by
  obtain ⟨place, -, hp, -⟩ := h
  exact ⟨_, List.mem_of_getElem? hp, .inr rfl⟩

theorem Founders.opening (h : k.Founders o) : k.Opening := by
  obtain ⟨place, p, hp, ho, -⟩ := h
  exact ⟨p, List.mem_of_getElem? hp, ho⟩

theorem Opens.going {place : Nat} (h : k.Opens (.goesOn place)) :
    k.calls[place]? = some .recovering ∧
      (k.storage.advance k.time k.database .recovering).1 = .over .done := by
  obtain ⟨place', he, h⟩ := h
  cases he
  exact h

theorem Founders.going {place : Nat} (h : k.Founders (.goesOn place)) :
    ∃ p r, k.calls[place]? = some p ∧ p.Opens ∧
      (k.storage.advance k.time k.database p).1 = .over r ∧ r ≠ .done := by
  obtain ⟨place', p, hp, ho, he | ⟨he, r, hr, hne⟩⟩ := h <;> cases he
  exact ⟨p, r, hp, ho, hr, hne⟩

theorem Founders.leaving {place : Nat} (h : k.Founders (.leaves place)) :
    ∃ p, k.calls[place]? = some p ∧ p.Opens := by
  obtain ⟨place', p, hp, ho, he | ⟨he, -⟩⟩ := h <;> cases he
  exact ⟨p, hp, ho⟩

theorem not_opens_and_founders (h : k.Opens o) : ¬ k.Founders o := by
  intro hf
  obtain ⟨place, rfl, hp, ho⟩ := h
  obtain ⟨p, r, hp', -, hr, hne⟩ := hf.going
  rw [hp] at hp'
  cases hp'
  rw [ho] at hr
  cases hr
  exact hne rfl

/-- What an occasion does that has nothing to do with a start. -/
structure Calm (k k' : Service) : Prop where
  untouched : k.storage.Untouched k'.storage
  single : k'.openings = k.openings

theorem Fits.calm (h : k.Fits engine c) (hk : k.Calm k') : k'.Fits engine c where
  engine := hk.untouched.engine.trans h.engine
  started := by rw [hk.untouched.started]; exact h.started
  single := hk.single.trans h.single
  updater := hk.untouched.updater.trans h.updater
  reaper := hk.untouched.reaper.trans h.reaper

theorem calm_of_storage (h : k.storage.Untouched k'.storage) (hc : k'.calls = k.calls) :
    k.Calm k' := ⟨h, by rw [openings, hc, openings]⟩

/-- How many starts are under way when a call has left its place, and when it changed its phase. -/
theorem openings_place {place : Nat} {p : Storage.Phase} (hp : k.calls[place]? = some p) :
    (k.calls.eraseIdx place).countP Storage.Phase.opening + p.opening.toNat = k.openings ∧
      ∀ q, (k.calls.set place q).countP Storage.Phase.opening + p.opening.toNat =
        k.openings + q.opening.toNat := by
  obtain ⟨inside, hp⟩ := List.getElem?_eq_some_iff.1 hp
  have one : ∀ (q : Storage.Phase) (l : List Storage.Phase),
      (q :: l).countP Storage.Phase.opening = l.countP Storage.Phase.opening + q.opening.toNat :=
    fun q l => by
      rw [List.countP_cons]
      cases q.opening <;> rfl
  have erased := (List.getElem_cons_eraseIdx_perm inside).countP_eq Storage.Phase.opening
  rw [one, hp] at erased
  refine ⟨erased, fun q => ?_⟩
  have set := (List.set_perm_cons_eraseIdx inside q).countP_eq Storage.Phase.opening
  rw [one] at set
  unfold openings
  omega

theorem goesOn_calls {place : Nat} {p : Storage.Phase} (hp : k.calls[place]? = some p) :
    (∀ q, (k.storage.advance k.time k.database p).1 = .going q →
        (k.next (.goesOn place)).calls = k.calls.set place q) ∧
      ∀ r, (k.storage.advance k.time k.database p).1 = .over r →
        (k.next (.goesOn place)).calls = k.calls.eraseIdx place := by
  simp only [next, hp]
  rcases k.storage.advance k.time k.database p with ⟨q | r, s, d⟩
  · exact ⟨fun q' h => by cases h; rfl, fun r h => by cases h⟩
  · exact ⟨fun q h => (by cases h), fun r' h => by cases h; rfl⟩

/-- Nothing becomes of a start when no call goes on or is given up. -/
theorem nothing_becomes (goes : ∀ place, o ≠ .goesOn place) (leaves : ∀ place, o ≠ .leaves place) :
    ¬ k.Opens o ∧ ¬ k.Founders o :=
  ⟨fun ⟨place, h, _⟩ => goes place h, fun ⟨place, _, _, _, h⟩ =>
    h.elim (leaves place) fun h => goes place h.1⟩

theorem comes_becomes (k : Service) (call : Storage.Call) :
    ¬ k.Opens (.comes call) ∧ ¬ k.Founders (.comes call) := nothing_becomes nofun nofun

/-- A call goes on that does not start the storage, or that is not over with this. -/
theorem turns_goesOn (c : Course) {place : Nat} {p : Storage.Phase}
    (hp : k.calls[place]? = some p)
    (h : p.opening = false ∨ ∃ q, (k.storage.advance k.time k.database p).1 = .going q) :
    k.Turns (.goesOn place) c c := by
  have ended : ∀ r, p.Opens → (k.storage.advance k.time k.database p).1 ≠ .over r := by
    intro r ho
    rcases h with h | ⟨q, h⟩
    · rw [Storage.Phase.opening_iff.2 ho] at h
      cases h
    · rw [h]
      nofun
  refine .stays c (fun hopens => ?_) fun hf => ?_
  · obtain ⟨hp', hr⟩ := hopens.going
    rw [hp] at hp'
    cases hp'
    exact ended _ (.inr rfl) hr
  · obtain ⟨p', r, hp', ho, hr, -⟩ := hf.going
    rw [hp] at hp'
    cases hp'
    exact ended _ ho hr

/-- A start that comes when one came before is granted, and nothing is done. -/
theorem starts_again (hs : k.storage.started = true) :
    k.Grants (.comes .start) ∧ k.next (.comes .start) =
      { k with database := k.database.tell (.warning "storage already started") } := by
  have hb : k.storage.begin k.database .start =
      (.over .done, k.storage, k.database.tell (.warning "storage already started")) := by
    rw [Storage.begin, if_pos hs]
  exact ⟨.inl ⟨rfl, by rw [hb]⟩, by simp only [next, hb]⟩

theorem Fits.comes (h : k.Fits engine c) (call : Storage.Call) :
    ∃ c', k.Turns (.comes call) c c' ∧ (k.next (.comes call)).Fits engine c' := by
  obtain ⟨no_opens, no_founders⟩ := k.comes_becomes call
  have still : k.Turns (.comes call) c c := .stays c no_opens no_founders
  by_cases hc : call = .start
  · subst hc
    by_cases hs : k.storage.started = true
    · have hn := (starts_again hs).2
      exact ⟨c, still, h.calm (calm_of_storage (by rw [hn]; exact .refl _) (by rw [hn]))⟩
    · -- the first start
      have hn : k.next (.comes .start) =
          { k with
            storage := { k.storage with started := true }
            calls := k.calls ++ [.sweeping] } := by
        simp only [next, Storage.begin_start_fresh k.database (Bool.not_eq_true _ ▸ hs)]
      obtain rfl : c = .shut := by
        by_contra hc
        exact hs (h.started.2 hc)
      have hcount : (k.next (.comes .start)).openings = k.openings + 1 := by
        rw [hn, openings, List.countP_append]
        rfl
      refine ⟨.opening, .comes rfl, ⟨?_, ?_, ?_, ?_, ?_⟩⟩
      · rw [hn]
        exact h.engine
      · rw [hn]
        exact iff_of_true rfl (by decide)
      · rw [hcount, h.single]
        rfl
      · rw [hn]
        exact iff_of_true (h.updater.2 (by decide)) (by decide)
      · rw [hn]
        exact iff_of_true (h.reaper.2 (by decide)) (by decide)
  · obtain ⟨hs, -, -⟩ := k.next_comes call
    obtain ⟨untouched, away⟩ := k.storage.begin_startless k.database hc
    refine ⟨c, still, h.calm ⟨hs ▸ untouched, ?_⟩⟩
    simp only [openings, next]
    split <;> rename_i he
    · rw [he] at away
      rw [List.countP_append, List.countP_singleton, away _ rfl]
      rfl
    · rfl

theorem Fits.advances (h : k.Fits engine c) {place : Nat} {p : Storage.Phase}
    (hp : k.calls[place]? = some p) (ho : p.Opens) :
    ∃ c', k.Turns (.goesOn place) c c' ∧ (k.next (.goesOn place)).Fits engine c' := by
  obtain ⟨hs, -, -⟩ := next_goesOn hp
  obtain ⟨going, ended⟩ := goesOn_calls hp
  obtain ⟨erased, set⟩ := openings_place hp
  have hpo := Storage.Phase.opening_iff.2 ho
  obtain rfl := h.opening ⟨p, List.mem_of_getElem? hp, ho⟩
  have one : k.openings = 1 := h.single
  rw [hpo, one] at erased set
  -- it is under way as before, or no start is
  have on : ∀ q, (k.storage.advance k.time k.database p).1 = .going q → q.opening = true →
      (k.storage.advance k.time k.database p).2.1 = k.storage →
      ∃ c', k.Turns (.goesOn place) .opening c' ∧ (k.next (.goesOn place)).Fits engine c' := by
    intro q hq hqo hsame
    refine ⟨.opening, turns_goesOn _ hp (.inr ⟨q, hq⟩), h.calm ⟨?_, ?_⟩⟩
    · rw [hs, hsame]
      exact .refl _
    · rw [openings, going q hq, one]
      have := set q
      rw [hqo] at this
      exact Nat.succ.inj this
  have gone : ∀ r, (k.storage.advance k.time k.database p).1 = .over r →
      (k.next (.goesOn place)).openings = 0 := by
    intro r hr
    rw [openings, ended r hr]
    exact Nat.succ.inj erased
  have fails : ∀ r, (k.storage.advance k.time k.database p).1 = .over r → r ≠ .done →
      (k.storage.advance k.time k.database p).2.1 = k.storage →
      ∃ c', k.Turns (.goesOn place) .opening c' ∧ (k.next (.goesOn place)).Fits engine c' := by
    intro r hr hne hsame
    refine ⟨.lost, .founders ⟨place, p, hp, ho, .inr ⟨rfl, r, hr, hne⟩⟩,
      ⟨?_, ?_, gone r hr, ?_, ?_⟩⟩ <;> rw [hs, hsame]
    · exact h.engine
    · exact iff_of_true (h.started.2 nofun) nofun
    · exact iff_of_true (h.updater.2 nofun) nofun
    · exact iff_of_true (h.reaper.2 nofun) nofun
  rcases ho with rfl | rfl
  · obtain ⟨hsame, ⟨hq, -⟩ | hq | ⟨m, hr, -⟩⟩ := k.storage.sweeping_cases k.time k.database
    · exact on _ hq rfl hsame
    · exact on _ hq rfl hsame
    · exact fails _ hr nofun hsame
  · rcases k.storage.recovering_cases k.time k.database with ⟨hr, hspawn, -⟩ | ⟨e, hr, hsame, -⟩
    · have present := k.storage.spawnLoops_present k.time
      refine ⟨.opened, .opens ⟨place, rfl, hp, hr⟩, ⟨?_, ?_, gone _ hr, ?_, ?_⟩⟩ <;>
        rw [hs, hspawn]
      · exact h.engine
      · exact iff_of_true (h.started.2 nofun) nofun
      · exact iff_of_false present.1 (absurd rfl)
      · exact iff_of_false present.2 (absurd rfl)
    · exact fails _ hr (Storage.ofFailure_ne_done e) hsame

theorem Fits.goesOn (h : k.Fits engine c) (place : Nat) :
    ∃ c', k.Turns (.goesOn place) c c' ∧ (k.next (.goesOn place)).Fits engine c' := by
  cases hp : k.calls[place]? with
  | none =>
    have hn : k.next (.goesOn place) = k := by simp only [next, hp]
    refine ⟨c, .stays c (fun hopens => ?_) (fun hf => ?_), by rw [hn]; exact h⟩
    · cases hp.symm.trans hopens.going.1
    · obtain ⟨p, r, hp', -⟩ := hf.going
      cases hp.symm.trans hp'
  | some p =>
    cases ho : p.opening with
    | true => exact h.advances hp (Storage.Phase.opening_iff.1 ho)
    | false =>
      obtain ⟨hs, -, -⟩ := next_goesOn hp
      obtain ⟨going, ended⟩ := goesOn_calls hp
      obtain ⟨erased, set⟩ := openings_place hp
      rw [ho] at erased set
      obtain ⟨untouched, away⟩ := k.storage.advance_startless k.time k.database ho
      refine ⟨c, turns_goesOn c hp (.inl ho), h.calm ⟨hs ▸ untouched, ?_⟩⟩
      rcases hr : (k.storage.advance k.time k.database p).1 with q | r
      · have := set q
        rw [away q hr] at this
        rw [openings, going q hr]
        exact this
      · rw [openings, ended r hr]
        exact erased

theorem Fits.leaves (h : k.Fits engine c) (place : Nat) :
    ∃ c', k.Turns (.leaves place) c c' ∧ (k.next (.leaves place)).Fits engine c' := by
  cases hp : k.calls[place]? with
  | none =>
    have hcalls : k.calls.eraseIdx place = k.calls :=
      List.eraseIdx_of_length_le (List.getElem?_eq_none_iff.1 hp)
    refine ⟨c, .stays c nofun fun hf => ?_, h.calm (calm_of_storage (.refl _) hcalls)⟩
    obtain ⟨p, hp', -⟩ := hf.leaving
    cases hp.symm.trans hp'
  | some p =>
    obtain ⟨erased, -⟩ := openings_place hp
    by_cases ho : p.opening = true
    · have ho' := Storage.Phase.opening_iff.1 ho
      obtain rfl := h.opening ⟨p, List.mem_of_getElem? hp, ho'⟩
      have one := h.single
      rw [if_pos rfl] at one
      rw [ho, one] at erased
      exact ⟨.lost, .founders ⟨place, p, hp, ho', .inl rfl⟩,
        ⟨h.engine, iff_of_true (h.started.2 nofun) nofun, Nat.succ.inj erased,
          iff_of_true (h.updater.2 nofun) nofun, iff_of_true (h.reaper.2 nofun) nofun⟩⟩
    · refine ⟨c, .stays c nofun fun hf => ?_, h.calm ⟨.refl _, ?_⟩⟩
      · obtain ⟨p', hp', ho'⟩ := hf.leaving
        cases hp.symm.trans hp'
        exact ho (Storage.Phase.opening_iff.2 ho')
      · rw [Bool.not_eq_true] at ho
        rw [ho] at erased
        exact erased

/-- **A step of a start.** -/
theorem Fits.turns (h : k.Fits engine c) (o : Occasion) :
    ∃ c', k.Turns o c c' ∧ (k.next o).Fits engine c' := by
  have calm : k.Calm (k.next o) → (∀ place, o ≠ .goesOn place) → (∀ place, o ≠ .leaves place) →
      ∃ c', k.Turns o c c' ∧ (k.next o).Fits engine c' := fun hk hg hl =>
    ⟨c, .stays c (nothing_becomes hg hl).1 (nothing_becomes hg hl).2, h.calm hk⟩
  cases o with
  | comes call => exact h.comes call
  | goesOn place => exact h.goesOn place
  | leaves place => exact h.leaves place
  | works =>
    exact calm (calm_of_storage (k.storage.stepWorker_untouched k.time k.database) rfl) nofun nofun
  | promotes =>
    exact calm (calm_of_storage (k.storage.stepUpdater_untouched k.time k.database) rfl) nofun nofun
  | reaps =>
    exact calm (calm_of_storage (k.storage.stepReaper_untouched k.time k.database) rfl) nofun nofun
  | inserts ws =>
    exact calm (calm_of_storage (k.storage.insertHeld_untouched k.database ws) rfl) nofun nofun
  | configures remove =>
    exact calm (calm_of_storage ⟨rfl, rfl, .rfl, .rfl⟩ rfl) nofun nofun
  | _ => exact calm (calm_of_storage (.refl _) rfl) nofun nofun

/-! ## A run -/

variable {P : Service → Occasion → Prop} {past later : List Occasion}

theorem run_append (k : Service) (past later : List Occasion) :
    k.run (past ++ later) = (k.run past).run later := List.foldl_append

theorem run_snoc (k : Service) (os : List Occasion) (o : Occasion) :
    k.run (os ++ [o]) = (k.run os).next o := k.run_append os [o]

theorem legal_append : k.Legal (past ++ later) ↔ k.Legal past ∧ (k.run past).Legal later := by
  induction past generalizing k with
  | nil => exact (iff_of_eq (true_and _)).symm
  | cons o past ih =>
    rw [List.cons_append, Legal, ih, Legal, and_assoc]
    rfl

theorem had_append : Had P k (past ++ later) ↔ Had P k past ∨ Had P (k.run past) later := by
  induction past generalizing k with
  | nil => exact (iff_of_eq (false_or _)).symm
  | cons o past ih =>
    rw [List.cons_append, Had, ih, Had, or_assoc]
    rfl

theorem had_snoc : Had P k (os ++ [o]) ↔ Had P k os ∨ P (k.run os) o := by
  rw [had_append, Had, Had, or_false]

theorem Sound.run (os : List Occasion) :
    ∀ {k : Service} {given : List Response}, k.Sound given → k.Legal os →
      (k.run os).Sound (given ++ os.flatMap Occasion.offered) := by
  induction os with
  | nil =>
    intro k given hk _
    rw [List.flatMap_nil, List.append_nil]
    exact hk
  | cons o os ih =>
    intro k given hk h
    obtain ⟨-, -, hsound⟩ := hk.step h.1
    rw [List.flatMap_cons, ← List.append_assoc]
    exact ih hsound h.2

/-- What happened in a run tells how far its start is. -/
structure Courses (k : Service) (engine : String) (os : List Occasion) (c : Course) : Prop where
  fits : (k.run os).Fits engine c
  opened : Had Opens k os ↔ c = .opened
  lost : Had Founders k os ↔ c = .lost

/-- **A run.** -/
theorem Fits.run (h : k.Fits engine .shut) (os : List Occasion) : ∃ c, k.Courses engine os c := by
  induction os using List.reverseRecOn with
  | nil => exact ⟨.shut, h, iff_of_false id nofun, iff_of_false id nofun⟩
  | append_singleton os o ih =>
    obtain ⟨c, hf, hopened, hlost⟩ := ih
    obtain ⟨c', hturns, hfits⟩ := hf.turns o
    rw [← run_snoc] at hfits
    refine ⟨c', hfits, ?_, ?_⟩ <;> rw [had_snoc] <;> cases hturns with
    | comes came =>
      subst came
      obtain ⟨no_opens, no_founders⟩ := (k.run os).comes_becomes .start
      simp only [hopened, hlost, no_opens, no_founders, reduceCtorEq, or_false]
    | opens opens =>
      simp only [hopened, hlost, opens, not_opens_and_founders opens, reduceCtorEq, or_true,
        or_false]
    | founders founders =>
      simp only [hopened, hlost, founders, mt not_opens_and_founders (not_not_intro founders),
        reduceCtorEq, or_true, or_false]
    | stays _ no_opens no_founders => simp only [hopened, hlost, no_opens, no_founders, or_false]

/-- When no start is to come and none is under way, none goes well any more. -/
theorem Fits.never (h : k.Fits engine c) (shut : c ≠ .shut) (opening : c ≠ .opening)
    (os : List Occasion) : ¬ Had Opens k os := by
  induction os generalizing k with
  | nil => exact id
  | cons o os ih =>
    obtain ⟨c', hturns, hnext⟩ := h.turns o
    obtain rfl : c' = c := by
      cases hturns with
      | comes => exact absurd rfl shut
      | opens => exact absurd rfl opening
      | founders => exact absurd rfl opening
      | stays => rfl
    rintro (ho | hlater)
    · exact opening (h.opening ho.opening)
    · exact ih hnext hlater

/-! ## What a start that goes well has done -/

theorem History.unique {given : List Response} {log : List (List Action)}
    (h : k.History given os log) (hu : k.committed.Unique) : (k.run os).committed.Unique :=
  h.performs.holds (fun a _ s hs => Store.act_unique s a hs) hu

/-- What a start has done that goes well at this occasion, and what comes of it. -/
structure Opened (k : Service) (engine : String) (past : List Occasion) (o : Occasion)
    (later : List Occasion) : Prop where
  /-- No other one went well, and none will. -/
  first : ¬ Had Opens k past
  last : ¬ Had Opens (k.run (past ++ [o])) later
  /-- What ran for the engine is taken back. -/
  takenBack : Store.TakenBack engine (k.run past).committed (k.run (past ++ [o])).committed
  /-- No loop was there, and both are spawned. -/
  absent : (k.run past).storage.updater = .absent ∧ (k.run past).storage.reaper = .absent
  spawned : (k.run (past ++ [o])).storage = (k.run past).storage.spawnLoops (k.run past).time
  /-- Whatever runs for the engine later was handed out to it since. -/
  since : ∃ log,
    (k.run (past ++ [o])).History ((past ++ [o]).flatMap Occasion.offered) later log ∧
      ∀ r ∈ (k.run (past ++ o :: later)).committed.records, r.status = .running engine →
        ∃ before a after, log.flatten = before ++ a :: after ∧
          Turn.HandsOut ⟨(k.run (past ++ [o])).committed.afterAll before, a⟩ r.id engine

/-- What a start comes from that comes to nothing at this occasion, and what comes of it. -/
structure Lost (k : Service) (past : List Occasion) (o : Occasion) (later : List Occasion) :
    Prop where
  /-- Its caller gave it up, or its recovery failed, or a sweep broke down. -/
  cause : ∃ place, o = .leaves place ∨ o = .goesOn place ∧
    let k := k.run past
    (k.calls[place]? = some .recovering ∧
        ∃ e, ((Work.transact (Work.recover k.storage.access)).on k.database).1 = .error e) ∨
      k.calls[place]? = some .sweeping ∧ ∃ m, k.storage.answer k.database = .error (.crashed m)
  /-- No start goes well, before or after. -/
  never : ¬ Had Opens k (past ++ o :: later)

/-- What there is to say of the starts of a storage at an occasion in a run. -/
structure Starting (k : Service) (engine : String) (past : List Occasion) (o : Occasion)
    (later : List Occasion) : Prop where
  /-- The loops are there if and only if a start went well. -/
  updater : (k.run past).storage.updater ≠ .absent ↔ Had Opens k past
  reaper : (k.run past).storage.reaper ≠ .absent ↔ Had Opens k past
  /-- A start that is granted went well, or one did before, unless one came to nothing before or is
  still under way. -/
  granted : (k.run past).Grants o →
    Had Opens k (past ++ [o]) ∨ o = .comes .start ∧ (Had Founders k past ∨ (k.run past).Opening)
  opened : (k.run past).Opens o → k.Opened engine past o later
  lost : (k.run past).Founders o → k.Lost past o later
  /-- After one came to nothing all others are granted, and nothing is done. -/
  vain : Had Founders k past → o = .comes .start → (k.run past).Grants o ∧
    (k.run (past ++ [o])).storage = (k.run past).storage ∧
      (k.run (past ++ [o])).committed = (k.run past).committed
  /-- A sweep that is refused does not get in the way of the recovery. -/
  swept : ∀ place e, o = .goesOn place → (k.run past).calls[place]? = some .sweeping →
    (k.run past).storage.answer (k.run past).database = .error (.refused e) →
      (k.run (past ++ [o])).calls = (k.run past).calls.set place .recovering

/-- A call recovers and is told that it went well: so it did. -/
theorem Opens.effect (h : k.Opens o) (ha : k.Allows o) :
    Store.TakenBack k.storage.access.engine k.committed (k.next o).committed ∧
      (k.next o).storage = k.storage.spawnLoops k.time := by
  obtain ⟨place, rfl, hp, ho⟩ := h
  obtain ⟨hs, hd, -⟩ := next_goesOn hp
  have hfree : k.database.held = none := Option.isNone_iff_eq_none.1 (ha _ hp)
  have haside := (k.storage.advance_recovering k.time k.database).2.1
  rw [← hd] at haside
  rcases k.storage.recovering_cases k.time k.database with ⟨-, hspawn, hruled⟩ | ⟨e, hr, -⟩
  · rw [← hd] at hruled
    refine ⟨?_, hs.trans hspawn⟩
    rw [committed, committed, Database.committed_free hfree,
      Database.committed_free (haside.held.trans hfree)]
    exact hruled.takenBack
  · rw [hr] at ho
    exact absurd (Storage.Progress.over.inj ho) (Storage.ofFailure_ne_done e)

theorem Founders.cause (h : k.Founders o) :
    ∃ place, o = .leaves place ∨ o = .goesOn place ∧
      ((k.calls[place]? = some .recovering ∧
          ∃ e, ((Work.transact (Work.recover k.storage.access)).on k.database).1 = .error e) ∨
        k.calls[place]? = some .sweeping ∧
          ∃ m, k.storage.answer k.database = .error (.crashed m)) := by
  obtain ⟨place, p, hp, ho, rfl | ⟨rfl, r, hr, hne⟩⟩ := h
  · exact ⟨place, .inl rfl⟩
  · refine ⟨place, .inr ⟨rfl, ?_⟩⟩
    obtain rfl | rfl := ho
    · obtain ⟨-, ⟨hq, -⟩ | hq | ⟨m, -, hm⟩⟩ := k.storage.sweeping_cases k.time k.database
      · rw [hq] at hr
        cases hr
      · rw [hq] at hr
        cases hr
      · exact .inr ⟨hp, m, hm⟩
    · rcases k.storage.recovering_cases k.time k.database with ⟨hd, -, -⟩ | ⟨e, -, -, he⟩
      · rw [hd] at hr
        exact absurd (Storage.Progress.over.inj hr).symm hne
      · exact .inl ⟨hp, e, he⟩

/-- A start is granted that goes well, or that comes when one came before. -/
theorem Grants.cases (h : k.Grants o) :
    k.Opens o ∨ o = .comes .start ∧ k.storage.started = true := by
  rcases h with ⟨rfl, h⟩ | ⟨place, p, rfl, hp, ho, h⟩
  · refine .inr ⟨rfl, ?_⟩
    by_contra hs
    rw [Storage.begin_start_fresh k.database (Bool.not_eq_true _ ▸ hs)] at h
    cases h
  · obtain rfl | rfl := ho
    · obtain ⟨-, ⟨hq, -⟩ | hq | ⟨m, hm, -⟩⟩ := k.storage.sweeping_cases k.time k.database
      · rw [hq] at h
        cases h
      · rw [hq] at h
        cases h
      · rw [hm] at h
        cases h
    · exact .inl ⟨place, rfl, hp, h⟩

/-- A sweep that is refused is followed by the recovery. -/
theorem recovers_next {place : Nat} {e : StoreError} (hp : k.calls[place]? = some .sweeping)
    (he : k.storage.answer k.database = .error (.refused e)) :
    (k.next (.goesOn place)).calls = k.calls.set place .recovering := by
  obtain ⟨-, ⟨-, ha⟩ | hq | ⟨m, -, ha⟩⟩ := k.storage.sweeping_cases k.time k.database
  · cases he.symm.trans ha
  · exact (goesOn_calls hp).1 _ hq
  · cases he.symm.trans ha

theorem Courses.granted (hc : k.Courses engine past c) (h : (k.run past).Grants o) :
    Had Opens k (past ++ [o]) ∨
      o = .comes .start ∧ (Had Founders k past ∨ (k.run past).Opening) := by
  rcases h.cases with h | ⟨rfl, hs⟩
  · exact .inl (had_snoc.2 (.inr h))
  · cases c with
    | shut => exact absurd rfl (hc.fits.started.1 hs)
    | opening =>
      have one : (k.run past).openings = 1 := hc.fits.single
      exact .inr ⟨rfl, .inr (opening_iff.2 (by omega))⟩
    | opened => exact .inl (had_snoc.2 (.inl (hc.opened.2 rfl)))
    | lost => exact .inr ⟨rfl, .inl (hc.lost.2 rfl)⟩

theorem Fits.opened (shut : k.Fits engine .shut) (fresh : k.Fresh) (unique : k.committed.Unique)
    (legal : k.Legal (past ++ o :: later)) (h : (k.run past).Opens o) :
    k.Opened engine past o later := by
  obtain ⟨c, hc⟩ := shut.run past
  obtain ⟨c₁, hc₁⟩ := shut.run (past ++ [o])
  obtain rfl := hc.fits.opening h.opening
  obtain rfl := hc₁.opened.1 (had_snoc.2 (.inr h))
  obtain ⟨hpast, hallows, hlater⟩ := legal_append.1 legal
  have hsnoc : k.Legal (past ++ [o]) := legal_append.2 ⟨hpast, hallows, trivial⟩
  obtain ⟨taken, spawned⟩ := h.effect hallows
  rw [← run_snoc, hc.fits.engine] at taken
  rw [← run_snoc] at hlater spawned
  have sound := fresh.sound.run (past ++ [o]) hsnoc
  rw [List.nil_append] at sound
  obtain ⟨log, hlog⟩ := run_history later sound hlater
  obtain ⟨before, hbefore⟩ := run_history (past ++ [o]) fresh.sound hsnoc
  refine ⟨mt hc.opened.1 (by decide), hc₁.fits.never (by decide) (by decide) later, taken,
    ⟨hc.fits.updater.2 (by decide), hc.fits.reaper.2 (by decide)⟩, spawned, log, hlog,
    fun r hr hst => ?_⟩
  rw [List.append_cons, run_append] at hr
  rcases hlog.performs.handedOut (hbefore.unique unique) hr hst with ⟨t, ht, -, htst⟩ | handed
  · exact absurd htst (taken.idle t ht)
  · exact handed

theorem Fits.lost (shut : k.Fits engine .shut) (h : (k.run past).Founders o)
    (later : List Occasion) : k.Lost past o later := by
  obtain ⟨c, hc⟩ := shut.run (past ++ [o])
  obtain rfl := hc.lost.1 (had_snoc.2 (.inr h))
  refine ⟨h.cause, ?_⟩
  rw [List.append_cons, had_append, hc.opened]
  exact not_or.2 ⟨by decide, hc.fits.never (by decide) (by decide) later⟩

/-- What there is to say of the starts of a service that was not started. -/
theorem Fits.starting (shut : k.Fits engine .shut) (fresh : k.Fresh) (unique : k.committed.Unique)
    (legal : k.Legal (past ++ o :: later)) : k.Starting engine past o later := by
  obtain ⟨c, hc⟩ := shut.run past
  refine ⟨?_, ?_, hc.granted, shut.opened fresh unique legal, fun h => shut.lost h later,
    fun h ho => ?_, fun place e ho hp he => ?_⟩
  · rw [hc.opened, Ne, hc.fits.updater, not_ne_iff]
  · rw [hc.opened, Ne, hc.fits.reaper, not_ne_iff]
  · obtain rfl := hc.lost.1 h
    obtain ⟨granted, hn⟩ := starts_again (hc.fits.started.2 (by decide))
    subst ho
    rw [run_snoc, hn]
    exact ⟨granted, rfl, rfl⟩
  · subst ho
    rw [run_snoc]
    exact recovers_next hp he

/-- **What a start means.** Whatever happens to a storage after it was made, over any store, with
any faults, other engines and overlapping calls: a start goes well at most once. It has then taken
back what ran for the engine, and only then are the loops spawned, both of them; whatever runs for
the engine later was handed out to it since. A sweep that is refused does not keep it from that. A
start that is granted goes well, or one went well before it, unless one came to nothing before or is
still under way. After one came to nothing, none goes well, and they are granted all the same. -/
theorem opens_once (engine : String) (settings : StorageSettings) (batch : Option BatchSettings)
    (monitored : Bool) {d : Database} (time : Nat) (free : d.held = none) (unique : d.store.Unique)
    {past later : List Occasion} {o : Occasion}
    (legal : Legal ⟨.create engine settings batch monitored, d, time, []⟩ (past ++ o :: later)) :
    Starting ⟨.create engine settings batch monitored, d, time, []⟩ engine past o later := by
  refine Fits.starting ⟨rfl, iff_of_false nofun (absurd rfl), rfl, iff_of_true rfl nofun,
    iff_of_true rfl nofun⟩ ⟨rfl, ?_, free⟩ ?_ legal
  · cases batch with
    | none => rfl
    | some b =>
      simp only [Storage.notified, Storage.create, Option.map_some, Batcher.create]
      split <;> rfl
  · rw [committed, Database.committed_free free]
    exact unique

/-- An instance runs for an engine, whose storage was made anew. -/
def remade : Service :=
  let run : Record :=
    { Record.ofWorkflow ⟨1⟩ 1 (.create "t" .null) with status := .running "engine" }
  let store := { Store.empty with records := [run], drawn := 1 }
  ⟨.create "engine" .standard none false, { Database.create .epoch with store }, 0, []⟩

/-- A start comes, of which something fails, and sweeps; then it is about to recover. -/
def awkward (failing : Method) : List Occasion :=
  [.weather [⟨failing, false, 0, 1, .refuse "lost"⟩] .epoch, .comes .start, .goesOn 0]

theorem allows_goesOn {place : Nat} {p : Storage.Phase} (hp : k.calls[place]? = some p)
    (hr : k.storage.ready k.database.held.isNone p = true) : k.Allows (.goesOn place) := by
  intro q hq
  rw [hp] at hq
  cases hq
  exact hr

theorem awkward_legal :
    remade.Legal (awkward .sweep ++ .goesOn 0 :: [.comes .start]) ∧
      remade.Legal (awkward .recover ++ .goesOn 0 :: [.comes .start]) :=
  ⟨⟨trivial, trivial, allows_goesOn (p := .sweeping) rfl rfl,
      allows_goesOn (p := .recovering) rfl rfl, trivial, trivial⟩,
    ⟨trivial, trivial, allows_goesOn (p := .sweeping) rfl rfl,
      allows_goesOn (p := .recovering) rfl rfl, trivial, trivial⟩⟩

/-- A start whose sweep fails goes well. -/
theorem opens_once_unswept :
    (remade.run (awkward .sweep)).Opens (.goesOn 0) ∧
      remade.Opened "engine" (awkward .sweep) (.goesOn 0) [.comes .start] ∧
      (remade.run (awkward .sweep ++ [.goesOn 0])).committed.records.map Record.status =
        [.ready] := by
  have opens : (remade.run (awkward .sweep)).Opens (.goesOn 0) := ⟨0, rfl, rfl, rfl⟩
  have unique : remade.database.store.Unique := List.nodup_singleton _
  have starting := opens_once "engine" .standard none false 0 rfl unique awkward_legal.1
  exact ⟨opens, starting.opened opens, by decide +kernel⟩

/-- A start fails to recover and comes to nothing, and the next one is granted. No loop is there,
and the instance is as it was. -/
theorem grants_unopened :
    let k := remade.run (awkward .recover)
    let k' := k.next (.goesOn 0)
    remade.Legal (awkward .recover ++ .goesOn 0 :: [.comes .start]) ∧
      k.Founders (.goesOn 0) ∧ k'.Grants (.comes .start) ∧
      (k'.next (.comes .start)).storage.updater = .absent ∧
      (k'.next (.comes .start)).storage.reaper = .absent ∧
      (k'.next (.comes .start)).committed.records.map Record.status = [.running "engine"] :=
  ⟨awkward_legal.2, ⟨0, .recovering, rfl, .inr rfl, .inr ⟨rfl, _, rfl, nofun⟩⟩, .inl ⟨rfl, rfl⟩,
    rfl, rfl, by decide +kernel⟩

end Service

end Resumption
