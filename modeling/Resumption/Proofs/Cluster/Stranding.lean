import Resumption.Proofs.Cluster.Execution
import Resumption.Proofs.Cluster.Starting
import Resumption.Proofs.Engine.Ruling

/-!
# No instance is stranded

Engines end in many ways: they are stopped and drain, the time for draining is over and dispatches
are cancelled wherever they stand, or the process dies. None of these touches the store, so whatever
an engine had claimed and not settled runs on in the store under its name, until the storage of an
engine with that name starts.

`Cluster.ruling?` says what an actor rules on runs when it goes on. Besides that, only callers have
transactions, and they do not rule on runs. `happen_ruled` is the step of what is committed, and
`run_until` the induction: what every store keeps unless there is a certain ruling is kept until such
a ruling.

**Result.** `no_instance_stranded`: what is stored stays stored until it is finished and removed; what
runs for an engine runs on unchanged until a command on it is executed or the storage of its engine
has started; and that makes ready exactly what runs under the name of the engine. The first start that
comes to a storage does so whenever it is granted. Later ones are granted at once and change nothing,
so that after a first start that failed they leave what runs where it is (`granted_start_strands`).

All that is assumed is that actors go on only when they can, and that no commit reports a failure
after it took effect (`Cluster.Plausible`).
-/

namespace Resumption

/-- The phase of the storage that the task is in, if it is with the storage. -/
def Task.call? : Task → Option Storage.Phase
  | .asking p => p.call?
  | .storing p => some p
  | .starting p => p.call?
  | .stopping p => p.call?
  | _ => none

namespace Cluster

def committed (c : Cluster) : Store := c.site.db.committed

/-- The ruling on runs when this happens. A request that is given up rules nothing. -/
def ruling? (c : Cluster) : Happening → Option Ruling
  | .goes (.request serial) =>
    (c.request? serial).bind fun r => (c.engines[r.engine]?).bind fun e =>
      if c.isLate r && !c.taskReady c.site.unlocked e r.task then none
      else e.ruling? c.site r.task.call?
  | .goes (.worker engine) =>
    (c.engines[engine]?).bind fun e => e.storage.workerRuling? c.site.db
  | .goes (.poll engine place) =>
    (c.engines[engine]?).bind fun e => e.ruling? c.site (e.pollCall? place)
  | .goes (.dispatch engine place serial) =>
    (c.engines[engine]?).bind fun e => e.ruling? c.site (e.dispatchCall? place serial)
  | _ => none

/-- Actors go on only when they can, and no commit reports a failure after it took effect. -/
def Allows (c : Cluster) : Happening → Prop
  | .goes a => c.ready a = true
  | .weather faults _ => ∀ f ∈ faults, f.method = .commit → f.after = false
  | _ => True

instance (c : Cluster) (a : Actor) : Decidable (c.Allows (.goes a)) :=
  inferInstanceAs (Decidable (c.ready a = true))

def Plausible (c : Cluster) : List Happening → Prop
  | [] => True
  | x :: hs => c.Allows x ∧ (c.happen x).Plausible hs

theorem Permits.allows {c : Cluster} {x : Happening} (h : c.Permits x) : c.Allows x := by
  cases x with
  | goes a => exact h.1
  | weather faults clock => exact h
  | _ => trivial

theorem Legal.plausibly {hs : List Happening} {c : Cluster} (h : c.Legal hs) : c.Plausible hs := by
  induction hs generalizing c with
  | nil => trivial
  | cons x hs ih => exact ⟨Permits.allows h.1, ih h.2⟩

theorem plausible_append {c : Cluster} {past later : List Happening} :
    c.Plausible (past ++ later) ↔ c.Plausible past ∧ (c.run past).Plausible later := by
  induction past generalizing c with
  | nil => exact ⟨fun h => ⟨trivial, h⟩, And.right⟩
  | cons x past ih => exact (and_congr_right fun _ => ih).trans and_assoc.symm

/-! ## Steps of requests -/

section
variable {c : Cluster} {e : Engine}

theorem takeUp_told (e : Engine) (x : Site) (d : Demand) : x.db.Told (takeUp e x d).2.2.db := by
  cases d with
  | ask a => exact .refl x.db
  | call call =>
    have h := e.storage.begin_told x.db call
    rw [takeUp]
    split <;> rename_i he <;> rw [he] at h <;> exact h
  | start => exact .refl x.db
  | stop => exact .refl x.db
  | startProcessor place => rw [takeUp]; split <;> exact .refl x.db
  | stopProcessor place =>
    rw [takeUp]
    split
    · exact .refl x.db
    · dsimp only
      split <;> exact .refl x.db

theorem advanceTask_ruled (hd : c.site.db.Timely) {t : Task}
    (hr : c.taskReady c.site.unlocked e t = true) :
    c.site.db.Ruled (e.ruling? c.site t.call?) (advanceTask e c.site t).2.2.db := by
  cases t with
  | arriving d => exact (takeUp_told e c.site d).ruled
  | asking p =>
    have h := Engine.advanceAsk_ruled hd hr
    rw [advanceTask]
    split <;> rename_i he <;> rw [he] at h <;> exact h
  | storing p =>
    have h := Engine.calling_ruled hd hr
    rw [advanceTask]
    split <;> rename_i he <;> rw [he] at h <;> exact h
  | starting p =>
    have h := Engine.advanceStart_ruled hd hr
    rw [advanceTask]
    split <;> rename_i he <;> rw [he] at h <;> exact h
  | stopping p =>
    have h := Engine.advanceStop_ruled hd hr
    rw [advanceTask]
    split <;> rename_i he <;> rw [he] at h <;> exact h
  | halting place p =>
    have h := (e.advanceHalt_calm c.site place (.going p)).2
    refine Database.Told.ruled ?_
    rw [advanceTask]
    split <;> rename_i he <;> rw [he] at h <;> exact h

theorem goOn_site (c : Cluster) (e : Engine) (r : Request) :
    (c.goOn e r).site = (advanceTask e c.site r.task).2.2 := by
  unfold goOn
  split <;> rename_i he <;> rw [he] <;> rfl

theorem giveUp_site (c : Cluster) (r : Request) : (c.giveUp r).site = c.site := by
  unfold giveUp
  dsimp only
  split <;> rfl

theorem stepRequest_ruled (hd : c.site.db.Timely) {serial : Nat}
    (hr : c.ready (.request serial) = true) :
    c.site.db.Ruled (c.ruling? (.goes (.request serial))) (c.stepRequest serial).site.db := by
  have still : c.site.db.Ruled none c.site.db := (Database.Told.refl c.site.db).ruled
  simp only [ruling?, stepRequest]
  cases hq : c.request? serial with
  | none => exact still
  | some r =>
    cases he : c.engines[r.engine]? with
    | none => simpa only [he, Option.bind_some, Option.bind_none] using still
    | some e =>
      simp only [he, Option.bind_some]
      split
      · rw [giveUp_site]
        exact still
      · rename_i hnot
        rw [goOn_site]
        exact advanceTask_ruled hd (taskReady_of_ready hr hq he hnot)

/-! ## Whatever happens -/

theorem stepEngine_ruled {place : Nat} {f : Engine → Site → Engine × Site} {x : Engine → Option Ruling}
    (h : ∀ e, c.engines[place]? = some e → c.site.db.Ruled (x e) (f e c.site).2.db) :
    c.site.db.Ruled ((c.engines[place]?).bind x) (c.stepEngine place f).site.db := by
  unfold stepEngine
  cases he : c.engines[place]? with
  | none => exact (Database.Told.refl c.site.db).ruled
  | some e => exact h e he

theorem stepStorage_ruled {place : Nat} {f : Storage → Database → Storage × Database}
    (h : ∀ s, c.site.db.Mild (f s c.site.db).2) :
    c.site.db.Ruled none (c.stepStorage place f).site.db := by
  unfold stepStorage stepEngine
  split
  · exact (Database.Told.refl c.site.db).ruled
  · exact (h _).ruled

/-- **A step of an actor** makes of the store what its ruling says. -/
theorem step_ruled (hd : c.site.db.Timely) {a : Actor} (hr : c.ready a = true) :
    c.site.db.Ruled (c.ruling? (.goes a)) (c.step a).site.db := by
  cases a with
  | request serial => exact stepRequest_ruled hd hr
  | worker place =>
    refine stepEngine_ruled fun e he => Storage.stepWorker_ruled hd c.site.time ?_
    simpa only [ready, readyWhen, he, Option.bind_some, Site.unlocked] using hr
  | updater place => exact stepStorage_ruled fun s => (s.stepUpdater_mild c.site.time c.site.db).2
  | reaper place => exact stepStorage_ruled fun s => (s.stepReaper_mild c.site.time c.site.db).2
  | poll engine place =>
    refine stepEngine_ruled fun e he => Engine.stepPoll_ruled hd fun p hp => ?_
    simpa only [ready, readyWhen, he, Option.bind_some, hp, Option.map_some, Option.getD_some]
      using hr
  | dispatch engine place serial =>
    refine stepEngine_ruled fun e he => Engine.stepDispatch_ruled hd _ fun p y hp hy => ?_
    simpa only [ready, readyWhen, he, Option.bind_some, hp, hy, Option.map_some, Bool.or_eq_true]
      using hr

/-- **Whatever happens** makes of what is committed what the ruling says. -/
theorem happen_ruled (h : c.site.db.Steady) {x : Happening} (hx : c.Allows x) :
    (c.happen x).site.db.Steady ∧ c.committed.Ruled (c.ruling? x) (c.happen x).committed := by
  have still : c.site.db.Steady ∧ c.committed.Ruled none c.committed := ⟨h, .refl c.committed⟩
  cases x with
  | goes a => exact h.ruled (step_ruled h.timely hx)
  | asks place d patience => exact still
  | delivers place rs =>
    rw [happen]
    split
    · exact h.ruled (Storage.notifyHeld_gentle _ c.site.db rs).ruled
    · exact still
  | holds => exact h.hold
  | commits => exact h.ended Work.discreet_commit fun _ => Work.keeps_commit
  | rollsBack => exact h.ended Work.discreet_rollback fun _ => Work.keeps_rollback
  | forgets => exact h.ended Work.discreet_restore fun _ => Work.keeps_restore
  | passes time => exact still
  | weather faults clock => exact ⟨⟨hx, h.unique, h.back⟩, still.2⟩
  | joins e => exact still
  | dies place => exact still

/-- What is ruled takes effect: an instance that is handed out runs for its engine, commands are
executed, each with success, and a storage that has started has taken back what ran for its engine. -/
structure Honours (c : Cluster) (x : Happening) : Prop where
  claims : ∀ engine ws, c.ruling? x = some (.claims engine ws) → ∀ w ∈ ws,
    ∃ r ∈ (c.happen x).committed.records, some r.id = w.id ∧ r.status = .running engine
  orders : ∀ remove cs, c.ruling? x = some (.orders remove cs) →
    c.committed.executeAll remove cs = (.ok (), (c.happen x).committed)
  recovery : ∀ engine, c.ruling? x = some (.recovery engine) →
    Store.TakenBack engine c.committed (c.happen x).committed

theorem honours (h : c.site.db.Steady) {x : Happening} (hx : c.Allows x) : c.Honours x := by
  have hr := (happen_ruled h hx).2
  constructor
  · intro engine ws he w hw
    rw [he] at hr
    exact hr.handedOut hw
  · intro remove cs he
    rw [he] at hr
    exact hr
  · intro engine he
    rw [he] at hr
    exact hr.takenBack

/-! ## Runs -/

/-- `P` holds of what is committed to the end, or up to a ruling that satisfies `Q`. -/
def Until (c : Cluster) (P : Store → Prop) (Q : Ruling → Prop) (hs : List Happening) : Prop :=
  P (c.run hs).committed ∨
    ∃ past x later y, hs = past ++ x :: later ∧ P (c.run past).committed ∧
      (c.run past).ruling? x = some y ∧ Q y

theorem run_steady (h : c.site.db.Steady) {hs : List Happening} (hl : c.Plausible hs) :
    (c.run hs).site.db.Steady := by
  induction hs generalizing c with
  | nil => exact h
  | cons x hs ih =>
    obtain ⟨hx, hrest⟩ := hl
    apply ih (happen_ruled h hx).1
    exact hrest

/-- **What every step keeps** unless its ruling satisfies `Q` is kept until such a ruling. -/
theorem run_until {P : Store → Prop} {Q : Ruling → Prop}
    (step : ∀ {s s' x}, s.Unique → P s → s.Ruled x s' → P s' ∨ ∃ y, x = some y ∧ Q y)
    (h : c.site.db.Steady) {hs : List Happening} (hl : c.Plausible hs) (hp : P c.committed) :
    c.Until P Q hs := by
  induction hs generalizing c with
  | nil => exact .inl hp
  | cons x hs ih =>
    obtain ⟨hx, hrest⟩ := hl
    obtain ⟨hsteady, hruled⟩ := happen_ruled h hx
    -- either the first step keeps `P`, or its ruling is the one
    rcases step h.committed_unique hp hruled with hp' | ⟨y, hy, hq⟩
    · rcases ih hsteady hrest hp' with hend | ⟨past, z, later, y, rfl, hpast, hy, hq⟩
      · exact .inl hend
      · exact .inr ⟨x :: past, z, later, y, rfl, hpast, hy, hq⟩
    · exact .inr ⟨[], x, hs, y, rfl, hp, hy, hq⟩

end

end Cluster

/-! ## Starts that are granted -/

namespace Cluster

variable {c : Cluster} {e : Engine} {r : Request} {place : Nat}

/-- A start came to the storage of the engine at the place when this happened, or the engine joined
with a storage that was started. -/
def Brought (c : Cluster) (place : Nat) (hs : List Happening) : Prop :=
  ∃ before x after, hs = before ++ x :: after ∧ (c.run before).Brings place x

/-- A storage is started only after a start came to it. -/
theorem run_started {hs : List Happening} (hl : c.Plausible hs)
    (h : (c.run hs).StartedAt place) : c.StartedAt place ∨ c.Brought place hs := by
  induction hs generalizing c with
  | nil => exact .inl h
  | cons x hs ih =>
    obtain ⟨hx, hrest⟩ := hl
    have ready : ∀ a, x = .goes a → c.ready a = true := by
      rintro a rfl
      exact hx
    rcases ih hrest h with started | ⟨before, y, after, rfl, brings⟩
    · exact (happen_started ready started).imp_right fun brings => ⟨[], x, hs, rfl, brings⟩
    · exact .inr ⟨x :: before, y, after, rfl, brings⟩

/-- What a request to the engine rules when it goes on. -/
theorem ruling?_turn {x : Happening} (h : c.turn? place x = some (e, r)) :
    c.ruling? x = e.ruling? c.site r.task.call? := by
  unfold turn? at h
  split at h
  · obtain ⟨q, hq, h⟩ := Option.bind_eq_some_iff.1 h
    obtain ⟨o, ho, h⟩ := Option.bind_eq_some_iff.1 h
    split at h
    · rename_i hp
      cases h
      obtain ⟨rfl, hready⟩ := hp
      simp only [ruling?, hq, ho, hready, Option.bind_some, Bool.not_true, Bool.and_false,
        Bool.false_eq_true, if_false]
    · cases h
  · cases h

theorem opens_told {x : Site} {t : Task} (h : t.Opens e x) :
    x.db.Told (advanceTask e x t).2.2.db := by
  unfold Task.Opens at h
  split at h
  · exact takeUp_told e x _
  · rw [advanceTask_starting, Engine.advanceStart]
    split
    · exact Engine.startComponents_told _ x
    · exact .refl x.db
  · exact h.elim

/-- **A start of a storage that is granted** has recovered, or it found the storage started and
changes nothing. -/
theorem granted_cases {x : Happening} (h : c.turn? place x = some (e, r))
    (granted : r.task.Grants e c.site) :
    c.ruling? x = some (.recovery e.storage.access.engine) ∨
      c.StartedAt place ∧ (c.happen x).committed = c.committed := by
  have recovers : ∀ {p : Storage.Phase}, p.Opens →
      (e.storage.advance c.site.time c.site.db p).1 = .over .done →
        e.ruling? c.site (some p) = some (.recovery e.storage.access.engine) := by
    rintro p (rfl | rfl) granted <;>
      simp only [Engine.ruling?, Option.bind_some, Storage.ruling?, granted, Storage.started?]
  generalize htask : r.task = t at granted
  cases granted with
  | comes opens granted =>
    obtain ⟨-, -, -, he, -, happens⟩ := turn?_some h
    refine .inr ⟨⟨e, he, Storage.started_of_granted granted⟩, ?_⟩
    obtain ⟨journal, told⟩ := opens_told opens
    rw [happens, committed, committed, goOn_site, htask, told]
    rfl
  | calling opens granted =>
    rw [ruling?_turn h, htask]
    exact .inl (recovers opens granted)
  | starting opens granted =>
    rw [ruling?_turn h, htask]
    exact .inl (recovers opens granted)

end Cluster

/-! ## The result -/

/-- **No instance is stranded.** Whatever happens to the engines over a store, as long as actors go on
only when they can and no commit reports a failure after it took effect: what is stored is stored until
it is finished and removed; what runs for an engine runs on as it is until a command on it is executed
or the storage of an engine of that name has started; and all rulings take effect, so that a storage
that has started has made ready exactly what ran under the name of its engine. A start that is granted
does that, unless a start came to the same storage before; then it changes nothing. -/
theorem no_instance_stranded {d : Database} (hu : d.store.Unique) (ht : d.Timely)
    (hn : d.held = none) {hs : List Happening} (hl : (Cluster.create d).Plausible hs) :
    (∀ past later, hs = past ++ later → ∀ id ∈ ((Cluster.create d).run past).committed.ids,
      ((Cluster.create d).run past).Until (id ∈ ·.ids) (Ruling.Removes id) later) ∧
    (∀ past later, hs = past ++ later → ∀ engine,
      ∀ r ∈ ((Cluster.create d).run past).committed.records, r.status = .running engine →
        ((Cluster.create d).run past).Until (r ∈ ·.records)
          (fun y => y.Settles r.id ∨ y = .recovery engine) later) ∧
    (∀ past x later, hs = past ++ x :: later → ((Cluster.create d).run past).Honours x) ∧
    ∀ past x later, hs = past ++ x :: later → ∀ place e r,
      ((Cluster.create d).run past).turn? place x = some (e, r) →
        r.task.Grants e ((Cluster.create d).run past).site →
          ((Cluster.create d).run past).ruling? x = some (.recovery e.storage.access.engine) ∨
            (Cluster.create d).Brought place past ∧
              (((Cluster.create d).run past).happen x).committed =
                ((Cluster.create d).run past).committed := by
  have h₀ : (Cluster.create d).site.db.Steady :=
    ⟨ht, hu, fun b (hb : d.held = some b) => by rw [hn] at hb; cases hb⟩
  refine ⟨?_, ?_, ?_, ?_⟩
  · rintro past later rfl id hid
    obtain ⟨hp, hlater⟩ := Cluster.plausible_append.1 hl
    apply Cluster.run_until _ (Cluster.run_steady h₀ hp) hlater hid
    intro s s' x _ hi hruled
    exact hruled.ids hi
  · rintro past later rfl engine r hr hst
    obtain ⟨hp, hlater⟩ := Cluster.plausible_append.1 hl
    apply Cluster.run_until _ (Cluster.run_steady h₀ hp) hlater hr
    intro s s' x hu hr hruled
    exact hruled.running hu hr hst
  · rintro past x later rfl
    obtain ⟨hp, hx, -⟩ := Cluster.plausible_append.1 hl
    exact Cluster.honours (Cluster.run_steady h₀ hp) hx
  · rintro past x later rfl place e r hturn granted
    obtain ⟨hp, -⟩ := Cluster.plausible_append.1 hl
    refine (Cluster.granted_cases hturn granted).imp_right fun ⟨started, same⟩ => ⟨?_, same⟩
    refine (Cluster.run_started hp started).resolve_left ?_
    rintro ⟨e, he, -⟩
    cases he

/-- The instance that an engine had claimed when it died runs on under its name, and the start of the
storage in its second life takes it back. -/
theorem no_instance_stranded_secondLife :
    let c := (Cluster.create (.create .epoch)).run
      (Cluster.firstLife ++ Cluster.secondLife.take 6)
    ((Cluster.create (.create .epoch)).run Cluster.firstLife).committed.records.map
        (fun r => (r.id, r.status)) = [(⟨1⟩, .running "a")] ∧
      c.ruling? (.goes (.request 2)) = some (.recovery "a") ∧
      Store.TakenBack "a" c.committed (c.happen (.goes (.request 2))).committed ∧
      ∃ e r, c.turn? 1 (.goes (.request 2)) = some (e, r) ∧ r.task.Grants e c.site ∧
        (c.ruling? (.goes (.request 2)) = some (.recovery e.storage.access.engine) ∨
          (Cluster.create (.create .epoch)).Brought 1
              (Cluster.firstLife ++ Cluster.secondLife.take 6) ∧
            (c.happen (.goes (.request 2))).committed = c.committed) := by
  intro c
  have hruling : c.ruling? (.goes (.request 2)) = some (.recovery "a") := by decide +kernel
  have hl := Cluster.Legal.plausibly Cluster.lives_legal
  have h := no_instance_stranded (d := .create .epoch) Store.unique_empty
    (Database.timely_of_quiet rfl) rfl hl
  have hsome : (c.turn? 1 (.goes (.request 2))).isSome := by decide +kernel
  obtain ⟨e, r, hturn, htask⟩ : ∃ e r, c.turn? 1 (.goes (.request 2)) = some (e, r) ∧
      r.task = .starting (.opening .recovering) :=
    ⟨_, _, (Option.some_get hsome).symm, by with_unfolding_all rfl⟩
  have grants : r.task.Grants e c.site := by
    have rules := Cluster.ruling?_turn hturn
    rw [hruling, htask] at rules
    change some _ = e.storage.started? _ at rules
    unfold Storage.started? at rules
    split at rules
    · rw [htask]
      exact .starting (.inr rfl) ‹_›
    · cases rules
  exact ⟨by decide +kernel, hruling,
    (h.2.2.1 _ _ (Cluster.secondLife.drop 7) rfl).recovery "a" hruling, e, r, hturn, grants,
    h.2.2.2 _ _ (Cluster.secondLife.drop 7) rfl 1 e r hturn grants⟩

/-- The engine joins again, the first start of its storage fails to recover, and another comes. -/
def Cluster.unrecoveredLife : List Happening :=
  [.dies 0, .joins (.finisher "a"), .weather [⟨.recover, false, 0, 1, .refuse "lost"⟩] .epoch,
    .asks 1 (.call .start) none] ++
    ([.request 2, .request 2, .request 2] : List Actor).map .goes ++ [.asks 1 (.call .start) none]

/-- The second start is granted, and what the engine had claimed in its first life still runs under
its name. -/
theorem granted_start_strands :
    let c := (Cluster.create (.create .epoch)).run (Cluster.firstLife ++ Cluster.unrecoveredLife)
    (Cluster.create (.create .epoch)).Plausible
        (Cluster.firstLife ++ Cluster.unrecoveredLife ++ [.goes (.request 3)]) ∧
      (∃ e r, c.turn? 1 (.goes (.request 3)) = some (e, r) ∧ r.task.Grants e c.site ∧
        e.storage.access.engine = "a") ∧
      (c.happen (.goes (.request 3))).committed.records.map (fun r => (r.id, r.status)) =
        [(⟨1⟩, .running "a")] := by
  have hlives := (Cluster.plausible_append.1 (Cluster.Legal.plausibly Cluster.lives_legal)).1
  refine ⟨?_, ?_, by decide +kernel⟩
  · rw [List.append_assoc]
    refine Cluster.plausible_append.2 ⟨hlives, trivial, trivial, ?_, trivial, by decide +kernel,
      by decide +kernel, by decide +kernel, trivial, by decide +kernel, trivial⟩
    exact List.forall_mem_singleton.2 fun h => nomatch h
  · have hsome : (((Cluster.create (.create .epoch)).run
        (Cluster.firstLife ++ Cluster.unrecoveredLife)).turn? 1 (.goes (.request 3))).isSome := by
      decide +kernel
    obtain ⟨e, r, hturn, htask, started, engine⟩ : ∃ e r,
        ((Cluster.create (.create .epoch)).run
            (Cluster.firstLife ++ Cluster.unrecoveredLife)).turn? 1 (.goes (.request 3)) =
          some (e, r) ∧
        r.task = .arriving (.call .start) ∧ e.storage.started = true ∧
          e.storage.access.engine = "a" :=
      ⟨_, _, (Option.some_get hsome).symm, by with_unfolding_all exact ⟨rfl, rfl, rfl⟩⟩
    refine ⟨e, r, hturn, ?_, engine⟩
    rw [htask]
    exact .comes trivial (by rw [Storage.begin, if_pos started])

end Resumption
