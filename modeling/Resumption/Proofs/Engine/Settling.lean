import Resumption.Proofs.Engine.Consulting
import Resumption.Proofs.Engine.Dispatching
import Resumption.Proofs.Engine.Upshot

/-!
# The course of a dispatch

`Dispatching` is a dispatch at its engine while others use the same storage as they like, and the
engine changes around it; the answers of the writer are kept. `Dispatching.Course` is the invariant.
Up to its first call at the storage, a dispatch leads the store only where others could have led it
(`Dispatching.Stands`). Then the call takes its course (`Recording.Course`); a callback that cannot
be written goes on as a second call, that the instance failed (`Course.resumes`). And the dispatch
**ends according to what the writer answered** (`Dispatching.Ends`).
-/

namespace Resumption

/-! ## Dispatches among others -/

/-- A dispatch at its engine. -/
structure Dispatching where
  engine : Engine
  site : Site
  /-- There is an engine when the dispatch begins. -/
  found : Bool
  claimed : Workflow
  progress : DispatchProgress
  /-- What the writer has answered to the commands on the instance so far. -/
  answers : List (Except StoreError Unit)

namespace Dispatching

open Interference (Clear Drift Room)

def begin (e : Engine) (x : Site) (found : Bool) (w : Workflow) : Dispatching :=
  ⟨e, x, found, w, .going .fresh, []⟩

/-- What can happen during a dispatch. -/
inductive Move where
  /-- The dispatch goes on if it can. -/
  | goesOn
  /-- Others do something at the storage or to the store. -/
  | around (m : Interference)
  /-- The engine and the site change beyond that. -/
  | meanwhile (e : Engine) (x : Site)

def Move.Within (b : Bounds) : Move → Prop
  | .around m => m.Within b
  | _ => True

def Move.Quiet : Move → Prop
  | .around m => m.Quiet
  | _ => True

def own? (k : Dispatching) : Option Nat :=
  match k.progress with
  | .going (.settling (.writing _ p) _) => p.ticket?
  | .going (.asking (.storing (.writing _ p) _) _) => p.ticket?
  | _ => none

def next (k : Dispatching) : Move → Dispatching
  | .goesOn =>
    match k.progress with
    | .going p =>
      if k.engine.dispatchReady k.site k.site.unlocked p then
        let (progress, engine, site) := k.engine.advanceDispatch k.site k.found k.claimed p
        { k with
          engine, site, progress
          answers := k.answers ++ k.engine.hears k.site k.found k.claimed p }
      else k
    | .over => k
  | .around m =>
    let (storage, db) := m.next k.own? k.engine.storage k.site.db
    { k with engine := { k.engine with storage }, site := { k.site with db } }
  | .meanwhile e x =>
    { k with
      engine := { e with
        id := k.engine.id, registry := k.engine.registry, inject := k.engine.inject
        storage := k.engine.storage }
      site := { x with db := k.site.db } }

def after (k : Dispatching) (ms : List Move) : Dispatching := ms.foldl next k

theorem after_append (k : Dispatching) (ms ms' : List Move) :
    k.after (ms ++ ms') = (k.after ms).after ms' := List.foldl_append

/-! ## How dispatches end -/

/-- How the end of a dispatch agrees with what the writer answered, and what the dispatch did to the
store. -/
inductive Ends (removal : Bool → Prop) (id : Uuid) :
    Upshot → List (Except StoreError Unit) → List Action → Prop where
  | finished {remove : Bool} (hr : removal remove) :
      Ends removal id .finished [.ok ()] [.finish remove id]
  | finishFailed (e : StoreError) :
      Ends removal id .finished [.error e, .ok ()] [.fail id ("finish failed: " ++ e.message)]
  | suspended {c : Callback} (hc : c.instanceId = id) (payload : Json) :
      Ends removal id (.suspended c payload) [.ok ()] [.suspend c payload]
  | suspensionFailed (c : Callback) (payload : Json) (e : StoreError) :
      Ends removal id (.suspended c payload) [.error e, .ok ()] [.fail id e.message]
  | failed (cause : String) : Ends removal id (.failed cause) [.ok ()] [.fail id cause]
  /-- Every command that was tried was refused, and nothing was done. -/
  | lost {u : Upshot} (es : List StoreError) (all : es.length = u.attempts) :
      Ends removal id u (es.map .error) []

/-- A call that the dispatch hands to the storage, after what the writer has answered so far. -/
inductive Tasks (id : Uuid) :
    Upshot → Settlement → Storage.Call → List (Except StoreError Unit) → Prop where
  | finish {w : Workflow} (hw : w.id = some id) : Tasks id .finished .plain (.finish w) []
  | suspend {w : Workflow} {c : Callback} (hc : w.callback = some c) (hi : c.instanceId = id)
      (hw : w.id = some id) : Tasks id (.suspended c w.payload) (.suspension w) (.suspend w) []
  | fail {w : Workflow} (hw : w.id = some id) (cause : String) :
      Tasks id (.failed cause) .plain (.fail w cause) []
  | fallback {w : Workflow} (hw : w.id = some id) (c : Callback) (payload : Json) (e : StoreError) :
      Tasks id (.suspended c payload) .plain (.fail w e.message) [.error e]

variable {b : Bounds} {quiet : Prop} {id : Uuid} {origin : Engine} {start : Database}
  {found : Bool} {claimed : Workflow} {u : Upshot} {s : Settlement} {call : Storage.Call}
  {earlier answers : List (Except StoreError Unit)} {k : Dispatching}

theorem Tasks.records (h : Tasks id u s call earlier) : call.Records := by cases h <;> trivial

theorem Tasks.ends (h : Tasks id u .plain call earlier) {monitored : Bool} {reply : Storage.Reply}
    {acts : List Action} {notes : List Event}
    (he : Storage.Ends b.removal monitored call answers reply acts notes) :
    Ends b.removal id u (earlier ++ answers) acts := by
  cases h with
  | finish hw =>
    cases he with
    | finished hid hr => cases hw.symm.trans hid; exact .finished hr
    | finishFailed hid e => cases hw.symm.trans hid; exact .finishFailed e
    | finishLost hid e e' => exact .lost [e, e'] rfl
    | finishNameless hid => cases hw.symm.trans hid
  | fail hw cause =>
    cases he with
    | failed hid => cases hw.symm.trans hid; exact .failed cause
    | failLost hid _ e => exact .lost [e] rfl
    | failNameless hid => cases hw.symm.trans hid
  | fallback hw c payload e =>
    cases he with
    | failed hid => cases hw.symm.trans hid; exact .suspensionFailed c payload e
    | failLost hid _ e' => exact .lost [e, e'] rfl
    | failNameless hid => cases hw.symm.trans hid

/-- Where the dispatch crashed over a command, those before it were refused. -/
theorem Tasks.refused (h : Tasks id u s call earlier) {p : Storage.Purpose} {c : Command}
    {notes : List Event} (attempt : Storage.Attempts call p c answers notes) :
    ∃ es : List StoreError, earlier ++ answers = es.map .error ∧ es.length < u.attempts := by
  cases h with
  | finish hw =>
    cases attempt with
    | finish hid => exact ⟨[], rfl, Nat.zero_lt_two⟩
    | fallback hid e => exact ⟨[e], rfl, Nat.one_lt_two⟩
  | suspend hc =>
    cases attempt
    exact ⟨[], rfl, Nat.zero_lt_two⟩
  | fail hw cause =>
    cases attempt
    exact ⟨[], rfl, Nat.one_pos⟩
  | fallback hw c payload e =>
    cases attempt
    exact ⟨[e], rfl, Nat.one_lt_two⟩

/-- The first command of a call is one on the instance. -/
theorem Tasks.attempts (h : Tasks id u s call earlier) :
    (∃ p c notes, Storage.Attempts call p c [] notes) ∧
      ∀ p c answers notes, Storage.Attempts call p c answers notes → c.instanceId? = some id := by
  cases h with
  | finish hw =>
    refine ⟨⟨_, _, _, .finish hw⟩, fun p c answers notes ha => ?_⟩
    cases ha with
    | finish hid => exact hid.symm.trans hw
    | fallback hid e => exact hid.symm.trans hw
  | suspend hc hi hw =>
    refine ⟨⟨_, _, _, .suspend hc⟩, fun p c answers notes ha => ?_⟩
    cases ha with
    | suspend hc' => cases hc.symm.trans hc'; exact congrArg some hi
  | fail hw cause =>
    refine ⟨⟨_, _, _, .fail hw cause⟩, fun p c answers notes ha => ?_⟩
    cases ha with
    | fail hid => exact hid.symm.trans hw
  | fallback hw c payload e =>
    refine ⟨⟨_, _, _, .fail hw e.message⟩, fun p c answers notes ha => ?_⟩
    cases ha with
    | fail hid => exact hid.symm.trans hw

/-- A run that is over hands its result to the storage. -/
theorem tasks_of_run {r : Run} (faithful : r.Faithful id) (h : r.task? = some (call, s)) :
    ∃ u, r.upshot? = some u ∧ Tasks id u s call [] := by
  cases r with
  | finished w => cases h; exact ⟨_, rfl, .finish faithful⟩
  | suspended w =>
    simp only [Run.task?, Option.some.injEq] at h
    cases hc : w.callback with
    | some c =>
      rw [hc] at h
      cases h
      exact ⟨_, by rw [Run.upshot?, hc], .suspend hc (faithful.2 c hc) faithful.1⟩
    | none =>
      rw [hc] at h
      cases h
      exact ⟨_, by rw [Run.upshot?, hc], .fail faithful.1 _⟩
  | failed w causes => cases h; exact ⟨_, rfl, .fail faithful _⟩
  | panicked w message => cases h; exact ⟨_, rfl, .fail faithful _⟩
  | _ => cases h

/-! ## The invariant -/

/-- A run within the bounds that the runner of the instance has got to. -/
structure Reached (b : Bounds) (id : Uuid) (origin : Engine) (found : Bool) (claimed : Workflow)
    (r : Run) : Prop where
  found : found = true
  begun : ∃ runner now lifecycle, origin.registry.runner? claimed.type = some runner ∧
    Run.Reaches claimed (runner ⟨now, origin.id, lifecycle⟩ (origin.inject claimed)) r
  faithful : r.Faithful id
  within : r.Within b

/-- Where a dispatch is before it hands anything to the storage. -/
inductive Stands (b : Bounds) (id : Uuid) (origin : Engine) (found : Bool) (claimed : Workflow)
    (e : Engine) : DispatchPhase → Prop where
  | fresh (name : e.id = origin.id) (registry : e.registry = origin.registry)
      (inject : e.inject = origin.inject) : Stands b id origin found claimed e .fresh
  | running {r : Run} (h : Reached b id origin found claimed r) :
      Stands b id origin found claimed e (.running r)
  | pausing {due : Nat} {d : Duration} {next : Run}
      (h : Reached b id origin found claimed (.pause d next)) :
      Stands b id origin found claimed e (.pausing due next)
  | asking {p : AskPhase} {a : Ask} {next : Answer → Run}
      (h : Reached b id origin found claimed (.ask a next)) (within : p.Within b)
      (gives : ∀ x, p.MayGive x → a.MayGive x) :
      Stands b id origin found claimed e (.asking p next)

/-- How far a dispatch has got since the engine was `origin` and the database `start`. In quiet,
nothing has failed so far. -/
inductive Course (b : Bounds) (quiet : Prop) (id : Uuid) (origin : Engine) (start : Database) :
    Dispatching → Prop where
  | stands {k : Dispatching} {phase : DispatchPhase} (progress : k.progress = .going phase)
      (stage : Stands b id origin k.found k.claimed k.engine phase)
      (led : Drift b origin.storage start k.engine.storage k.site.db) (silent : k.answers = [])
      (clear : quiet → Clear k.engine.storage k.site.db) : Course b quiet id origin start k
  /-- A call is with the storage. -/
  | settles {k : Dispatching} {u : Upshot} {s : Settlement} {call : Storage.Call}
      {earlier answers : List (Except StoreError Unit)} {p : Storage.Phase} {s₀ : Storage}
      {d₀ : Database} (progress : k.progress = .going (.settling p s))
      (yields : origin.Yields k.found k.claimed u) (task : Tasks id u s call earlier)
      (led : Drift b origin.storage start s₀ d₀)
      (recording : Recording.Course b s₀ d₀ call
        ⟨k.engine.storage, k.site.db, .going p, answers⟩)
      (heard : k.answers = earlier ++ answers)
      (faultless : quiet → earlier = [] ∧
        Recording.Faultless ⟨k.engine.storage, k.site.db, .going p, answers⟩) :
      Course b quiet id origin start k
  | ended {k : Dispatching} {u : Upshot} {acts : List Action} (progress : k.progress = .over)
      (yields : origin.Yields k.found k.claimed u) (ends : Ends b.removal id u k.answers acts)
      (room : Room b none k.engine.storage k.site.db)
      (chain : start.store.Amid b.foreign acts k.site.db.store)
      (granted : quiet → k.answers = [.ok ()]) : Course b quiet id origin start k
  /-- The dispatch crashed over a command, and those before it were refused. -/
  | crashed {k : Dispatching} {u : Upshot} (es : List StoreError) (progress : k.progress = .over)
      (yields : origin.Yields k.found k.claimed u) (refused : k.answers = es.map .error)
      (fewer : es.length < u.attempts) (loud : ¬ b.calm) (direct : origin.storage.batcher = none)
      (room : Room b none k.engine.storage k.site.db)
      (chain : start.store.Amid b.foreign [] k.site.db.store) (never : ¬ quiet) :
      Course b quiet id origin start k

/-! ## Calls at the storage -/

section

variable {s₀ : Storage} {d₀ : Database} {R : Recording} {e : Engine} {x : Site}

/-- The dispatch when its call at the storage has got so far. -/
def resume (k : Dispatching) (s : Settlement) (earlier : List (Except StoreError Unit))
    (R : Recording) : Dispatching :=
  let step := (R.progress, R.storage, R.database)
  let (progress, engine, site) := k.engine.proceed k.site s step
  { k with engine, site, progress, answers := earlier ++ R.answers ++ s.hears step }

theorem Course.resumes_going {p : Storage.Phase} {storage : Storage} {database : Database}
    (yields : origin.Yields k.found k.claimed u) (task : Tasks id u s call earlier)
    (led : Drift b origin.storage start s₀ d₀)
    (recording : Recording.Course b s₀ d₀ call ⟨storage, database, .going p, answers⟩)
    (faultless : quiet → earlier = [] ∧ Recording.Faultless ⟨storage, database, .going p, answers⟩) :
    Course b quiet id origin start (k.resume s earlier ⟨storage, database, .going p, answers⟩) := by
  refine .settles rfl yields task led recording ?_ faultless
  simp only [resume]
  cases s <;> exact List.append_nil _

/-- Where the caller of the call crashed, the dispatch did. -/
theorem Course.resumes_crashed {m : String} {storage : Storage} {database : Database}
    (yields : origin.Yields k.found k.claimed u) (task : Tasks id u s call earlier)
    (led : Drift b origin.storage start s₀ d₀)
    (recording : Recording.Course b s₀ d₀ call ⟨storage, database, .over (.crashed m), answers⟩)
    (faultless : quiet → Recording.Faultless ⟨storage, database, .over (.crashed m), answers⟩) :
    Course b quiet id origin start
      (k.resume s earlier ⟨storage, database, .over (.crashed m), answers⟩) := by
  cases recording with
  | attempts progress => cases progress
  | ended progress ends => cases progress; cases ends
  | crashed progress attempt loud direct room done =>
    obtain ⟨es, refused, fewer⟩ := task.refused attempt
    have direct : origin.storage.batcher = none := by
      rw [← Option.not_isSome_iff_eq_none, ← led.batched, direct]
      exact Bool.false_ne_true
    have silent : k.resume s earlier ⟨storage, database, .over (.crashed m), answers⟩ =
        { k with
          engine := { k.engine with storage }, site := { k.site with db := database }
          progress := .over, answers := es.map .error } := by
      rw [← refused]
      cases s <;> simp only [resume, Engine.proceed, Engine.settled, Settlement.hears,
        List.append_nil]
    rw [silent]
    refine .crashed es rfl yields rfl fewer loud direct room (led.chain.append done) fun q => ?_
    -- the answer that a faultless recording is over with is none before a crash
    rcases (faultless q).heard with ⟨-, p, q, going, -⟩ | ⟨ok, -⟩
    · cases going
    · have ok : answers = [.ok ()] := ok
      rw [ok] at attempt
      cases attempt

theorem Course.resumes_plain (yields : origin.Yields k.found k.claimed u)
    (task : Tasks id u .plain call earlier) (led : Drift b origin.storage start s₀ d₀)
    (recording : Recording.Course b s₀ d₀ call R)
    (faultless : quiet → earlier = [] ∧ Recording.Faultless R) :
    Course b quiet id origin start (k.resume .plain earlier R) := by
  obtain ⟨storage, database, progress, answers⟩ := R
  rcases progress with p | reply
  · exact .resumes_going yields task led recording faultless
  · cases recording with
    | attempts progress => cases progress
    | crashed progress attempt loud direct room done told =>
      cases progress
      exact .resumes_crashed yields task led
        (.crashed rfl attempt loud direct room done told) fun q => (faultless q).2
    | ended progress ends room done =>
      cases progress
      have silent : k.resume .plain earlier ⟨storage, database, .over reply, answers⟩ =
          { k with
            engine := { k.engine with storage }, site := { k.site with db := database }
            progress := .over, answers := earlier ++ answers } := by
        simp only [resume, Engine.proceed, Engine.settled, Settlement.hears, List.append_nil]
      rw [silent]
      refine .ended rfl yields (task.ends ends) room (led.chain.append done) fun q => ?_
      obtain ⟨rfl, calm⟩ := faultless q
      rcases calm.heard with ⟨-, p, q, going, -⟩ | ⟨ok, -⟩
      · cases going
      · exact ok

theorem resume_refused (k : Dispatching) (w : Workflow) (storage : Storage) (database : Database)
    (e : StoreError) :
    k.resume (.suspension w) [] ⟨storage, database, .over (.refused e), [.error e]⟩ =
      k.resume .plain [.error e] (Recording.begin storage
        (database.tell (.fault "failed to persist register call")) (.fail w e.message)) := by
  simp only [resume, Recording.begin, Engine.proceed, Engine.settled, Engine.settle_eq,
    Settlement.hears, Site.tell, List.nil_append, List.append_nil]

/-- **A call at the storage** goes on, or it ends the dispatch, or it goes on as a failure. -/
theorem Course.resumes (yields : origin.Yields k.found k.claimed u)
    (task : Tasks id u s call earlier) (led : Drift b origin.storage start s₀ d₀)
    (recording : Recording.Course b s₀ d₀ call R)
    (batched : R.storage.batcher.isSome = origin.storage.batcher.isSome)
    (faultless : quiet → earlier = [] ∧ Recording.Faultless R) :
    Course b quiet id origin start (k.resume s earlier R) := by
  cases task with
  | finish hw => exact .resumes_plain yields (.finish hw) led recording faultless
  | fail hw cause => exact .resumes_plain yields (.fail hw cause) led recording faultless
  | fallback hw c payload e =>
    exact .resumes_plain yields (.fallback hw c payload e) led recording faultless
  | @suspend w c hc hi hw =>
    obtain ⟨storage, database, progress, answers⟩ := R
    rcases progress with p | reply
    · exact .resumes_going yields (.suspend hc hi hw) led recording faultless
    · cases recording with
      | attempts progress => cases progress
      | crashed progress attempt loud direct room done told =>
        cases progress
        exact .resumes_crashed yields (.suspend hc hi hw) led
          (.crashed rfl attempt loud direct room done told) fun q => (faultless q).2
      | ended progress ends room done =>
        cases progress
        cases ends with
        | suspended hc' =>
          cases hc.symm.trans hc'
          exact .ended rfl yields (.suspended hi w.payload) room (led.chain.append done)
            fun _ => rfl
        | purposeless hc' => cases hc.symm.trans hc'
        | refused hc' e =>
          rw [resume_refused]
          have told := database.told_tell (.fault "failed to persist register call")
          have led' : Drift b origin.storage start storage database :=
            ⟨room, led.chain.append done, batched⟩
          refine .resumes_plain yields (.fallback hw c w.payload e) (led'.told told)
            (.begin trivial (room.told told)) fun q => ?_
          rcases (faultless q).2.heard with ⟨-, p, q, going, -⟩ | ⟨ok, -⟩
          · cases going
          · cases ok

end

/-! ## Steps before the first call -/

section

variable {e e' : Engine} {x : Site} {phase : DispatchPhase} {c : Storage.Call}

theorem Stands.congr (h : Stands b id origin found claimed e phase) (name : e'.id = e.id)
    (registry : e'.registry = e.registry) (inject : e'.inject = e.inject) :
    Stands b id origin found claimed e' phase := by
  cases h with
  | fresh hn hr hi => exact .fresh (name.trans hn) (registry.trans hr) (inject.trans hi)
  | running h => exact .running h
  | pausing h => exact .pausing h
  | asking h within gives => exact .asking h within gives

/-- What a dispatch hands to the storage first is what there is to record. -/
theorem Stands.tasks (h : Stands b id origin found claimed e phase) (named : claimed.id = some id)
    (ht : e.task? found claimed phase = some (c, s)) :
    ∃ u, origin.Yields found claimed u ∧ Tasks id u s c [] := by
  cases h with
  | fresh name registry inject =>
    simp only [Engine.task?, registry] at ht
    split at ht
    · rename_i hf
      cases ht
      exact ⟨_, .unavailable (by simpa using hf), .fail named _⟩
    · rename_i hf
      have hf : found = true := by simpa using hf
      split at ht
      · rename_i hr
        cases ht
        exact ⟨_, .unregistered hf hr, .fail named _⟩
      · cases ht
  | running h =>
    obtain ⟨u, hu, task⟩ := tasks_of_run h.faithful ht
    obtain ⟨runner, now, lifecycle, hr, run⟩ := h.begun
    exact ⟨u, .ran h.found hr run hu, task⟩
  | pausing h => cases ht
  | asking h => cases ht

/-- The runners of the instance ask only for what is up to others. -/
def Modest (b : Bounds) (e : Engine) (w : Workflow) : Prop :=
  ∀ runner surroundings, e.registry.runner? w.type = some runner →
    (runner surroundings (e.inject w)).Within b

/-- What a step before the first call leads to. -/
structure Strides (b : Bounds) (id : Uuid) (origin : Engine) (found : Bool) (claimed : Workflow)
    (e : Engine) (x : Site) (step : DispatchProgress × Engine × Site) : Prop where
  goes : ∃ phase, step.1 = .going phase ∧ Stands b id origin found claimed step.2.1 phase
  led : Drift b e.storage x.db step.2.1.storage step.2.2.db
  clear : Clear e.storage x.db → Clear step.2.1.storage step.2.2.db

theorem Stands.strides_asking {p : AskPhase} {a : Ask} {next : Answer → Run}
    (h : Reached b id origin found claimed (.ask a next)) (within : p.Within b)
    (gives : ∀ x, p.MayGive x → a.MayGive x) (named : claimed.id = some id)
    (room : Room b none e.storage x.db) :
    Strides b id origin found claimed e x (e.advanceDispatch x found claimed (.asking p next)) := by
  have consults := Engine.advanceAsk_consults (x := x) room within
  obtain ⟨hf, ⟨runner, now, lifecycle, hr, run⟩, faithful, modestly⟩ := h
  rw [Engine.advanceDispatch]
  split <;> rename_i he <;> rw [he] at consults
  · rename_i q e₁ x₁
    obtain ⟨within', gives'⟩ := consults.going q rfl
    exact ⟨⟨_, rfl, .asking ⟨hf, ⟨runner, now, lifecycle, hr, run⟩, faithful, modestly⟩ within'
      fun y hy => gives y (gives' y hy)⟩, consults.led, consults.clear⟩
  · exact ⟨⟨_, rfl, .running ⟨hf, ⟨runner, now, lifecycle, hr, .crashes _ run⟩, named, trivial⟩⟩,
      consults.led, consults.clear⟩
  · rename_i y e₁ x₁ _
    exact ⟨⟨_, rfl, .running ⟨hf, ⟨runner, now, lifecycle, hr, .hears y run⟩,
      faithful y (gives y (consults.ends y rfl)), modestly.2 y⟩⟩, consults.led, consults.clear⟩

/-- **A step before the first call** leads the store where others could have led it. -/
theorem Stands.strides (h : Stands b id origin found claimed e phase)
    (named : claimed.id = some id) (loyal : origin.Loyal) (modest : Modest b origin claimed)
    (room : Room b none e.storage x.db) (ht : e.task? found claimed phase = none) :
    Strides b id origin found claimed e x (e.advanceDispatch x found claimed phase) := by
  -- a step that leaves the storage and the database alone
  have still : ∀ {q x'}, x'.db = x.db → Stands b id origin found claimed e q →
      Strides b id origin found claimed e x (.going q, e, x') := fun hx hq =>
    ⟨⟨_, rfl, hq⟩, by rw [hx]; exact room.led, fun h => by rw [hx]; exact h⟩
  cases h with
  | fresh name registry inject =>
    simp only [Engine.task?] at ht
    split at ht
    · cases ht
    · rename_i hf
      split at ht
      · cases ht
      · rename_i runner hr
        rw [Engine.advanceDispatch, Engine.beginRun, if_neg hf]
        simp only [hr]
        rw [registry] at hr
        rw [name, inject]
        refine still rfl (.running ⟨by simpa using hf, ⟨runner, _, _, hr, .here⟩, ?_, ?_⟩)
        · exact loyal claimed id runner _ hr named
        · exact modest runner _ hr
  | @running r h =>
    obtain ⟨hf, ⟨runner, now, lifecycle, hr, run⟩, faithful, within⟩ := h
    rw [Engine.advanceDispatch]
    cases r with
    | pause d next =>
      exact still rfl (.pausing (d := d) ⟨hf, ⟨runner, now, lifecycle, hr, run⟩, faithful, within⟩)
    | ask a next =>
      exact still rfl (.asking ⟨hf, ⟨runner, now, lifecycle, hr, run⟩, faithful, within⟩ within.1
        fun _ h => h)
    | visit next =>
      exact still rfl (.running ⟨hf, ⟨runner, now, lifecycle, hr, .counts _ run⟩, faithful _,
        within _⟩)
    | _ => cases ht
  | @pausing due d next h =>
    obtain ⟨hf, ⟨runner, now, lifecycle, hr, run⟩, faithful, within⟩ := h
    exact still rfl (.running ⟨hf, ⟨runner, now, lifecycle, hr, .resumes run⟩, faithful, within⟩)
  | asking h within gives => exact strides_asking h within gives named room

end

/-! ## Steps -/

/-- The dispatch is of a claimed instance, and the runners of the instance are faithful and ask only
for what is up to others. In quiet, others leave the instance stored. -/
structure Fair (b : Bounds) (quiet : Prop) (id : Uuid) (origin : Engine) (start : Database)
    (claimed : Workflow) : Prop where
  named : claimed.id = some id
  loyal : origin.Loyal
  modest : Modest b origin claimed
  stored : quiet → ∀ t, start.store.Amid b.foreign [] t → ∃ r, t.find? id = some r

theorem Fair.welcome (h : Fair b quiet id origin start claimed) (q : quiet) {s₀ : Storage}
    {d₀ : Database} (led : Drift b origin.storage start s₀ d₀) (task : Tasks id u s call earlier) :
    Recording.Welcome b d₀.store call := by
  intro p c notes attempt t chain remove
  obtain ⟨r, hr⟩ := h.stored q t (led.chain.append chain)
  exact Store.execute_found hr remove (task.attempts.2 _ _ _ _ attempt)

/-- What the dispatch does while its call at the storage makes a move. -/
def mirror : Recording.Move → Move
  | .goesOn => .goesOn
  | .around m => .around m

/-- A dispatch moves on as its call at the storage does. -/
theorem next_mirror {k : Dispatching} {q : Storage.Purpose} {c : Storage.Passage}
    (progress : k.progress = .going (.settling (.writing q c) s))
    (heard : k.answers = earlier ++ answers) (m : Recording.Move) :
    k.next (mirror m) = k.resume s earlier ((Recording.mk k.engine.storage k.site.db
      (.going (.writing q c)) answers).next m) := by
  have silent : ∀ p (storage : Storage) (db : Database),
      s.hears (.going p, storage, db) = [] := fun _ _ _ => by cases s <;> rfl
  cases m with
  | goesOn =>
    by_cases ready : k.engine.storage.ready k.site.db.held.isNone (.writing q c) = true
    · have ready' : k.engine.dispatchReady k.site k.site.unlocked (.settling (.writing q c) s) =
          true := ready
      simp only [mirror, next, progress, ready', Recording.next, ready, if_true, resume,
        Engine.advance_settling, Engine.hears, heard, Storage.advance, List.append_assoc]
    · have waits : ¬ k.engine.dispatchReady k.site k.site.unlocked
          (.settling (.writing q c) s) = true := ready
      simp only [mirror, next, progress, if_neg waits, Recording.next, if_neg ready, resume,
        Engine.proceed, silent, List.append_nil, ← heard]
      rw [← progress]
  | around m =>
    simp only [mirror, next, own?, progress, Recording.next, Recording.own?, resume, Engine.proceed,
      silent, List.append_nil, ← heard]

/-- The dispatch goes on with its call at the storage, or others do something. -/
theorem Course.next_settling {p : Storage.Phase} {s₀ : Storage} {d₀ : Database}
    (fair : Fair b quiet id origin start k.claimed) (progress : k.progress = .going (.settling p s))
    (yields : origin.Yields k.found k.claimed u) (task : Tasks id u s call earlier)
    (led : Drift b origin.storage start s₀ d₀)
    (recording : Recording.Course b s₀ d₀ call ⟨k.engine.storage, k.site.db, .going p, answers⟩)
    (heard : k.answers = earlier ++ answers)
    (faultless : quiet → earlier = [] ∧
      Recording.Faultless ⟨k.engine.storage, k.site.db, .going p, answers⟩)
    {m : Recording.Move} (hm : m.Within b) (calm : quiet → m.Quiet) :
    Course b quiet id origin start (k.next (mirror m)) := by
  cases recording with
  | ended going => cases going
  | crashed going => cases going
  | @attempts q c passage notes going attempt underway told akin =>
    cases going
    have course := Recording.Course.attempts rfl attempt underway told akin
    rw [next_mirror progress heard]
    refine .resumes yields task led (course.next hm) ?_ fun quietly => ?_
    · exact (Recording.next_akin rfl underway hm).batched.trans (akin.batched.trans led.batched)
    · obtain ⟨first, faultless⟩ := faultless quietly
      exact ⟨first, faultless.next course (fair.welcome quietly led task) (calm quietly)⟩

theorem next_task {k : Dispatching} {phase : DispatchPhase} (progress : k.progress = .going phase)
    (silent : k.answers = []) (ready : k.engine.dispatchReady k.site k.site.unlocked phase = true)
    (ht : k.engine.task? k.found k.claimed phase = some (call, s)) :
    ∃ x, k.site.db.Told x.db ∧ k.next .goesOn =
      resume { k with site := x } s [] (Recording.begin k.engine.storage x.db call) := by
  obtain ⟨x, told, tells, ha⟩ := Engine.advance_task (x := k.site) ht
  refine ⟨x, told, ?_⟩
  have hears : k.engine.hears k.site k.found k.claimed phase =
      k.engine.storage.heardFirst call ++ s.hears (k.engine.storage.begin x.db call) := by
    have same : s.hears (k.engine.storage.begin k.site.db call) =
        s.hears (k.engine.storage.begin x.db call) := by
      rcases tells with rfl | rfl <;> rfl
    cases phase with
    | settling p s => cases ht
    | _ => simp only [Engine.hears, ht, same]
  simp only [next, progress, ready, if_true, ha, hears, silent, resume, Recording.begin,
    List.nil_append]

/-- Before its first call, the dispatch goes on if it can. -/
theorem Course.goesOn_stands {phase : DispatchPhase}
    (fair : Fair b quiet id origin start k.claimed) (progress : k.progress = .going phase)
    (stage : Stands b id origin k.found k.claimed k.engine phase)
    (led : Drift b origin.storage start k.engine.storage k.site.db) (silent : k.answers = [])
    (clear : quiet → Clear k.engine.storage k.site.db) :
    Course b quiet id origin start (k.next .goesOn) := by
  by_cases ready : k.engine.dispatchReady k.site k.site.unlocked phase = true
  · cases ht : k.engine.task? k.found k.claimed phase with
    | none =>
      obtain ⟨⟨phase', hp, stage'⟩, led', clear'⟩ :=
        stage.strides fair.named fair.loyal fair.modest led.room ht
      have hears : k.engine.hears k.site k.found k.claimed phase = [] := by
        cases stage <;> simp only [Engine.hears, ht]
      simp only [next, progress, ready, if_true, hears, silent, List.append_nil]
      exact .stands hp stage' (led.trans led') rfl fun q => clear' (clear q)
    | some task =>
      obtain ⟨call, s⟩ := task
      obtain ⟨u, yields, task⟩ := stage.tasks fair.named ht
      obtain ⟨x, told, hk⟩ := next_task progress silent ready ht
      have led' := led.told told
      rw [hk]
      refine .resumes (k := { k with site := x }) yields task led'
        (.begin task.records led'.room) ?_ fun quietly => ⟨rfl, ?_⟩
      · exact (Storage.begin_akin _ _ task.records).batched.trans led.batched
      · obtain ⟨⟨p, c, notes, attempt⟩, -⟩ := task.attempts
        exact .begin attempt led'.room ((clear quietly).aside told.mild.aside (.refl _))
  · have stays : k.next .goesOn = k := by simp only [next, progress, if_neg ready]
    rw [stays]
    exact .stands progress stage led silent clear

theorem Course.around_stands {phase : DispatchPhase} (progress : k.progress = .going phase)
    (stage : Stands b id origin k.found k.claimed k.engine phase)
    (led : Drift b origin.storage start k.engine.storage k.site.db) (silent : k.answers = [])
    (clear : quiet → Clear k.engine.storage k.site.db) {m : Interference} (hm : m.Within b)
    (calm : quiet → m.Quiet) : Course b quiet id origin start (k.next (.around m)) := by
  rcases m.next_own k.own? k.engine.storage k.site.db with same | nothing
  · have led' := led.room.led_next hm
    simp only [next, same]
    exact .stands progress (stage.congr rfl rfl rfl) (led.trans led') silent
      fun q => (clear q).next led.room (calm q)
  · simp only [next, nothing]
    exact .stands progress stage led silent clear

/-- **The course of a dispatch** is kept by whatever happens. -/
theorem Course.next (h : Course b quiet id origin start k)
    (fair : Fair b quiet id origin start k.claimed) {m : Move} (hm : m.Within b)
    (calm : quiet → m.Quiet) : Course b quiet id origin start (k.next m) := by
  cases h with
  | stands progress stage led silent clear =>
    cases m with
    | goesOn => exact goesOn_stands fair progress stage led silent clear
    | around m => exact around_stands progress stage led silent clear hm calm
    | meanwhile e x => exact .stands progress (stage.congr rfl rfl rfl) led silent clear
  | settles progress yields task led recording heard faultless =>
    have moves : ∀ m : Recording.Move, m.Within b → (quiet → m.Quiet) →
        Course b quiet id origin start (k.next (mirror m)) := fun m =>
      next_settling fair progress yields task led recording heard faultless
    cases m with
    | goesOn => exact moves .goesOn trivial fun _ => trivial
    | around m => exact moves (.around m) hm calm
    | meanwhile e x => exact .settles progress yields task led recording heard faultless
  | ended progress yields ends room chain granted =>
    cases m with
    | goesOn =>
      simp only [Dispatching.next, progress]
      exact .ended progress yields ends room chain granted
    | around m =>
      have led := room.led_next (m := m) hm
      have chain' := chain.append led.chain
      rw [List.append_nil] at chain'
      simp only [Dispatching.next, own?, progress]
      exact .ended rfl yields ends led.room chain' granted
    | meanwhile e x => exact .ended progress yields ends room chain granted
  | crashed es progress yields refused fewer loud direct room chain never =>
    cases m with
    | goesOn =>
      simp only [Dispatching.next, progress]
      exact .crashed es progress yields refused fewer loud direct room chain never
    | around m =>
      have led := room.led_next (m := m) hm
      simp only [Dispatching.next, own?, progress]
      exact .crashed es rfl yields refused fewer loud direct led.room (chain.append led.chain) never
    | meanwhile e x =>
      exact .crashed es progress yields refused fewer loud direct room chain never

theorem next_same (k : Dispatching) (m : Move) :
    (k.next m).found = k.found ∧ (k.next m).claimed = k.claimed := by
  cases m with
  | goesOn =>
    simp only [Dispatching.next]
    split
    · split <;> exact ⟨rfl, rfl⟩
    · exact ⟨rfl, rfl⟩
  | _ => exact ⟨rfl, rfl⟩

theorem after_same (ms : List Move) (k : Dispatching) :
    (k.after ms).found = k.found ∧ (k.after ms).claimed = k.claimed := by
  induction ms generalizing k with
  | nil => exact ⟨rfl, rfl⟩
  | cons m ms ih =>
    obtain ⟨hf, hc⟩ := ih (k.next m)
    exact ⟨hf.trans (k.next_same m).1, hc.trans (k.next_same m).2⟩

theorem Course.after (h : Course b quiet id origin start k)
    (fair : Fair b quiet id origin start k.claimed) {ms : List Move}
    (hm : ∀ m ∈ ms, m.Within b) (calm : quiet → ∀ m ∈ ms, m.Quiet) :
    Course b quiet id origin start (k.after ms) := by
  induction ms generalizing k with
  | nil => exact h
  | cons m ms ih =>
    have first := h.next fair (hm m List.mem_cons_self) fun q => calm q m List.mem_cons_self
    exact ih first ((k.next_same m).2 ▸ fair) (fun m h => hm m (List.mem_cons_of_mem _ h))
      fun q m h => calm q m (List.mem_cons_of_mem _ h)

end Dispatching

end Resumption
