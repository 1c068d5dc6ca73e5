import Resumption.Proofs.Database.Session

/-!
# Transactions are all or nothing

What a transaction of its own does to the store, whichever calls fail. Work that goes well inside it
goes well on a store like the one before, and the store afterwards is the one that the work made
(`Work.transact_ok`). When the transaction fails, the store is the one from before
(`Work.transact_error`), as long as no commit fails after it took effect: that is the hypothesis
`Database.Timely` on the planned faults, and nothing is assumed of all others.

`Database.Aside` relates two databases that agree on all that work does not change: the clock and
the transaction that is held. It also passes on that the faults are timely and that there are none.
-/

namespace Resumption

namespace Database

/-- No commit that is planned to fail fails after it took effect. -/
def Timely (d : Database) : Prop := ∀ f ∈ d.faults, f.method = .commit → f.after = false

/-- A call that is planned to fail reports an error; nobody crashes. -/
def Gentle (d : Database) : Prop := ∀ f ∈ d.faults, ∃ reason, f.blow = .refuse reason

/-- What work leaves alone besides the store and the journal. -/
structure Aside (d d' : Database) : Prop where
  clock : d'.clock = d.clock
  held : d'.held = d.held
  timely : d.Timely → d'.Timely
  gentle : d.Gentle → d'.Gentle
  quiet : d.faults = [] → d'.faults = []

theorem Aside.refl (d : Database) : d.Aside d := ⟨rfl, rfl, id, id, id⟩

theorem Aside.trans {d₁ d₂ d₃ : Database} (h : d₁.Aside d₂) (h' : d₂.Aside d₃) : d₁.Aside d₃ :=
  ⟨h'.clock.trans h.clock, h'.held.trans h.held, h'.timely ∘ h.timely, h'.gentle ∘ h.gentle,
    h'.quiet ∘ h.quiet⟩

theorem timely_of_quiet {d : Database} (h : d.faults = []) : d.Timely := by
  intro f hf
  rw [h] at hf
  cases hf

theorem gentle_of_quiet {d : Database} (h : d.faults = []) : d.Gentle := by
  intro f hf
  rw [h] at hf
  cases hf

end Database

/-! ## Faults -/

namespace Fault

theorem meet_shape {m : Method} {after : Bool} {fs : List Fault} {f : Fault}
    (h : f ∈ (meet m after fs).2) :
    ∃ g ∈ fs, g.method = f.method ∧ g.after = f.after ∧ g.blow = f.blow := by
  induction fs with
  | nil => cases h
  | cons g fs ih =>
    rw [meet] at h
    split at h
    · obtain ⟨n, t, h⟩ : ∃ n t, f ∈ { g with skip := n, times := t } :: fs := by
        cases hk : g.skip with
        | zero => exact ⟨0, g.times - 1, by rw [hk] at h; exact h⟩
        | succ n => exact ⟨n, g.times, by rw [hk] at h; exact h⟩
      rcases List.mem_cons.1 h with rfl | h
      · exact ⟨g, List.mem_cons_self, rfl, rfl, rfl⟩
      · exact ⟨f, List.mem_cons_of_mem _ h, rfl, rfl, rfl⟩
    · rcases List.mem_cons.1 h with rfl | h
      · exact ⟨f, List.mem_cons_self, rfl, rfl, rfl⟩
      · obtain ⟨g', hg, he⟩ := ih h
        exact ⟨g', List.mem_cons_of_mem _ hg, he⟩

theorem meet_blow {m : Method} {after : Bool} {fs : List Fault} {b : Blow}
    (h : (meet m after fs).1 = some b) : ∃ f ∈ fs, f.blow = b := by
  induction fs with
  | nil => cases h
  | cons g fs ih =>
    rw [meet] at h
    split at h
    · cases hk : g.skip with
      | zero =>
        rw [hk] at h
        exact ⟨g, List.mem_cons_self, Option.some.inj h⟩
      | succ n =>
        rw [hk] at h
        cases h
    · obtain ⟨f, hf, he⟩ := ih h
      exact ⟨f, List.mem_cons_of_mem _ hf, he⟩

/-- A call strikes only when some fault is planned for it. -/
theorem meet_none {m : Method} {after : Bool} {fs : List Fault}
    (h : ∀ f ∈ fs, f.method = m → f.after ≠ after) : (meet m after fs).1 = none := by
  induction fs with
  | nil => rfl
  | cons g fs ih =>
    have hg : g.concerns m after = false := by
      by_cases hm : g.method = m
      · simp [concerns, hm, h g List.mem_cons_self hm]
      · simp [concerns, hm]
    rw [meet, if_neg (by simp [hg])]
    exact ih fun f hf => h f (List.mem_cons_of_mem _ hf)

end Fault

namespace Work

variable {α β : Type}

/-! ## What work leaves alone -/

/-- Work that changes nothing but the store, the journal and the counters of the faults. -/
def Discreet (w : Work α) : Prop := ∀ d : Database, d.Aside (w.on d).2

theorem discreet_pure (a : α) : Discreet (pure a : Work α) := fun d => .refl d

theorem discreet_throw (e : Failure) : Discreet (throw e : Work α) := fun d => .refl d

theorem discreet_tell (e : Event) : Discreet (tell e) := fun _ => ⟨rfl, rfl, id, id, id⟩

theorem discreet_restore (s : Store) : Discreet (restore s) := fun _ => ⟨rfl, rfl, id, id, id⟩

theorem discreet_bind {w : Work α} {f : α → Work β} (hw : Discreet w) (hf : ∀ a, Discreet (f a)) :
    Discreet (w >>= f) := by
  intro d
  have hd := hw d
  rw [on_bind]
  rcases hr : w.on d with ⟨r, d'⟩
  rw [hr] at hd
  cases r with
  | error e => exact hd
  | ok a => exact hd.trans (hf a d')

theorem discreet_tryCatch {w : Work α} {f : Failure → Work α} (hw : Discreet w)
    (hf : ∀ e, Discreet (f e)) : Discreet (tryCatch w f) := by
  intro d
  have hd := hw d
  rw [on_tryCatch]
  rcases hr : w.on d with ⟨r, d'⟩
  rw [hr] at hd
  cases r with
  | ok a => exact hd
  | error e => exact hd.trans (hf e d')

theorem discreet_clock {f : Instant → Work α} (h : ∀ now, Discreet (f now)) :
    Discreet (get >>= fun d => f d.clock) := by
  intro d
  rw [on_bind, on_get]
  exact h d.clock d

/-- The outcome of meeting faults, and the database with their counters changed. -/
theorem meet_on (m : Method) (after : Bool) (d : Database) :
    (meet m after).on d =
      (match (Fault.meet m after d.faults).1 with
        | none => .ok ()
        | some (.refuse reason) => .error (.refused (.database reason))
        | some (.crash message) => .error (.crashed message),
        { d with faults := (Fault.meet m after d.faults).2 }) := by
  simp only [meet, on_bind, on_get, on_set]
  rcases Fault.meet m after d.faults with ⟨blow, faults⟩
  rcases blow with _ | (_ | _) <;> rfl

theorem discreet_meet (m : Method) (after : Bool) : Discreet (meet m after) := by
  intro d
  rw [meet_on]
  refine ⟨rfl, rfl, fun h f hf hc => ?_, fun h f hf => ?_, fun h => ?_⟩
  · obtain ⟨g, hg, hm, ha, -⟩ := Fault.meet_shape hf
    rw [← ha]
    exact h g hg (hm.trans hc)
  · obtain ⟨g, hg, -, -, hb⟩ := Fault.meet_shape hf
    rw [← hb]
    exact h g hg
  · show (Fault.meet m after d.faults).2 = []
    rw [h]
    rfl

theorem discreet_call (m : Method) (o : Store → Except StoreError α × Store) :
    Discreet (call m o) := by
  refine discreet_bind (discreet_meet _ _) fun _ => discreet_bind ?_ fun a =>
    discreet_bind (discreet_meet _ _) fun _ => discreet_pure a
  intro d
  rw [onStore_on]
  exact ⟨rfl, rfl, id, id, id⟩

theorem discreet_callTotal (m : Method) (o : Store → α × Store) : Discreet (callTotal m o) :=
  discreet_call m _

theorem discreet_execute (a : Access) (c : Command) : Discreet (execute a c) := by
  cases c with
  | suspend c payload => exact discreet_call .suspend fun s => s.suspend c payload
  | notify r => exact discreet_callTotal .notify fun s => ((), s.notify [r])
  | finish id => exact discreet_call .finish fun s => s.finish a.removeFinished id
  | fail id cause => exact discreet_call .fail fun s => s.fail id cause

theorem discreet_executeAll (a : Access) (cs : List Command) : Discreet (executeAll a cs) := by
  induction cs with
  | nil => exact discreet_pure ()
  | cons c cs ih => exact discreet_bind (discreet_execute a c) fun _ => ih

theorem discreet_openTransaction : Discreet openTransaction := by
  have hg : Discreet (do return (← get).store : Work Store) := fun d => .refl d
  exact discreet_bind (discreet_tell _) fun _ => discreet_bind (discreet_meet _ _) fun _ =>
    discreet_bind (discreet_meet _ _) fun _ => hg

theorem discreet_commit (before : Store) : Discreet (commit before) :=
  discreet_bind (discreet_tell _) fun _ => discreet_bind
    (discreet_tryCatch (discreet_meet _ _) fun e =>
      discreet_bind (discreet_restore before) fun _ => discreet_throw e)
    fun _ => discreet_meet _ _

theorem discreet_rollback (before : Store) : Discreet (rollback before) :=
  discreet_bind (discreet_tell _) fun _ => discreet_bind (discreet_restore before) fun _ =>
    discreet_bind (discreet_meet _ _) fun _ => discreet_meet _ _

theorem discreet_abandon (before : Store) (e : Failure) :
    Discreet (abandon before e : Work α) := by
  cases e with
  | crashed message => exact discreet_bind (discreet_restore before) fun _ => discreet_throw _
  | refused cause =>
    refine discreet_bind (discreet_tryCatch (discreet_rollback before) fun e => ?_)
      fun _ => discreet_throw _
    cases e with
    | refused cause => exact discreet_tell _
    | crashed message => exact discreet_throw _

theorem discreet_transact {w : Work α} (hw : Discreet w) : Discreet (transact w) :=
  discreet_bind discreet_openTransaction fun b =>
    discreet_bind (discreet_tryCatch hw fun e => discreet_abandon b e) fun a =>
      discreet_bind (discreet_commit b) fun _ => discreet_pure a

/-! ## Taking a run of work apart -/

theorem bind_ok {w : Work α} {f : α → Work β} {d d' : Database} {b : β}
    (h : (w >>= f).on d = (.ok b, d')) :
    ∃ a d₁, w.on d = (.ok a, d₁) ∧ (f a).on d₁ = (.ok b, d') := by
  rw [on_bind] at h
  rcases hw : w.on d with ⟨r, d₁⟩
  rw [hw] at h
  cases r with
  | error e => cases h
  | ok a => exact ⟨a, d₁, rfl, h⟩

theorem bind_error {w : Work α} {f : α → Work β} {d d' : Database} {e : Failure}
    (h : (w >>= f).on d = (.error e, d')) :
    w.on d = (.error e, d') ∨ ∃ a d₁, w.on d = (.ok a, d₁) ∧ (f a).on d₁ = (.error e, d') := by
  rw [on_bind] at h
  rcases hw : w.on d with ⟨r, d₁⟩
  rw [hw] at h
  cases r with
  | error e => cases h; exact .inl rfl
  | ok a => exact .inr ⟨a, d₁, rfl, h⟩

theorem tryCatch_ok {w : Work α} {f : Failure → Work α} {d d' : Database} {a : α}
    (h : (tryCatch w f).on d = (.ok a, d')) :
    w.on d = (.ok a, d') ∨ ∃ e d₁, w.on d = (.error e, d₁) ∧ (f e).on d₁ = (.ok a, d') := by
  rw [on_tryCatch] at h
  rcases hw : w.on d with ⟨r, d₁⟩
  rw [hw] at h
  cases r with
  | ok a => cases h; exact .inl rfl
  | error e => exact .inr ⟨e, d₁, rfl, h⟩

theorem tryCatch_error {w : Work α} {f : Failure → Work α} {d d' : Database} {e : Failure}
    (h : (tryCatch w f).on d = (.error e, d')) :
    ∃ e₁ d₁, w.on d = (.error e₁, d₁) ∧ (f e₁).on d₁ = (.error e, d') := by
  rw [on_tryCatch] at h
  rcases hw : w.on d with ⟨r, d₁⟩
  rw [hw] at h
  cases r with
  | ok a => cases h
  | error e => exact ⟨e, d₁, rfl, h⟩

theorem meet_store {m : Method} {after : Bool} {d d' : Database} {r : Except Failure Unit}
    (h : (meet m after).on d = (r, d')) : d'.store = d.store := by
  rw [meet_on] at h
  cases h
  rfl

/-! ## What a transaction does to the store -/

/-- A call that goes well does to the store what its operation does. -/
theorem call_ok {m : Method} {o : Store → Except StoreError α × Store} {d d' : Database} {a : α}
    (h : (call m o).on d = (.ok a, d')) : o d.store = (.ok a, d'.store) := by
  obtain ⟨_, d₁, h₁, h⟩ := bind_ok h
  obtain ⟨x, d₂, h₂, h⟩ := bind_ok h
  obtain ⟨_, d₃, h₃, h⟩ := bind_ok h
  cases h
  rw [onStore_on, meet_store h₁] at h₂
  rw [meet_store h₃]
  rcases ho : o d.store with ⟨r, s⟩
  rw [ho] at h₂
  cases r with
  | error e => cases h₂
  | ok x => cases h₂; rfl

theorem callTotal_ok {m : Method} {o : Store → α × Store} {d d' : Database} {a : α}
    (h : (callTotal m o).on d = (.ok a, d')) : o d.store = (a, d'.store) := by
  have := call_ok h
  simp only [Prod.mk.injEq, Except.ok.injEq] at this
  exact Prod.ext this.1 this.2

/-- A command that goes well does to the store what it says. -/
theorem execute_ok {a : Access} {c : Command} {d d' : Database}
    (h : (execute a c).on d = (.ok (), d')) :
    d.store.execute a.removeFinished c = (.ok (), d'.store) := by
  cases c with
  | suspend c payload => exact call_ok h
  | notify r => exact call_ok (o := fun s => (.ok (), s.notify [r])) h
  | finish id => exact call_ok h
  | fail id cause => exact call_ok h

theorem openTransaction_store {d d' : Database} {r : Except Failure Store}
    (h : openTransaction.on d = (r, d')) : d'.store = d.store := by
  have ht : (tell (.boundary .begin)).on d = (.ok ⟨⟩, d.tell (.boundary .begin)) := rfl
  rw [openTransaction, on_bind, ht] at h
  cases r with
  | ok b =>
    obtain ⟨_, d₁, h₁, h⟩ := bind_ok h
    obtain ⟨_, d₂, h₂, h⟩ := bind_ok h
    cases h
    exact (meet_store h₂).trans (meet_store (d := d.tell _) h₁)
  | error e =>
    rcases bind_error h with h | ⟨_, d₁, h₁, h⟩
    · exact meet_store (d := d.tell _) h
    rcases bind_error h with h | ⟨_, d₂, h₂, h⟩
    · exact (meet_store h).trans (meet_store (d := d.tell _) h₁)
    · cases h

theorem openTransaction_ok {d d' : Database} {before : Store}
    (h : openTransaction.on d = (.ok before, d')) : before = d.store := by
  rw [← openTransaction_store h]
  obtain ⟨_, d₁, -, h⟩ := bind_ok h
  obtain ⟨_, d₂, -, h⟩ := bind_ok h
  obtain ⟨_, d₃, -, h⟩ := bind_ok h
  cases h
  rfl

theorem rollback_store {before : Store} {d d' : Database} {r : Except Failure Unit}
    (h : (rollback before).on d = (r, d')) : d'.store = before := by
  have ht : (tell (.boundary .rollback)).on d = (.ok ⟨⟩, d.tell (.boundary .rollback)) := rfl
  have hr : ∀ d, (restore before).on d = (.ok ⟨⟩, { d with store := before }) := fun _ => rfl
  simp only [rollback, on_bind, ht, hr] at h
  rcases h₁ : (meet .rollback false).on { d.tell (.boundary .rollback) with store := before } with
    ⟨r₁, d₁⟩
  rw [h₁] at h
  have hs : d₁.store = before := meet_store h₁
  cases r₁ with
  | ok u => exact (meet_store h).trans hs
  | error e => cases h; exact hs

/-- Work whose transaction is abandoned leaves the store from before. -/
theorem abandon_store {before : Store} {e : Failure} {d d' : Database} {r : Except Failure α}
    (h : (abandon before e : Work α).on d = (r, d')) : d'.store = before := by
  cases e with
  | crashed message => cases h; rfl
  | refused cause =>
    rw [abandon, on_bind, on_tryCatch] at h
    rcases hb : (rollback before).on d with ⟨r₁, d₁⟩
    rw [hb] at h
    have hs := rollback_store hb
    rcases r₁ with (_ | _) | _ <;> cases h <;> exact hs

theorem abandon_fails {before : Store} {e : Failure} {d d' : Database} {a : α} :
    (abandon before e : Work α).on d ≠ (.ok a, d') := by
  intro h
  cases e with
  | crashed message => cases h
  | refused cause =>
    rw [abandon] at h
    obtain ⟨_, d₁, -, h⟩ := bind_ok h
    cases h

theorem commit_ok {before : Store} {d d' : Database} (h : (commit before).on d = (.ok (), d')) :
    d'.store = d.store := by
  have ht : (tell (.boundary .commit)).on d = (.ok ⟨⟩, d.tell (.boundary .commit)) := rfl
  rw [commit, on_bind, ht] at h
  obtain ⟨_, d₁, h₁, h⟩ := bind_ok h
  rcases tryCatch_ok h₁ with h₁ | ⟨e, d₂, -, h₁⟩
  · exact (meet_store h).trans (meet_store (d := d.tell _) h₁)
  · cases h₁

/-- A commit that fails puts the store back, unless it failed after it took effect. -/
theorem commit_error {before : Store} {d d' : Database} (hd : d.Timely) {e : Failure}
    (h : (commit before).on d = (.error e, d')) : d'.store = before := by
  have ht : (tell (.boundary .commit)).on d = (.ok ⟨⟩, d.tell (.boundary .commit)) := rfl
  rw [commit, on_bind, ht] at h
  rcases bind_error h with h | ⟨_, d₁, h₁, h⟩
  · obtain ⟨e₁, d₁, -, h⟩ := tryCatch_error h
    cases h
    rfl
  · rcases tryCatch_ok h₁ with h₁ | ⟨e, d₂, -, h₁⟩
    · have hd₁ : d₁.Timely := by
        have := (discreet_meet .commit false (d.tell (.boundary .commit))).timely hd
        rwa [h₁] at this
      have hn : (Fault.meet .commit true d₁.faults).1 = none :=
        Fault.meet_none fun f hf hc ha => by rw [hd₁ f hf hc] at ha; cases ha
      rw [meet_on, hn] at h
      cases h
    · cases h₁

/-- **A transaction that goes well** did its work on the store from before, and the store is the
one that the work made. -/
theorem transact_ok {w : Work α} {d d' : Database} {a : α} (h : (transact w).on d = (.ok a, d')) :
    ∃ d₀ d₁, d.Aside d₀ ∧ d₀.store = d.store ∧ w.on d₀ = (.ok a, d₁) ∧ d'.store = d₁.store := by
  obtain ⟨before, d₀, h₀, h⟩ := bind_ok h
  obtain ⟨x, d₁, h₁, h⟩ := bind_ok h
  obtain ⟨_, d₂, h₂, h⟩ := bind_ok h
  cases h
  have hd := discreet_openTransaction d
  rw [h₀] at hd
  rcases tryCatch_ok h₁ with h₁ | ⟨e, d₃, -, h₁⟩
  · exact ⟨d₀, d₁, hd, openTransaction_store h₀, h₁, commit_ok h₂⟩
  · exact absurd h₁ abandon_fails

/-- A command whose transaction goes well did to the store what it says. -/
theorem transactOne_ok {a : Access} {c : Command} {d d' : Database}
    (h : (transact (executeAll a [c])).on d = (.ok (), d')) :
    d.store.execute a.removeFinished c = (.ok (), d'.store) := by
  obtain ⟨d₀, d₁, -, hs, hx, hs'⟩ := transact_ok h
  obtain ⟨u, d₂, hc, hnil⟩ := bind_ok hx
  cases hnil
  rw [← hs, hs']
  exact execute_ok hc

/-- **A transaction that fails** leaves the store from before, when no commit fails after it took
effect. -/
theorem transact_error {w : Work α} (hw : Discreet w) {d d' : Database} (hd : d.Timely)
    {e : Failure} (h : (transact w).on d = (.error e, d')) : d'.store = d.store := by
  rcases bind_error h with h | ⟨before, d₀, h₀, h⟩
  · exact openTransaction_store h
  obtain rfl := openTransaction_ok h₀
  rcases bind_error h with h | ⟨a, d₁, h₁, h⟩
  · obtain ⟨e₁, d₁, -, h⟩ := tryCatch_error h
    exact abandon_store h
  rcases tryCatch_ok h₁ with h₁ | ⟨e, d₂, -, h₁⟩
  · have hd₁ : d₁.Timely := by
      have := ((discreet_openTransaction d).trans (by rw [h₀]; exact hw d₀)).timely hd
      rwa [h₁] at this
    rcases bind_error h with h | ⟨_, d₂, -, h⟩
    · exact commit_error hd₁ h
    · cases h
  · exact absurd h₁ abandon_fails

/-! ## Without crashes -/

/-- Work that reports its failures when nobody crashes. -/
def Reports (w : Work α) : Prop :=
  ∀ d : Database, d.Gentle → ∀ e d', w.on d = (.error e, d') → ∃ cause, e = .refused cause

theorem reports_pure (a : α) : Reports (pure a : Work α) := fun _ _ _ _ h => nomatch h

theorem reports_tell (e : Event) : Reports (tell e) := fun _ _ _ _ h => nomatch h

theorem reports_restore (s : Store) : Reports (restore s) := fun _ _ _ _ h => nomatch h

theorem reports_bind {w : Work α} {f : α → Work β} (hd : Discreet w) (hw : Reports w)
    (hf : ∀ a, Reports (f a)) : Reports (w >>= f) := by
  intro d hg e d' h
  rcases bind_error h with h | ⟨a, d₁, h₁, h⟩
  · exact hw d hg e d' h
  · have hg₁ := (hd d).gentle hg
    rw [h₁] at hg₁
    exact hf a d₁ hg₁ e d' h

theorem reports_meet (m : Method) (after : Bool) : Reports (meet m after) := by
  intro d hg e d' h
  rw [meet_on] at h
  rcases hb : (Fault.meet m after d.faults).1 with _ | (reason | message)
  · rw [hb] at h
    cases h
  · rw [hb] at h
    cases h
    exact ⟨_, rfl⟩
  · obtain ⟨f, hf, he⟩ := Fault.meet_blow hb
    obtain ⟨reason, hr⟩ := hg f hf
    rw [hr] at he
    cases he

theorem reports_call (m : Method) (o : Store → Except StoreError α × Store) :
    Reports (call m o) := by
  have hd : Discreet (onStore o) := fun d => by rw [onStore_on]; exact ⟨rfl, rfl, id, id, id⟩
  have ho : Reports (onStore o) := by
    intro d _ e d' h
    rw [onStore_on] at h
    rcases hr : (o d.store).1 with cause | a
    · rw [hr] at h
      cases h
      exact ⟨cause, rfl⟩
    · rw [hr] at h
      cases h
  exact reports_bind (discreet_meet _ _) (reports_meet _ _) fun _ => reports_bind hd ho fun a =>
    reports_bind (discreet_meet _ _) (reports_meet _ _) fun _ => reports_pure a

theorem reports_execute (a : Access) (c : Command) : Reports (execute a c) := by
  cases c with
  | suspend c payload => exact reports_call .suspend fun s => s.suspend c payload
  | notify r => exact reports_call .notify fun s => (.ok (), s.notify [r])
  | finish id => exact reports_call .finish fun s => s.finish a.removeFinished id
  | fail id cause => exact reports_call .fail fun s => s.fail id cause

theorem reports_executeAll (a : Access) (cs : List Command) : Reports (executeAll a cs) := by
  induction cs with
  | nil => exact reports_pure ()
  | cons c cs ih => exact reports_bind (discreet_execute a c) (reports_execute a c) fun _ => ih

theorem reports_openTransaction : Reports openTransaction :=
  reports_bind (discreet_tell _) (reports_tell _) fun _ =>
    reports_bind (discreet_meet _ _) (reports_meet _ _) fun _ =>
      reports_bind (discreet_meet _ _) (reports_meet _ _) fun _ _ _ _ _ h => nomatch h

theorem reports_commit (before : Store) : Reports (commit before) := by
  have back : Discreet (tryCatch (meet .commit false) fun e => do restore before; throw e) :=
    discreet_tryCatch (discreet_meet _ _) fun e =>
      discreet_bind (discreet_restore before) fun _ => discreet_throw e
  refine reports_bind (discreet_tell _) (reports_tell _) fun _ =>
    reports_bind back ?_ fun _ => reports_meet _ _
  intro d hg e d' h
  obtain ⟨e₁, d₁, h₁, h⟩ := tryCatch_error h
  cases h
  exact reports_meet _ _ d hg _ _ h₁

theorem reports_rollback (before : Store) : Reports (rollback before) :=
  reports_bind (discreet_tell _) (reports_tell _) fun _ =>
    reports_bind (discreet_restore before) (reports_restore before) fun _ =>
      reports_bind (discreet_meet _ _) (reports_meet _ _) fun _ => reports_meet _ _

theorem reports_abandon (before : Store) (cause : StoreError) :
    Reports (abandon before (.refused cause) : Work α) := by
  intro d hg e d' h
  rw [abandon] at h
  rcases bind_error h with h | ⟨u, d₁, -, h⟩
  · obtain ⟨e₁, d₁, h₁, h⟩ := tryCatch_error h
    obtain ⟨c, rfl⟩ := reports_rollback before d hg e₁ d₁ h₁
    cases h
  · cases h
    exact ⟨cause, rfl⟩

/-- A transaction reports its failure when nobody crashes. -/
theorem reports_transact {w : Work α} (hd : Discreet w) (hw : Reports w) :
    Reports (transact w) := by
  refine reports_bind discreet_openTransaction reports_openTransaction fun before =>
    reports_bind (discreet_tryCatch hd fun e => discreet_abandon before e) ?_ fun a =>
      reports_bind (discreet_commit before) (reports_commit before) fun _ => reports_pure a
  intro d hg e d' h
  obtain ⟨e₁, d₁, h₁, h⟩ := tryCatch_error h
  obtain ⟨cause, rfl⟩ := hw d hg e₁ d₁ h₁
  have hg₁ := (hd d).gentle hg
  rw [h₁] at hg₁
  exact reports_abandon before cause d₁ hg₁ e d' h

/-! ## Without faults -/

theorem abandon_quiet {before : Store} {e : Failure} {d : Database} (h : d.faults = []) :
    ((abandon before e : Work α).on d).1 = .error e := by
  cases e with
  | crashed message => rfl
  | refused cause =>
    have ht : (tell (.boundary .rollback)).on d = (.ok ⟨⟩, d.tell (.boundary .rollback)) := rfl
    have hr : ∀ d, (restore before).on d = (.ok ⟨⟩, { d with store := before }) := fun _ => rfl
    have hm : ∀ after, (meet .rollback after).on
        { d.tell (.boundary .rollback) with store := before } =
          (.ok (), { d.tell (.boundary .rollback) with store := before }) :=
      fun after => meet_quiet (d := { d.tell (.boundary .rollback) with store := before }) h _ after
    simp only [abandon, rollback, on_bind, on_tryCatch, ht, hr, hm]
    rfl

theorem commit_quiet {before : Store} {d : Database} (h : d.faults = []) :
    (commit before).on d = (.ok (), d.tell (.boundary .commit)) := by
  have ht : (tell (.boundary .commit)).on d = (.ok ⟨⟩, d.tell (.boundary .commit)) := rfl
  have hm : ∀ after, (meet .commit after).on (d.tell (.boundary .commit)) =
      (.ok (), d.tell (.boundary .commit)) := fun after => meet_quiet (d := d.tell _) h _ after
  simp only [commit, on_bind, on_tryCatch, ht, hm]

/-- Without faults a transaction answers as its work does on the store from before. -/
theorem transact_quiet {w : Work α} (hw : Discreet w) {d : Database} (h : d.faults = []) :
    ∃ d₀, d.Aside d₀ ∧ d₀.store = d.store ∧ ((transact w).on d).1 = (w.on d₀).1 := by
  have ht : (tell (.boundary .begin)).on d = (.ok ⟨⟩, d.tell (.boundary .begin)) := rfl
  have hq : (d.tell (.boundary .begin)).faults = [] := h
  have ho : openTransaction.on d = (.ok d.store, d.tell (.boundary .begin)) := by
    simp only [openTransaction, on_bind, ht, meet_quiet hq]
    rfl
  refine ⟨d.tell (.boundary .begin), ⟨rfl, rfl, id, id, id⟩, rfl, ?_⟩
  have hx := (hw (d.tell (.boundary .begin))).quiet hq
  rw [transact, on_bind, ho]
  simp only [on_bind, on_tryCatch]
  rcases hr : w.on (d.tell (.boundary .begin)) with ⟨r, d₁⟩
  rw [hr] at hx
  cases r with
  | error e =>
    have ha : ((abandon d.store e : Work α).on d₁).1 = .error e := abandon_quiet hx
    rcases hy : (abandon d.store e : Work α).on d₁ with ⟨r, d₂⟩
    rw [hy] at ha
    cases ha
    simp only [hy]
  | ok a => simp only [commit_quiet hx, on_pure]

end Work

/-! ## Transactions that a caller holds -/

namespace Database

/-- A transaction is opened for a caller with the store as it is, or not at all. -/
theorem hold_cases (d : Database) :
    ∃ d₁, d.Aside d₁ ∧ d₁.store = d.store ∧
      ((∃ e, Work.hold.on d = (.error e, d₁)) ∨
        Work.hold.on d = (.ok (), { d₁ with held := some d.store })) := by
  have ha := Work.discreet_openTransaction d
  simp only [Work.hold, Work.on_bind]
  rcases h : Work.openTransaction.on d with ⟨e | before, d₁⟩ <;> rw [h] at ha
  · exact ⟨d₁, ha, Work.openTransaction_store h, .inl ⟨e, rfl⟩⟩
  · obtain rfl := Work.openTransaction_ok h
    exact ⟨d₁, ha, Work.openTransaction_store h, .inr rfl⟩

theorem ended_free {f : Store → Work Unit} (hf : ∀ s, (f s).Discreet) (d : Database) :
    ((Work.release >>= f).on d).2.held = none ∧
      (d.Timely → ((Work.release >>= f).on d).2.Timely) := by
  have ha := hf (d.held.getD d.store) { d with held := none }
  rw [Work.on_bind, release_on]
  exact ⟨ha.held, ha.timely⟩

end Database

end Resumption
