import Mathlib.Algebra.GroupWithZero.Nat
import Resumption.Proofs.Storage.Actions
import Resumption.Proofs.Storage.Conduct
import Resumption.Proofs.Store.Expiry

/-!
# How expired responses are discarded

The reaper and the start of a storage discard expired responses in passes, each in a transaction of
its own. There is another pass when the last one discarded as many as it may and nobody stopped the
storage meanwhile. `Storage.sweepAlong` lines the passes up: each happens at a moment, which is what
its clock says and whether the storage was stopped when it was done, and nobody else writes. The
reaper and the start go by these passes (`Storage.reapAlong_eq`, `Storage.startAlong_eq`).

**Measure.** A pass after which there is another one has discarded `Storage.sweepBatch` responses,
so the responses that are left are a measure of the passes to come (`Pass`, `answers_length`).

**Result.** `sweep_drains`. A pass that fails leaves the responses as the passes before it did,
unless its commit reports a failure after it took effect: what it discarded is gone then
(`sweep_fails_late`).
-/

namespace Resumption

/-- When a pass happens: what the clock says, and whether the storage is stopped when it is done. -/
structure Storage.Moment where
  clock : Instant
  stopped : Bool

/-- The database when its clock says so. -/
def Database.atMoment (d : Database) (m : Storage.Moment) : Database := { d with clock := m.clock }

/-- The storage, stopped or not. -/
def Storage.atMoment (st : Storage) (m : Moment) : Storage := { st with stopped := m.stopped }

/-- What passes answered, how the sweep goes on after them, and the database that they leave. -/
structure Passes where
  answers : List (Except Failure Nat)
  verdict : Storage.Sweep
  left : Database

/-- How many responses the passes discarded that went well. -/
def Passes.total (p : Passes) : Nat := (p.answers.filterMap Except.toOption).sum

namespace Storage

/-- What the transaction of a pass answers: how many responses it discarded, if it goes well. -/
def answer (st : Storage) (d : Database) : Except Failure Nat :=
  ((Work.transact (Work.sweep st.sweepBatch)).on d).1

/-- Passes at these moments, up to the one that is the last. -/
def sweepAlong (st : Storage) (d : Database) : List Moment → Passes
  | [] => ⟨[], .more, d⟩
  | m :: ms =>
    match (st.atMoment m).sweepOnce (d.atMoment m) with
    | (.more, d') =>
      let rest := st.sweepAlong d' ms
      { rest with answers := st.answer (d.atMoment m) :: rest.answers }
    | (verdict, d') => ⟨[st.answer (d.atMoment m)], verdict, d'⟩

/-- The pass discards responses, and then its commit fails after it took effect. -/
def FailsLate (st : Storage) (d : Database) (e : Failure) : Prop :=
  ∃ n d₁, (Work.sweep st.sweepBatch).on d.begun = (.ok n, d₁) ∧ d₁.CommitsLate e

/-- What a pass can come to. -/
inductive Pass (st : Storage) (d d' : Database) : Except Failure Nat → Sweep → Prop where
  /-- It discarded as many as it may, and the storage runs. -/
  | full (running : st.stopped = false)
      (does : d.store.sweep d.clock st.sweepBatch = (st.sweepBatch, d'.store)) :
      Pass st d d' (.ok st.sweepBatch) .more
  /-- It discarded less, or the storage is stopped. -/
  | last (n : Nat) (short : n < st.sweepBatch ∨ st.stopped = true)
      (does : d.store.sweep d.clock st.sweepBatch = (n, d'.store)) : Pass st d d' (.ok n) .over
  /-- It failed, and the store is as it was, or its commit failed after it took effect. -/
  | failed (e : Failure) (verdict : Sweep) (stops : verdict ≠ .more)
      (store : d'.store = d.store ∨
        st.FailsLate d e ∧ d'.store = (d.store.sweep d.clock st.sweepBatch).2) :
      Pass st d d' (.error e) verdict

variable {st : Storage} {d d' : Database} {m : Moment} {ms : List Moment}

theorem sweepBatch_pos (st : Storage) : 0 < st.sweepBatch := Nat.le_max_left _ _

theorem sweep_failed {e : Failure}
    (h : (Work.transact (Work.sweep st.sweepBatch)).on d = (.error e, d')) :
    d'.store = d.store ∨
      st.FailsLate d e ∧ d'.store = (d.store.sweep d.clock st.sweepBatch).2 := by
  have hw := Work.transact_whole (Work.sweep st.sweepBatch) d
  rcases hw.failed (congrArg Prod.fst h) with hs | ⟨n, d₁, hn, hs, hlate⟩ <;> rw [h] at hs
  · exact .inl hs
  · have hdoes : d.begun.store.sweep d.begun.clock st.sweepBatch = (n, d₁.store) := by
      have hn' := hn
      rw [Work.sweep, Work.on_bind, Work.on_get] at hn'
      exact Work.callTotal_ok hn'
    have hclock : d.begun.clock = d.clock := (Work.discreet_openTransaction d).clock
    rw [d.begun_store, hclock] at hdoes
    exact .inr ⟨⟨n, d₁, hn, hlate⟩, by rw [hdoes]; exact hs⟩

theorem sweepOnce_pass (st : Storage) (d : Database) :
    Pass st d (st.sweepOnce d).2 (st.answer d) (st.sweepOnce d).1 := by
  rcases h : (Work.transact (Work.sweep st.sweepBatch)).on d with ⟨(cause | message) | n, d'⟩
  · have he : st.sweepOnce d = (.over, d'.tell (.fault "failed to delete stale responses")) := by
      simp only [sweepOnce, h]
    have hs := sweep_failed h
    rw [he, answer, h]
    exact .failed _ _ nofun hs
  · have he : st.sweepOnce d = (.crashed message, d') := by simp only [sweepOnce, h]
    have hs := sweep_failed h
    rw [he, answer, h]
    exact .failed _ _ nofun hs
  · have he : st.sweepOnce d = (if n < st.sweepBatch || st.stopped then .over else .more,
        st.report d' [.measured "delete_stale_responses" n]) := by
      simp only [sweepOnce, h]
    have hdoes : d.store.sweep d.clock st.sweepBatch = (n, (st.sweepOnce d).2.store) := by
      rw [he]
      exact (Work.sweep_ok h).trans (by rw [(report_told st d' _).store])
    rw [answer, h]
    by_cases hgo : n < st.sweepBatch ∨ st.stopped = true
    · have hover : (st.sweepOnce d).1 = .over := by
        rw [he]
        exact if_pos (by simpa using hgo)
      rw [hover]
      exact .last n hgo hdoes
    · have hmore : (st.sweepOnce d).1 = .more := by
        rw [he]
        exact if_neg (by simpa using hgo)
      rw [not_or, Bool.not_eq_true] at hgo
      have hle : n ≤ st.sweepBatch := (Store.sweep_spec hdoes).2.2.2
      have hb : n = st.sweepBatch := by omega
      rw [hmore, hb]
      rw [hb] at hdoes
      exact .full hgo.2 hdoes

/-- How passes go on from a moment, whatever the moments after it. -/
inductive Onward (st : Storage) (d : Database) (m : Moment) : Prop where
  | full (d' : Database) (running : m.stopped = false)
      (does : d.store.sweep m.clock st.sweepBatch = (st.sweepBatch, d'.store))
      (next : ∀ ms, st.sweepAlong d (m :: ms) =
        { st.sweepAlong d' ms with answers := .ok st.sweepBatch :: (st.sweepAlong d' ms).answers })
  | last (n : Nat) (d' : Database) (short : n < st.sweepBatch ∨ m.stopped = true)
      (does : d.store.sweep m.clock st.sweepBatch = (n, d'.store))
      (next : ∀ ms, st.sweepAlong d (m :: ms) = ⟨[.ok n], .over, d'⟩)
  | failed (e : Failure) (verdict : Sweep) (d' : Database) (stops : verdict ≠ .more)
      (store : d'.store = d.store ∨ st.FailsLate (d.atMoment m) e ∧
        d'.store = (d.store.sweep m.clock st.sweepBatch).2)
      (next : ∀ ms, st.sweepAlong d (m :: ms) = ⟨[.error e], verdict, d'⟩)

theorem onward (st : Storage) (d : Database) (m : Moment) : Onward st d m := by
  have hp : Pass (st.atMoment m) (d.atMoment m) _ (st.answer (d.atMoment m)) _ :=
    sweepOnce_pass (st.atMoment m) (d.atMoment m)
  rcases h : (st.atMoment m).sweepOnce (d.atMoment m) with ⟨v, d'⟩
  rw [h] at hp
  generalize hans : st.answer (d.atMoment m) = answer at hp
  cases hp with
  | full running does =>
    refine .full d' running does fun ms => ?_
    simp only [sweepAlong, h, hans]
    rfl
  | last n short does =>
    refine .last n d' short does fun ms => ?_
    simp only [sweepAlong, h, hans]
  | failed e v stops store =>
    refine .failed e v d' stops store fun ms => ?_
    cases v with
    | more => exact absurd rfl stops
    | _ => simp only [sweepAlong, h, hans]

/-! ## Passes one after the other -/

theorem full_length (h : d.store.sweep m.clock st.sweepBatch = (st.sweepBatch, d'.store)) :
    d.store.unclaimed.length / st.sweepBatch =
      d'.store.unclaimed.length / st.sweepBatch + 1 := by
  have hl := (Store.sweep_spec h).2.2.1
  rw [← hl, Nat.add_div_left _ st.sweepBatch_pos]

/-- There are at most as many full passes as full batches, and one more. -/
theorem answers_length (st : Storage) (d : Database) (ms : List Moment) :
    (st.sweepAlong d ms).answers.length ≤ d.store.unclaimed.length / st.sweepBatch + 1 := by
  induction ms generalizing d with
  | nil => exact Nat.zero_le _
  | cons m ms ih =>
    cases st.onward d m with
    | full d' _ does next =>
      rw [next, full_length does]
      exact Nat.succ_le_succ (ih d')
    | last _ _ _ _ next | failed _ _ _ _ _ next =>
      rw [next]
      exact Nat.succ_le_succ (Nat.zero_le _)

theorem sweepAlong_ends (st : Storage) (d : Database) (ms : List Moment)
    (h : d.store.unclaimed.length / st.sweepBatch < ms.length) :
    (st.sweepAlong d ms).verdict ≠ .more := by
  induction ms generalizing d with
  | nil => cases h
  | cons m ms ih =>
    cases st.onward d m with
    | full d' _ does next =>
      rw [full_length does, List.length_cons] at h
      rw [next]
      exact ih d' (Nat.lt_of_succ_lt_succ h)
    | last _ _ _ _ next => rw [next]; nofun
    | failed _ _ _ stops _ next => rw [next]; exact stops

theorem answers_le (st : Storage) (d : Database) (ms : List Moment) :
    ∀ n, .ok n ∈ (st.sweepAlong d ms).answers → n ≤ st.sweepBatch := by
  induction ms generalizing d with
  | nil => exact fun _ h => nomatch h
  | cons m ms ih =>
    cases st.onward d m with
    | full d' _ _ next =>
      intro n hn
      rw [next] at hn
      rcases List.mem_cons.1 hn with hn | hn
      · exact Nat.le_of_eq (Except.ok.inj hn)
      · exact ih d' n hn
    | last n d' _ does next =>
      intro k hk
      rw [next] at hk
      rw [Except.ok.inj (List.mem_singleton.1 hk)]
      exact (Store.sweep_spec does).2.2.2
    | failed _ _ _ _ _ next => rw [next]; simp

theorem sweepAlong_rest (st : Storage) (d : Database) (ms : List Moment) :
    (st.sweepAlong d ms).left.store.records = d.store.records ∧
      (st.sweepAlong d ms).left.store.drawn = d.store.drawn := by
  induction ms generalizing d with
  | nil => exact ⟨rfl, rfl⟩
  | cons m ms ih =>
    cases st.onward d m with
    | full d' _ does next =>
      have := ih d'
      rw [next]
      rwa [(Store.sweep_spec does).2.1] at this
    | last n d' _ does next =>
      rw [next, (Store.sweep_spec does).2.1]
      exact ⟨rfl, rfl⟩
    | failed e v d' _ store next =>
      rw [next]
      rcases store with hs | ⟨-, hs⟩ <;> rw [hs] <;> exact ⟨rfl, rfl⟩

/-- What passes that go well discard is what they count. -/
theorem total_left (st : Storage) (d : Database) (ms : List Moment)
    (hok : ∀ a ∈ (st.sweepAlong d ms).answers, ∃ n, a = .ok n) :
    (st.sweepAlong d ms).total + (st.sweepAlong d ms).left.store.unclaimed.length =
      d.store.unclaimed.length := by
  induction ms generalizing d with
  | nil => exact Nat.zero_add _
  | cons m ms ih =>
    cases st.onward d m with
    | full d' _ does next =>
      rw [next] at hok ⊢
      have hl := (Store.sweep_spec does).2.2.1
      have := ih d' fun a ha => hok a (List.mem_cons_of_mem _ ha)
      simp only [Passes.total, List.filterMap_cons, Except.toOption, List.sum_cons] at this ⊢
      omega
    | last n d' _ does next =>
      rw [next]
      simpa [Passes.total, Except.toOption] using (Store.sweep_spec does).2.2.1
    | failed e _ _ _ _ next =>
      rw [next] at hok
      obtain ⟨n, hn⟩ := hok _ List.mem_cons_self
      cases hn

/-- When the clock never goes back and no pass fails or is cut short, what is left at the end is
what expires later than the clock of the last pass says. -/
theorem sweepAlong_drains (st : Storage) (d : Database) (ms : List Moment)
    (hclock : ms.Pairwise fun m m' => m.clock ≤ m'.clock) (hrun : ∀ m ∈ ms, m.stopped = false)
    (hok : ∀ a ∈ (st.sweepAlong d ms).answers, ∃ n, a = .ok n)
    (hend : (st.sweepAlong d ms).verdict ≠ .more) :
    ∃ m, (ms.take (st.sweepAlong d ms).answers.length).getLast? = some m ∧
      (st.sweepAlong d ms).left.store.unclaimed = Store.unexpired m.clock d.store.unclaimed := by
  induction ms generalizing d with
  | nil => exact absurd rfl hend
  | cons m ms ih =>
    cases st.onward d m with
    | full d' _ does next =>
      rw [next] at hok hend ⊢
      obtain ⟨l, hl, hleft⟩ := ih d' (List.pairwise_cons.1 hclock).2
        (fun m hm => hrun m (List.mem_cons_of_mem _ hm))
        (fun a ha => hok a (List.mem_cons_of_mem _ ha)) hend
      have hle : m.clock ≤ l.clock := (List.pairwise_cons.1 hclock).1 l
        (List.mem_of_mem_take (List.mem_of_getLast? hl))
      refine ⟨l, ?_, ?_⟩
      · rw [List.length_cons, List.take_succ_cons, List.getLast?_cons, hl, Option.getD_some]
      · rw [hleft, (Store.sweep_spec does).2.1]
        exact Store.dropExpired_later hle _ _
    | last n d' short does next =>
      rw [next]
      obtain ⟨hn, hs, -⟩ := Store.sweep_spec does
      have hlt : n < st.sweepBatch := short.resolve_right (by rw [hrun m List.mem_cons_self]; nofun)
      refine ⟨m, rfl, ?_⟩
      rw [hs]
      exact Store.dropExpired_short _ _ _ (hn ▸ hlt)
    | failed e _ _ _ _ next =>
      rw [next] at hok
      obtain ⟨n, hn⟩ := hok _ List.mem_cons_self
      cases hn

/-- A pass that fails is the last one and leaves what the passes before it left, unless its commit
fails after it took effect. -/
theorem sweepAlong_failed (st : Storage) (d : Database) (ms : List Moment) {j : Nat} {e : Failure}
    (h : (st.sweepAlong d ms).answers[j]? = some (.error e)) :
    let before := st.sweepAlong d (ms.take j)
    (st.sweepAlong d ms).verdict ≠ .more ∧ before.answers.length = j ∧
      (st.sweepAlong d ms).answers = before.answers ++ [.error e] ∧
      ((st.sweepAlong d ms).left.store = before.left.store ∨
        ∃ m, ms[j]? = some m ∧ st.FailsLate (before.left.atMoment m) e ∧
          (st.sweepAlong d ms).left.store =
            (before.left.store.sweep m.clock st.sweepBatch).2) := by
  induction ms generalizing d j with
  | nil => cases h
  | cons m ms ih =>
    cases st.onward d m with
    | full d' _ _ next =>
      rw [next] at h
      cases j with
      | zero => cases h
      | succ j =>
        obtain ⟨hv, hl, ha, hs⟩ := ih d' h
        rw [List.take_succ_cons, next, next]
        exact ⟨hv, congrArg (· + 1) hl, congrArg (_ :: ·) ha, hs⟩
    | last n d' _ _ next =>
      rw [next] at h
      cases j <;> cases h
    | failed e' v d' stops store next =>
      rw [next] at h
      cases j with
      | zero =>
        cases h
        rw [next]
        exact ⟨stops, rfl, rfl, store.imp_right fun hs => ⟨m, rfl, hs⟩⟩
      | succ j => cases h

/-- A pass during which the storage is stopped is the last one. -/
theorem sweepAlong_stopped (st : Storage) (d : Database) (ms : List Moment) {j : Nat} {m : Moment}
    (hm : ms[j]? = some m) (hs : m.stopped = true)
    (hj : j < (st.sweepAlong d ms).answers.length) :
    (st.sweepAlong d ms).answers.length = j + 1 ∧ (st.sweepAlong d ms).verdict ≠ .more := by
  induction ms generalizing d j with
  | nil => cases hm
  | cons m' ms ih =>
    cases st.onward d m' with
    | full d' running _ next =>
      rw [next] at hj ⊢
      cases j with
      | zero =>
        cases hm
        rw [running] at hs
        cases hs
      | succ j =>
        obtain ⟨hl, hv⟩ := ih d' hm (Nat.lt_of_succ_lt_succ hj)
        exact ⟨congrArg (· + 1) hl, hv⟩
    | last n d' _ _ next =>
      rw [next] at hj ⊢
      exact ⟨by simp at hj ⊢; omega, nofun⟩
    | failed e v d' stops _ next =>
      rw [next] at hj ⊢
      exact ⟨by simp at hj ⊢; omega, stops⟩

theorem total_failed {p q : Passes} {e : Failure} (h : p.answers = q.answers ++ [.error e]) :
    p.total = q.total := by
  rw [Passes.total, Passes.total, h, List.filterMap_append, List.sum_append]
  rfl

/-! ## Who sweeps -/

theorem atMoment_sweepAlong (st : Storage) (m : Moment) (d : Database) (ms : List Moment) :
    (st.atMoment m).sweepAlong d ms = st.sweepAlong d ms := by
  induction ms generalizing d with
  | nil => rfl
  | cons m' ms ih =>
    have hm : (st.atMoment m).atMoment m' = st.atMoment m' := rfl
    have ha : (st.atMoment m).answer (d.atMoment m') = st.answer (d.atMoment m') := rfl
    simp only [sweepAlong, hm, ha, ih]

/-- What the reaper is at after a pass. -/
def Sweep.reaper (next : Nat) : Sweep → ReaperPhase
  | .more => .sweeping next
  | .over => .resting next
  | .crashed _ => .broken

/-- The steps of a reaper at these moments, for as long as it sweeps. -/
def reapAlong (time : Nat) (st : Storage) (d : Database) : List Moment → Storage × Database
  | [] => (st, d)
  | m :: ms =>
    match st.reaper with
    | .sweeping _ =>
      let p := stepReaper time (st.atMoment m) (d.atMoment m)
      reapAlong time p.1 p.2 ms
    | _ => (st, d)

theorem reapAlong_done {time : Nat} (h : ∀ next, st.reaper ≠ .sweeping next) (d : Database)
    (ms : List Moment) : reapAlong time st d ms = (st, d) := by
  cases ms with
  | nil => rfl
  | cons m ms =>
    rw [reapAlong]
    split
    · rename_i next hs
      exact absurd hs (h next)
    · rfl

theorem stepReaper_sweeping {next : Nat} (h : st.reaper = .sweeping next) (time : Nat)
    (d : Database) : stepReaper time st d =
      ({ st with reaper := (st.sweepOnce d).1.reaper next }, (st.sweepOnce d).2) := by
  simp only [stepReaper, h]
  rcases st.sweepOnce d with ⟨_ | _ | _, d'⟩
  · rw [Sweep.reaper, ← h]
  · rfl
  · rfl

theorem reapAlong_eq {next : Nat} (h : st.reaper = .sweeping next) (time : Nat) (d : Database)
    (ms : List Moment) :
    (reapAlong time st d ms).1.reaper = (st.sweepAlong d ms).verdict.reaper next ∧
      (reapAlong time st d ms).2 = (st.sweepAlong d ms).left := by
  induction ms generalizing st d with
  | nil => exact ⟨h, rfl⟩
  | cons m ms ih =>
    have hm : (st.atMoment m).reaper = .sweeping next := h
    rw [reapAlong, h]
    simp only [stepReaper_sweeping hm, sweepAlong]
    rcases (st.atMoment m).sweepOnce (d.atMoment m) with ⟨_ | _ | _, d'⟩
    · have hsame : { st.atMoment m with reaper := Sweep.more.reaper next } = st.atMoment m := by
        rw [Sweep.reaper, ← hm]
      have hrest := ih hm d'
      rw [atMoment_sweepAlong] at hrest
      rw [hsame]
      exact hrest
    · rw [reapAlong_done (by simp [Sweep.reaper])]
      exact ⟨rfl, rfl⟩
    · rw [reapAlong_done (by simp [Sweep.reaper])]
      exact ⟨rfl, rfl⟩

/-- Where a start is after a pass. -/
def Sweep.progress : Sweep → Progress
  | .more => .going .sweeping
  | .over => .going .recovering
  | .crashed message => .over (.crashed message)

/-- The steps of a start at these moments, for as long as it sweeps. -/
def startAlong (time : Nat) (st : Storage) (d : Database) : List Moment → Progress × Database
  | [] => (.going .sweeping, d)
  | m :: ms =>
    match advance time (st.atMoment m) (d.atMoment m) .sweeping with
    | (.going .sweeping, _, d) => startAlong time st d ms
    | (p, _, d) => (p, d)

theorem startAlong_eq (time : Nat) (st : Storage) (d : Database) (ms : List Moment) :
    startAlong time st d ms =
      ((st.sweepAlong d ms).verdict.progress, (st.sweepAlong d ms).left) := by
  induction ms generalizing d with
  | nil => rfl
  | cons m ms ih =>
    simp only [startAlong, sweepAlong, advance]
    rcases (st.atMoment m).sweepOnce (d.atMoment m) with ⟨_ | _ | _, d'⟩
    · exact ih d'
    · rfl
    · rfl

end Storage

/-- **How a sweep ends.** The passes of a sweep, given as many moments as there are full batches of
responses and one more, and whichever calls fail:

* they end within that many, none of them discards more than its batch, which is never empty, and
  they touch nothing but the responses;
* if all go well, their total is the number of responses that are gone; if the storage is not
  stopped either and the clock never goes back, exactly the responses are left that expire later
  than the last pass read, in their order, whatever the batch;
* a pass that fails is the last one, and total and responses are those of the passes before it,
  unless its commit fails after it took effect;
* a pass during which the storage is stopped is the last one.

The reaper and the start of the storage go by these passes. -/
theorem sweep_drains (st : Storage) (d : Database) (ms : List Storage.Moment)
    (hlong : d.store.unclaimed.length / st.sweepBatch < ms.length) :
    let b := max 1 st.settings.reaperBatch.toNat
    let n := d.store.unclaimed.length
    let w := st.sweepAlong d ms
    (w.verdict ≠ .more ∧ w.answers.length ≤ n / b + 1 ∧ (∀ k, .ok k ∈ w.answers → k ≤ b) ∧
      w.left.store.records = d.store.records ∧ w.left.store.drawn = d.store.drawn) ∧
    ((∀ a ∈ w.answers, ∃ k, a = .ok k) →
      w.total + w.left.store.unclaimed.length = n ∧
      ((∀ m ∈ ms, m.stopped = false) → (ms.Pairwise fun m m' => m.clock ≤ m'.clock) →
        (∃ m, (ms.take w.answers.length).getLast? = some m ∧
          w.left.store.unclaimed = d.store.unclaimed.filter fun u => m.clock < u.expiry) ∧
        ∀ now, (∀ m ∈ ms, m.clock = now) → w.left.store =
          { d.store with unclaimed := d.store.unclaimed.filter fun u => now < u.expiry })) ∧
    (∀ j e, w.answers[j]? = some (.error e) →
      let before := st.sweepAlong d (ms.take j)
      before.answers.length = j ∧ w.answers = before.answers ++ [.error e] ∧
        w.total = before.total ∧
        (w.left.store = before.left.store ∨
          ∃ m, ms[j]? = some m ∧ st.FailsLate (before.left.atMoment m) e ∧
            w.left.store = (before.left.store.sweep m.clock b).2)) ∧
    (∀ j m, ms[j]? = some m → m.stopped = true → j < w.answers.length →
      w.answers.length = j + 1) ∧
    (∀ time next, st.reaper = .sweeping next →
      (Storage.reapAlong time st d ms).1.reaper = w.verdict.reaper next ∧
        (Storage.reapAlong time st d ms).2 = w.left) ∧
    ∀ time, Storage.startAlong time st d ms = (w.verdict.progress, w.left) := by
  intro b n w
  have hend : w.verdict ≠ .more := st.sweepAlong_ends d ms hlong
  have hrest := st.sweepAlong_rest d ms
  refine ⟨⟨hend, st.answers_length d ms, st.answers_le d ms, hrest⟩, fun hok => ?_,
    fun j e hj => ?_, fun j m hm hs hj => (st.sweepAlong_stopped d ms hm hs hj).1,
    fun time next h => Storage.reapAlong_eq h time d ms, fun time => st.startAlong_eq time d ms⟩
  · refine ⟨st.total_left d ms hok, fun hrun hclock => ?_⟩
    obtain ⟨m, hm, hleft⟩ := st.sweepAlong_drains d ms hclock hrun hok hend
    refine ⟨⟨m, hm, hleft⟩, fun now hnow => ?_⟩
    have hmnow : m.clock = now := hnow m (List.mem_of_mem_take (List.mem_of_getLast? hm))
    have hs : w.left.store =
        ⟨w.left.store.records, w.left.store.unclaimed, w.left.store.drawn⟩ := rfl
    rw [hs, hrest.1, hrest.2, hleft, hmnow]
    rfl
  · obtain ⟨-, hl, ha, hs⟩ := st.sweepAlong_failed d ms hj
    exact ⟨hl, ha, Storage.total_failed ha, hs⟩

/-- Three responses of which two have expired. -/
def Database.stale : Database :=
  let response (correlation : String) (expiry : Instant) : Unclaimed :=
    ⟨⟨correlation, .ok .null, .epoch, none⟩, expiry⟩
  { create .epoch with
    store := { Store.empty with
      unclaimed := [response "a" .epoch, response "b" .last, response "c" .epoch] } }

/-- A storage that discards one response in a pass. -/
def Storage.sweeper : Storage :=
  create "a" { StorageSettings.standard with reaperBatch := 1 } none false

theorem sweep_drains_stale :
    let w := Storage.sweeper.sweepAlong Database.stale (List.replicate 4 ⟨.epoch, false⟩)
    w.answers = [.ok 1, .ok 1, .ok 0] ∧ w.total + w.left.store.unclaimed.length = 3 ∧
      w.left.store.unclaimed =
        Database.stale.store.unclaimed.filter fun u => .epoch < u.expiry := by
  intro w
  have hw : w.answers = [.ok 1, .ok 1, .ok 0] := by decide +kernel
  obtain ⟨-, hok, -⟩ := sweep_drains Storage.sweeper Database.stale
    (List.replicate 4 ⟨.epoch, false⟩) (by decide)
  obtain ⟨htotal, hdrain⟩ := hok (by rw [hw]; simp)
  have hleft := (hdrain (by simp) (List.pairwise_replicate.2 (.inr (Int.le_refl _)))).2 .epoch
    (by simp)
  exact ⟨hw, htotal, congrArg Store.unclaimed hleft⟩

/-- A commit that fails after it took effect: no pass went well, and yet two responses are gone. -/
theorem sweep_fails_late :
    let st := Storage.create "a" .standard none false
    let d := { Database.stale with faults := [⟨.commit, true, 0, 1, .refuse "lost"⟩] }
    let ms : List Storage.Moment := [⟨.epoch, false⟩]
    (st.sweepAlong d ms).answers = [.error (.refused (.database "lost"))] ∧
      (st.sweepAlong d ms).left.store.unclaimed.length = 1 ∧
      (st.sweepAlong d (ms.take 0)).left.store.unclaimed.length = 3 := by
  decide +kernel

end Resumption
