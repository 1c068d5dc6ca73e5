import Mathlib.Algebra.BigOperators.Group.List.Basic
import Mathlib.Algebra.GroupWithZero.Nat
import Resumption.Proofs.Store.Awakening
import Resumption.Proofs.Store.Selection

/-!
# What a promotion makes ready

New instances and waiting ones whose deadline has come stand in one line, in the order in which they
were stored (`Store.DueLine`). A promotion makes the first of the line ready: a new instance just
so, and one that was waiting with the answers that came in before its deadline and the mark that it
was cut short. It does nothing else, so a promotion of some and then of some more is one of as many
at once (`Store.promote_add`), and so is any number of passes (`Store.passes_sum`). A pass that
finds less than it may take leaves nothing that is due (`Store.drained_of_short`).

**Invariant.** `Store.Asked`: an instance that waits does so on the last callback that it was
suspended on, with or without the discipline of dispatch.
-/

namespace Resumption

namespace Store

variable {s : Store} {ts : List Turn} {a : Action} {r r' : Record} {now : Instant} {m n : Nat}

/-! ## Waiting on the last callback -/

/-- What waits after a turn waited before it, or was suspended in it. -/
theorem Change.asked (h : s.Change a r r') {z' : Suspension} (hz' : r'.status = .waiting z') :
    (Turn.call? ⟨s, a⟩ r.id = none ∧ ∃ z, r.status = .waiting z ∧ ∀ c, z.Sound c → z'.Sound c) ∨
      ∃ c, Turn.call? ⟨s, a⟩ r.id = some c ∧ z'.Sound c := by
  cases h with
  | same hne =>
    refine .inl ⟨?_, z', hz', fun _ h => h⟩
    cases a with
    | suspend c payload =>
      refine Option.filter_eq_none_iff.2 fun c' hc he => ?_
      cases hc
      exact hne c payload rfl (of_decide_eq_true he).symm
    | _ => rfl
  | deliver hw =>
    obtain ⟨z, hz, ho⟩ := Record.wants_iff.1 hw
    obtain ⟨rfl, hres⟩ := Record.waiting_answer hz hz'
    exact .inl ⟨rfl, z, hz, fun c h => h.answered ho hres⟩
  | @suspend c payload r hid =>
    rcases s.suspended_outcome c payload r with ⟨z, he, hs⟩ | ⟨z, x, -, -, -, he⟩
    · rw [he] at hz'
      cases hz'
      exact .inr ⟨c, call?_suspend payload hid, hs⟩
    · rw [he] at hz'
      cases hz'
  | promote _ =>
    unfold Record.promote at hz'
    split at hz' <;> cases hz'
  | _ => cases hz'

/-- Every instance that waits does so on the last callback that it was suspended on. -/
structure Asked (ts : List Turn) (s : Store) : Prop where
  unique : s.Unique
  last : ∀ r ∈ s.records, ∀ z, r.status = .waiting z → ∃ c, lastCall ts r.id = some c ∧ z.Sound c

theorem asked_inductive : Inductive Asked where
  start := ⟨unique_empty, fun r hr => nomatch hr⟩
  step ts s a h := by
    refine ⟨act_unique s a h.unique, fun r' hr' z' hz' => ?_⟩
    rw [lastCall_snoc]
    rcases act_records h.unique a hr' with ⟨r, hr, hc⟩ | ⟨w, id, -, -, -, rfl⟩
    · rw [hc.id]
      rcases hc.asked hz' with ⟨hn, z, hz, hk⟩ | ⟨c, hc, hsound⟩
      · obtain ⟨c, hlast, hsound⟩ := h.last r hr z hz
        exact ⟨c, by rw [hn, Option.none_or, hlast], hk c hsound⟩
      · exact ⟨c, by rw [hc, Option.some_or], hsound⟩
    · cases hz'

/-! ## The line -/

/-- How a promotion selects. -/
def promoting (now : Instant) : Selection where
  takes r := r.dueAt now
  before a b := a.number ≤ b.number
  mark := Record.promote

theorem promote_eq (s : Store) (now : Instant) (m : Nat) :
    s.promote now m = (((promoting now).run s m).1.length, ((promoting now).run s m).2) :=
  Prod.ext (List.length_map _) rfl

theorem promoted_dueAt (r : Record) (now : Instant) : r.promote.dueAt now = false := by
  unfold Record.promote
  split <;> rfl

theorem promoting_lawful (now : Instant) : (promoting now).Lawful where
  trans a b c := by simp only [promoting, decide_eq_true_eq]; omega
  total a b := by simp only [promoting, Bool.or_eq_true, decide_eq_true_eq]; omega
  apart a b := by simp only [promoting, decide_eq_true_eq]; omega
  id := Record.promote_id
  spent r _ := promoted_dueAt r now

theorem dueAt_iff : r.dueAt now = true ↔ r.status = .enqueued ∨
    ∃ z d, r.status = .waiting z ∧ z.deadline = some d ∧ d ≤ now := by
  unfold Record.dueAt
  split
  · simp_all
  · rename_i z hz
    unfold Suspension.dueAt
    cases hd : z.deadline <;> simp_all
  · rename_i hne hw
    refine ⟨nofun, ?_⟩
    rintro (he | ⟨z, d, hz, -⟩)
    · exact absurd he hne
    · exact absurd hz (hw z)

/-- The record of a due instance and what a promotion makes of it. -/
inductive Promoted (ts : List Turn) (now : Instant) (r : Record) : Record → Prop where
  /-- A new instance is ready, and that is all. -/
  | enqueued (status : r.status = .enqueued) : Promoted ts now r { r with status := .ready }
  /-- An instance that was waiting is ready with what came in so far of what its last callback asks
  for, in the order of the callback. It keeps nothing of the wait but the mark that it was cut
  short. -/
  | expired (c : Callback) (z : Suspension) (status : r.status = .waiting z)
      (asked : lastCall ts r.id = some c) (cut : c.CutShort z now z.answers) :
      Promoted ts now r
        { r with status := .ready, delivered := r.delivered ++ z.answers, waitExpired := true }

/-- The records of the instances that are due, as they were stored one after the other, with what a
promotion makes of each. -/
structure DueLine (ts : List Turn) (s : Store) (now : Instant) (line : List Record) : Prop where
  members : ∀ r, r ∈ line ↔ r ∈ s.records ∧ (r.status = .enqueued ∨
    ∃ z d, r.status = .waiting z ∧ z.deadline = some d ∧ d ≤ now)
  sorted : line.Pairwise fun a b => StoredBefore ts a.id b.id ∧ ¬ StoredBefore ts b.id a.id
  promoted : ∀ r ∈ line, Promoted ts now r r.promote

theorem Asked.promoted (h : Asked ts s) (hr : r ∈ s.records) (hd : r.dueAt now = true) :
    Promoted ts now r r.promote := by
  rcases dueAt_iff.1 hd with hs | ⟨z, d, hs, -, -⟩
  · have he : r.promote = { r with status := .ready } := by rw [Record.promote, hs]
    rw [he]
    exact .enqueued hs
  · obtain ⟨c, hc, hsound⟩ := h.last r hr z hs
    have he : r.promote = r.release true z := by rw [Record.promote, hs]
    have hz : z.dueAt now = true := by simpa only [Record.dueAt, hs] using hd
    rw [he]
    exact .expired c z hs hc (hsound.cutShort hz)

theorem Ordered.dueLine (h : Ordered ts s) (ha : Asked ts s) (now : Instant) :
    DueLine ts s now ((promoting now).line s) where
  members r := by
    rw [Selection.mem_line]
    exact and_congr_right fun _ => dueAt_iff
  sorted := by
    have hne := Selection.line_nodup (p := promoting now) h.numbered.ids
    have hle := Selection.line_sorted (promoting_lawful now) s
    refine (hle.and hne).imp_of_mem fun {a b} ha hb hab => ?_
    have ha := (Selection.mem_line.1 ha).1
    have hb := (Selection.mem_line.1 hb).1
    have hlt : a.number < b.number := Nat.lt_of_le_of_ne (of_decide_eq_true hab.1)
      fun he => hab.2 (h.numbered.eq ha hb he)
    exact ⟨h.before ha hb hlt, h.asymm (h.before ha hb hlt)⟩
  promoted r hr := by
    obtain ⟨hr, hd⟩ := Selection.mem_line.1 hr
    exact ha.promoted hr hd

/-! ## One pass -/

/-- A promotion counts and makes ready what it takes, and does nothing else. -/
theorem promote_exact (hu : s.Unique) (now : Instant) (m : Nat) :
    s.promote now m = (min m ((promoting now).line s).length,
      { s with records := s.records.map fun r =>
                if r ∈ ((promoting now).line s).take m then r.promote else r }) := by
  rw [promote_eq, Selection.run_length, Selection.run_store hu]
  rfl

/-- Promoting some and then some more is promoting as many at once. -/
theorem promote_add (hn : s.Numbered) (now : Instant) (m n : Nat) :
    s.promote now (m + n) = ((s.promote now m).1 + ((s.promote now m).2.promote now n).1,
      ((s.promote now m).2.promote now n).2) := by
  simp only [promote_eq]
  rw [Selection.run_add (promoting_lawful now) hn, List.length_append]

theorem promote_numbered (hn : s.Numbered) (now : Instant) (m : Nat) :
    (s.promote now m).2.Numbered := act_numbered s (.promote now m) hn

theorem line_promote (hn : s.Numbered) (now : Instant) (m : Nat) :
    (promoting now).line (s.promote now m).2 = ((promoting now).line s).drop m :=
  Selection.line_run (promoting_lawful now) hn m

theorem nothing_due (h : (promoting now).line s = []) : ∀ r ∈ s.records, r.dueAt now = false := by
  intro r hr
  refine Bool.eq_false_iff.2 fun hd => ?_
  have : r ∈ (promoting now).line s := Selection.mem_line.2 ⟨hr, hd⟩
  rw [h] at this
  cases this

/-- After a pass that found less than it may take nothing is due. -/
theorem drained_of_short (hn : s.Numbered) (h : (s.promote now m).1 < m) :
    ∀ r ∈ (s.promote now m).2.records, r.dueAt now = false := by
  rw [promote_exact hn.ids] at h
  have h : min m ((promoting now).line s).length < m := h
  refine nothing_due ?_
  rw [line_promote hn, List.drop_eq_nil_iff]
  omega

/-! ## Passes one after the other -/

/-- Promotions of at most so many instances each, at one reading of the clock: how many they made
ready, and the store that they leave. -/
def passes (s : Store) (now : Instant) : List Nat → Nat × Store
  | [] => (0, s)
  | m :: ms =>
    let first := s.promote now m
    let rest := first.2.passes now ms
    (first.1 + rest.1, rest.2)

/-- Passes come to one promotion of what they may take altogether. -/
theorem passes_sum (hn : s.Numbered) (now : Instant) (ms : List Nat) :
    s.passes now ms = s.promote now ms.sum := by
  induction ms generalizing s with
  | nil =>
    rw [passes, List.sum_nil, promote_exact hn.ids, Nat.zero_min]
    simp
  | cons m ms ih =>
    rw [passes, List.sum_cons, promote_add hn, ih (promote_numbered hn now m)]

def promoteAll (s : Store) (now : Instant) : Store :=
  { s with records := s.records.map fun r => if r.dueAt now then r.promote else r }

/-- As many passes as there are due instances make all of them ready, if each may take one. -/
theorem passes_drain (hn : s.Numbered) (now : Instant) {ms : List Nat} (h : ∀ m ∈ ms, 1 ≤ m)
    (hl : ((promoting now).line s).length ≤ ms.length) :
    s.passes now ms = (((promoting now).line s).length, s.promoteAll now) := by
  have hle : ((promoting now).line s).length ≤ ms.sum :=
    Nat.le_trans hl (List.length_le_sum_of_one_le ms h)
  rw [passes_sum hn, promote_exact hn.ids, List.take_of_length_le hle, Nat.min_eq_right hle]
  refine Prod.ext rfl (congrArg (fun rs : List Record => ({ s with records := rs } : Store)) ?_)
  refine List.map_congr_left fun r hr => ?_
  rw [if_congr (Selection.mem_line.trans (and_iff_right hr)) rfl rfl]
  rfl

end Store

end Resumption
