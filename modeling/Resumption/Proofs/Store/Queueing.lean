import Resumption.Proofs.Database.Job
import Resumption.Proofs.Store.Arrival
import Resumption.Proofs.Store.Promotion
import Resumption.Proofs.Store.Representation

/-!
# First come, first served

The instances that wait for the same correlation id stand in line, in the order of their suspensions:
of an instance that was suspended more than once the last suspension counts (`SuspendedBefore`). A
response goes to the first of the line, which puts it into its first open wait for this id, and does
nothing else; without a line it stays unclaimed, and no instance changes (`Store.Served`).

**Invariant.** `Store.Queued`: the numbers of the suspensions rise with their places among the turns.
So the smallest number, by which a response finds its instance, is that of the earliest suspension
(`Store.Queued.served`).

**Result.** `notify_first_come`: a list of responses is served one response after the other. Where each
instance of a line waits for the id once, the first of the line get the first of the responses, in
order, and the rest stays unclaimed in order, however the responses are grouped (`Store.Dealt`).
-/

namespace Resumption

/-! ## The order of suspensions -/

def Turn.Suspends (t : Turn) (id : Uuid) : Prop :=
  ∃ c payload, t.action = .suspend c payload ∧ c.instanceId = id

/-- The turn at a place is the last that suspends the instance. -/
structure LastSuspended (ts : List Turn) (id : Uuid) (n : Nat) : Prop where
  here : ∃ t, ts[n]? = some t ∧ t.Suspends id
  last : ∀ m t, n < m → ts[m]? = some t → ¬ t.Suspends id

/-- The last suspension of one instance came before that of the other. -/
def SuspendedBefore (ts : List Turn) (i j : Uuid) : Prop :=
  ∃ m n, m < n ∧ LastSuspended ts i m ∧ LastSuspended ts j n

section
variable {ts : List Turn} {t : Turn} {i j : Uuid} {m n : Nat}

theorem LastSuspended.unique (h : LastSuspended ts i m) (h' : LastSuspended ts i n) : m = n := by
  obtain ⟨t, ht, hs⟩ := h.here
  obtain ⟨t', ht', hs'⟩ := h'.here
  rcases Nat.lt_trichotomy m n with hlt | heq | hlt
  · exact absurd hs' (h.last n t' hlt ht')
  · exact heq
  · exact absurd hs (h'.last m t hlt ht)

/-- Of two instances only one was suspended before the other. -/
theorem SuspendedBefore.asymm (h : SuspendedBefore ts i j) : ¬ SuspendedBefore ts j i := by
  rintro ⟨n', m', hlt', hn', hm'⟩
  obtain ⟨m, n, hlt, hm, hn⟩ := h
  rw [hn'.unique hn, hm'.unique hm] at hlt'
  exact Nat.lt_asymm hlt hlt'

theorem LastSuspended.lt (h : LastSuspended ts i n) : n < ts.length := by
  obtain ⟨t, ht, -⟩ := h.here
  exact (List.getElem?_eq_some_iff.1 ht).1

theorem LastSuspended.snoc (h : LastSuspended ts i n) (ht : ¬ t.Suspends i) :
    LastSuspended (ts ++ [t]) i n := by
  obtain ⟨u, hu, hs⟩ := h.here
  refine ⟨⟨u, by rw [List.getElem?_append_left h.lt, hu], hs⟩, fun m v hm hv => ?_⟩
  rcases Nat.lt_or_ge m ts.length with hlt | hge
  · rw [List.getElem?_append_left hlt] at hv
    exact h.last m v hm hv
  · rw [List.getElem?_append_right hge] at hv
    rw [List.mem_singleton.1 (List.mem_of_getElem? hv)]
    exact ht

theorem lastSuspended_now (ts : List Turn) (ht : t.Suspends i) :
    LastSuspended (ts ++ [t]) i ts.length := by
  refine ⟨⟨t, List.getElem?_concat_length, ht⟩, fun m v hm hv => ?_⟩
  have := (List.getElem?_eq_some_iff.1 hv).1
  rw [List.length_append, List.length_singleton] at this
  omega

end

/-! ## What a response does -/

/-- The response is put into the first wait for its id that has no answer yet. -/
def Response.Fills (x : Response) (ws ws' : List Wait) : Prop :=
  ∃ pre w post, ws = pre ++ w :: post ∧ w.correlation = x.correlation ∧ w.answer = none ∧
    (∀ v ∈ pre, v.correlation = x.correlation → v.answer ≠ none) ∧
    ws' = pre ++ { w with answer := some x } :: post

/-- A record with these waits for those of its suspension: it is ready with their answers when one
answer is enough or no wait is open any more, and else it waits on. -/
def Record.withWaits (r : Record) (z : Suspension) (ws : List Wait) : Record :=
  if z.quorum = .first ∨ ∀ w ∈ ws, w.answer.isSome = true then
    { r with status := .ready, delivered := r.delivered ++ ws.filterMap (·.answer)
             waitExpired := false }
  else { r with status := .waiting { z with waits := ws } }

/-- A waiting record takes in a response. -/
def Record.Receives (r : Record) (x : Response) (r' : Record) : Prop :=
  ∃ z ws, r.status = .waiting z ∧ x.Fills z.waits ws ∧ r' = r.withWaits z ws

theorem Suspension.fills_answerFirst {x : Response} {ws : List Wait}
    (h : 0 < openCount ws x.correlation) : x.Fills ws (answerFirst x ws) := by
  induction ws with
  | nil => simp [openCount] at h
  | cons v ws ih =>
    rw [answerFirst]
    split
    · rename_i hv
      obtain ⟨hn, hc⟩ := opens_iff.1 hv
      exact ⟨[], v, ws, rfl, hc, hn, fun u hu => absurd hu List.not_mem_nil, rfl⟩
    · rename_i hv
      have h' : 0 < openCount ws x.correlation := by
        simpa [openCount, List.countP_cons, hv] using h
      obtain ⟨pre, w, post, he, hc, hn, hpre, ha⟩ := ih h'
      refine ⟨v :: pre, w, post, by rw [he]; rfl, hc, hn, fun u hu => ?_, by rw [ha]; rfl⟩
      rcases List.mem_cons.1 hu with rfl | hu
      · exact fun hcu hnu => hv (opens_iff.2 ⟨hnu, hcu⟩)
      · exact hpre u hu

/-- There are no more open waits for an id than waits for it. -/
theorem Suspension.openCount_le (ws : List Wait) (c : String) :
    openCount ws c ≤ (ws.map (·.correlation)).count c := by
  rw [openCount, List.count, List.countP_map]
  exact List.countP_mono_left fun w _ hw => beq_iff_eq.2 (opens_iff.1 hw).2

/-- An instance that waits for distinct ids wants no second response to an id. -/
theorem Record.unwanted_answer {r : Record} {z : Suspension} {x : Response}
    (hz : r.status = .waiting z) (hd : (z.waits.map (·.correlation)).Nodup)
    (hw : r.wants x.correlation = true) : (r.answer x).wants x.correlation = false := by
  rw [Bool.eq_false_iff]
  intro hw'
  obtain ⟨z', hz', ho⟩ := wants_iff.1 hw'
  have hone := openCount_answer hw hz hz' x.correlation
  have hle := Suspension.openCount_le z.waits x.correlation
  have := List.nodup_iff_count_le_one.1 hd x.correlation
  simp only [beq_self_eq_true, if_true] at hone
  omega

theorem Record.receives_answer {r : Record} {x : Response} (h : r.wants x.correlation = true) :
    r.Receives x (r.answer x) := by
  obtain ⟨z, hz, ho⟩ := wants_iff.1 h
  refine ⟨z, _, hz, Suspension.fills_answerFirst ho, ?_⟩
  have resolved : (z.answered x).resolvedByAnswer = true ↔
      z.quorum = .first ∨ ∀ w ∈ Suspension.answerFirst x z.waits, w.answer.isSome = true := by
    rw [Suspension.resolvedByAnswer, Suspension.answered]
    cases z.quorum <;> simp [Wait.isOpen]
  rw [answer_waiting hz, withWaits]
  by_cases hr : (z.answered x).resolvedByAnswer = true
  · rw [if_pos hr, if_pos (resolved.1 hr)]
    rfl
  · rw [if_neg hr, if_neg fun hw => hr (resolved.2 hw)]
    rfl

/-- The record whose suspension came first has the smallest number. -/
theorem Record.earliest_le {rs : List Record} {t : Record} (h : earliest rs = some t) :
    ∀ r ∈ rs, t.suspensionNumber ≤ r.suspensionNumber := by
  induction rs generalizing t with
  | nil => exact fun r hr => nomatch hr
  | cons u rs ih =>
    intro r hr
    rw [earliest] at h
    rcases List.mem_cons.1 hr with rfl | hr <;> split at h
    · cases h
      exact Nat.le_refl _
    · split at h <;> cases h <;> omega
    · rename_i hn
      rw [earliest_none hn] at hr
      cases hr
    · rename_i b hb
      have := ih hb r hr
      split at h <;> cases h <;> omega

namespace Store

variable {s : Store} {ts : List Turn} {a : Action} {r r' t : Record}

/-- What a response does to a store. -/
inductive Served (ts : List Turn) (s : Store) (x : Response) : Store → Prop where
  /-- The instance that was suspended first of those that want it takes it in. -/
  | taken {t t' : Record} (mem : t ∈ s.records) (receives : t.Receives x t')
      (first : ∀ u ∈ s.records, u.wants x.correlation = true → u ≠ t →
        SuspendedBefore ts t.id u.id ∧ ¬ SuspendedBefore ts u.id t.id) :
      Served ts s x { s with records := s.records.map fun r => if r = t then t' else r }
  /-- Nobody wants it, and it stays unclaimed. -/
  | kept (unwanted : ∀ r ∈ s.records, r.wants x.correlation = false) :
      Served ts s x { s with unclaimed := s.unclaimed ++ [⟨x, x.expiry .zero⟩] }

/-- What responses do to a store, one after the other. -/
inductive ServedAll : List Turn → Store → List Response → Store → Prop where
  | nil (ts : List Turn) (s : Store) : ServedAll ts s [] s
  | cons {ts : List Turn} {s s₁ s' : Store} {x : Response} {xs : List Response}
      (one : Served ts s x s₁) (rest : ServedAll (ts ++ [⟨s, .deliver x⟩]) s₁ xs s') :
      ServedAll ts s (x :: xs) s'

/-! ## Numbers of suspensions -/

/-- A record that waits after it was suspended has the number that was drawn for it. -/
theorem suspended_number {c : Callback} {payload : Json} {z : Suspension}
    (h : (s.suspended c payload r).1.status = .waiting z) : z.number = s.drawn + 1 := by
  obtain ⟨as, ht, -⟩ := collect_spec c.correlations _ s.unclaimed
    (suspend_room r payload c (s.drawn + 1))
  rw [suspended] at h
  rcases ht.outcome (Q := fun z => z.number = s.drawn + 1) (fun z x hz _ _ => hz) rfl rfl with
    ⟨z', he, hz⟩ | ⟨z', x, -, -, -, he⟩ <;> rw [he] at h <;> cases h
  exact hz

/-- What waits after a turn did so before under the same number, or has been suspended in the turn,
under the next of the count. -/
theorem Change.number (h : s.Change a r r') {z' : Suspension} (hz' : r'.status = .waiting z') :
    (¬ Turn.Suspends ⟨s, a⟩ r.id ∧ ∃ z, r.status = .waiting z ∧ z.number = z'.number) ∨
      Turn.Suspends ⟨s, a⟩ r.id ∧ z'.number = s.drawn + 1 := by
  cases h with
  | @suspend c payload r hid => exact .inr ⟨⟨c, payload, rfl, hid.symm⟩, suspended_number hz'⟩
  | same hne => exact .inl ⟨fun ⟨c, payload, ha, hid⟩ => hne c payload ha hid.symm, z', hz', rfl⟩
  | deliver hw =>
    obtain ⟨z, hz, -⟩ := Record.wants_iff.1 hw
    refine .inl ⟨fun ⟨_, _, ha, _⟩ => (nomatch ha), z, hz, ?_⟩
    rw [(Record.waiting_answer hz hz').1]
    rfl
  | promote _ =>
    unfold Record.promote at hz'
    split at hz' <;> cases hz'
  | _ => cases hz'

/-- The numbers of suspensions rise with the places of these among the turns. -/
structure Queued (ts : List Turn) (s : Store) : Prop where
  numbered : s.Numbered
  suspended : ∀ r ∈ s.records, ∀ z, r.status = .waiting z → ∃ n, LastSuspended ts r.id n
  rising : ∀ r ∈ s.records, ∀ t ∈ s.records, ∀ z y, r.status = .waiting z → t.status = .waiting y →
    z.number < y.number → SuspendedBefore ts r.id t.id

theorem queued_inductive : Inductive Queued where
  start := ⟨numbered_empty, fun _ h => (nomatch h), fun _ h => nomatch h⟩
  step ts s a h := by
    have hn := act_numbered s a h.numbered
    -- Where a record that waits after the turn comes from.
    have origin : ∀ r' ∈ (s.act a).2.records, ∀ z', r'.status = .waiting z' →
        (¬ Turn.Suspends ⟨s, a⟩ r'.id ∧
          ∃ r ∈ s.records, r.id = r'.id ∧ ∃ z, r.status = .waiting z ∧ z.number = z'.number) ∨
        Turn.Suspends ⟨s, a⟩ r'.id ∧ z'.number = s.drawn + 1 := by
      intro r' hr' z' hz'
      rcases act_records h.numbered.ids a hr' with ⟨r, hr, hc⟩ | ⟨w, id, -, -, -, rfl⟩
      · rw [hc.id]
        exact (hc.number hz').imp_left fun ⟨hs, z, hz, he⟩ => ⟨hs, r, hr, rfl, z, hz, he⟩
      · cases hz'
    refine ⟨hn, fun r' hr' z' hz' => ?_, fun r' hr' t' ht' z' y' hz' hy' hlt => ?_⟩
    · rcases origin r' hr' z' hz' with ⟨hs, r, hr, hid, z, hz, -⟩ | ⟨hs, -⟩
      · obtain ⟨n, hl⟩ := h.suspended r hr z hz
        exact ⟨n, (hid ▸ hl).snoc hs⟩
      · exact ⟨_, lastSuspended_now ts hs⟩
    · rcases origin r' hr' z' hz' with ⟨hs, r, hr, hid, z, hz, he⟩ | ⟨hs, he⟩
      · rcases origin t' ht' y' hy' with ⟨hs', t, ht, hid', y, hy, he'⟩ | ⟨hs', -⟩
        · obtain ⟨m, n, hmn, hm, hn⟩ := h.rising r hr t ht z y hz hy (by omega)
          exact ⟨m, n, hmn, (hid ▸ hm).snoc hs, (hid' ▸ hn).snoc hs'⟩
        · obtain ⟨m, hm⟩ := h.suspended r hr z hz
          exact ⟨m, ts.length, hm.lt, (hid ▸ hm).snoc hs, lastSuspended_now ts hs'⟩
      · -- Nothing has a number above the one that was just drawn.
        have hmem : y'.number ∈ t'.draws := by
          rw [Record.draws_waiting hy']
          exact List.mem_cons_of_mem _ List.mem_cons_self
        have hle := (hn.drawn t' ht' _ hmem).2
        obtain ⟨c, payload, rfl, -⟩ := hs
        rw [act, plainly, suspend_drawn] at hle
        omega

/-! ## One response -/

theorem target?_le {c : String} (h : s.target? c = some t) :
    ∀ u ∈ s.records, u.wants c = true → t.suspensionNumber ≤ u.suspensionNumber :=
  fun u hu hw => Record.earliest_le h u (List.mem_filter.2 ⟨hu, hw⟩)

/-- Of two records that wait, the one with the smaller number was suspended first. -/
theorem Queued.before (h : Queued ts s) {c d : String} (hr : r ∈ s.records) (ht : t ∈ s.records)
    (hrc : r.wants c = true) (htd : t.wants d = true) (hne : r ≠ t)
    (hle : r.suspensionNumber ≤ t.suspensionNumber) : SuspendedBefore ts r.id t.id := by
  obtain ⟨z, hz, -⟩ := Record.wants_iff.1 hrc
  obtain ⟨y, hy, -⟩ := Record.wants_iff.1 htd
  have hrn : r.suspensionNumber = z.number := by rw [Record.suspensionNumber, hz]
  have htn : t.suspensionNumber = y.number := by rw [Record.suspensionNumber, hy]
  refine h.rising r hr t ht z y hz hy (Nat.lt_of_le_of_ne (by omega) fun he => hne ?_)
  refine h.numbered.apart r hr t ht z.number ?_ ?_
  · rw [Record.draws_waiting hz]
    exact List.mem_cons_of_mem _ List.mem_cons_self
  · rw [Record.draws_waiting hy, he]
    exact List.mem_cons_of_mem _ List.mem_cons_self

/-- Changing the record of an instance is changing this record. -/
theorem Unique.update_eq (hu : s.Unique) (ht : t ∈ s.records) (f : Record → Record) :
    s.update t.id f = { s with records := s.records.map fun r => if r = t then f t else r } := by
  refine congrArg (fun rs => { s with records := rs }) (List.map_congr_left fun r hr => ?_)
  by_cases h : r = t
  · rw [if_pos h, if_pos (congrArg Record.id h), h]
  · rw [if_neg h, if_neg fun hid => h (hu.eq hr ht hid)]

/-- **A response** goes to the first of its line, and nothing else changes. -/
theorem Queued.served (h : Queued ts s) (x : Response) : Served ts s x (s.deliver x) := by
  cases ht : s.target? x.correlation with
  | none =>
    rw [deliver_none ht]
    exact .kept (target?_none ht)
  | some t =>
    obtain ⟨hm, hw⟩ := target?_some ht
    rw [deliver_some ht, h.numbered.ids.update_eq hm]
    refine .taken hm (Record.receives_answer hw) fun u hu huw hne => ?_
    have hb := h.before hm hu hw huw hne.symm (target?_le ht u hu huw)
    exact ⟨hb, hb.asymm⟩

theorem Queued.servedAll (xs : List Response) :
    ∀ {ts : List Turn} {s : Store}, Queued ts s → ServedAll ts s xs (s.notify xs) := by
  induction xs with
  | nil => exact fun h => .nil _ _
  | cons x xs ih => exact fun h => .cons (h.served x) (ih (queued_inductive.step _ _ (.deliver x) h))

/-! ## A line of instances -/

/-- The instances that want a response to an id, the earliest suspension first. -/
structure Line (ts : List Turn) (s : Store) (c : String) (line : List Record) : Prop where
  members : ∀ r, r ∈ line ↔ r ∈ s.records ∧ r.wants c = true
  sorted : line.Pairwise fun a b => SuspendedBefore ts a.id b.id ∧ ¬ SuspendedBefore ts b.id a.id

theorem Queued.line (h : Queued ts s) (c : String) : ∃ line, Line ts s c line := by
  let le (a b : Record) : Bool := a.suspensionNumber ≤ b.suspensionNumber
  let wanting := s.records.filter fun r => r.wants c
  have members : ∀ r, r ∈ wanting.mergeSort le ↔ r ∈ s.records ∧ r.wants c = true := fun r => by
    rw [List.mem_mergeSort, List.mem_filter]
  refine ⟨wanting.mergeSort le, members, ?_⟩
  have distinct : (wanting.mergeSort le).Nodup :=
    (List.mergeSort_perm _ _).nodup_iff.2 ((List.Nodup.of_map _ h.numbered.ids).filter _)
  have trans : ∀ a b c, le a b = true → le b c = true → le a c = true := fun a b c => by
    simp only [le, decide_eq_true_eq]
    omega
  have total : ∀ a b, (le a b || le b a) = true := fun a b => by
    simp only [le, Bool.or_eq_true, decide_eq_true_eq]
    omega
  have sorted : (wanting.mergeSort le).Pairwise fun a b => le a b = true :=
    List.pairwise_mergeSort trans total wanting
  refine (sorted.and distinct).imp_of_mem fun {a b} ha hb hab => ?_
  obtain ⟨ha, haw⟩ := (members a).1 ha
  obtain ⟨hb, hbw⟩ := (members b).1 hb
  have := h.before ha hb haw hbw hab.2 (of_decide_eq_true hab.1)
  exact ⟨this, this.asymm⟩

/-- Responses are dealt out along a line: the first to the first, and so on, while there are both. -/
structure Dealt (s : Store) (rs : List Record) (xs : List Response) (s' : Store) : Prop where
  ids : s'.ids = s.ids
  given : ∀ (i : Nat) (r : Record) (x : Response), rs[i]? = some r → xs[i]? = some x →
    ∃ r', s'.find? r.id = some r' ∧ r.Receives x r'
  others : ∀ r ∈ s.records, r ∉ rs.take xs.length → s'.find? r.id = some r
  rest : s'.unclaimed =
    s.unclaimed ++ (xs.drop rs.length).map fun x => ⟨x, x.expiry .zero⟩
  drawn : s'.drawn = s.drawn

section
variable {c : String} {line : List Record} {x : Response}

theorem Line.head (h : Queued ts s) (hl : Line ts s c (t :: line)) : s.target? c = some t := by
  obtain ⟨hm, hw⟩ := (hl.members t).1 List.mem_cons_self
  cases ht : s.target? c with
  | none =>
    rw [target?_none ht t hm] at hw
    cases hw
  | some u =>
    obtain ⟨hum, huw⟩ := target?_some ht
    rcases List.mem_cons.1 ((hl.members u).2 ⟨hum, huw⟩) with rfl | hu
    · rfl
    · have hlt := (List.pairwise_cons.1 hl.sorted).1 u hu
      have hne : u ≠ t := by
        rintro rfl
        exact hlt.2 hlt.1
      exact absurd (h.before hum hm huw hw hne (target?_le ht t hm hw)) hlt.2

theorem Line.nobody (hl : Line ts s c []) : s.target? c = none := by
  cases ht : s.target? c with
  | none => rfl
  | some u => exact nomatch (hl.members u).2 (target?_some ht)

/-- A line stays in order through a turn that suspends nobody. -/
theorem Line.later {s' : Store} {line' : List Record} (hl : Line ts s c line)
    (hsub : line'.Sublist line) (hm : ∀ r, r ∈ line' ↔ r ∈ s'.records ∧ r.wants c = true) :
    Line (ts ++ [⟨s, .deliver x⟩]) s' c line' := by
  have still : ∀ i, ¬ Turn.Suspends ⟨s, .deliver x⟩ i := fun i ⟨_, _, ha, _⟩ => nomatch ha
  refine ⟨hm, (hl.sorted.sublist hsub).imp fun {a b} hab => ?_⟩
  obtain ⟨m, n, hlt, hm, hn⟩ := hab.1
  have : SuspendedBefore (ts ++ [⟨s, .deliver x⟩]) a.id b.id :=
    ⟨m, n, hlt, hm.snoc (still _), hn.snoc (still _)⟩
  exact ⟨this, this.asymm⟩

/-- **Along a line** whose instances wait for the id once, the first responses go to the first
instances, and the rest stays unclaimed. -/
theorem Queued.dealt (xs : List Response) :
    ∀ {ts : List Turn} {s : Store} {line : List Record}, Queued ts s → Line ts s c line →
      (∀ r ∈ line, ∀ x : Response, x.correlation = c → (r.answer x).wants c = false) →
      (∀ x ∈ xs, x.correlation = c) → Dealt s line xs (s.notify xs) := by
  induction xs with
  | nil =>
    intro ts s line h hl honce hx
    refine ⟨rfl, fun i r x _ hi => (nomatch hi), fun r hr _ => h.numbered.ids.find? hr, ?_, rfl⟩
    simp [notify]
  | cons x xs ih =>
    intro ts s line h hl honce hx
    have hxc : x.correlation = c := hx x List.mem_cons_self
    have hq : Queued (ts ++ [⟨s, .deliver x⟩]) (s.deliver x) := queued_inductive.step ts s (.deliver x) h
    have hrest := fun y hy => hx y (List.mem_cons_of_mem _ hy)
    cases line with
    | nil =>
      -- Nobody is left, and the response stays unclaimed.
      have hd := deliver_none (hxc ▸ hl.nobody)
      have hl' : Line (ts ++ [⟨s, .deliver x⟩]) (s.deliver x) c [] :=
        hl.later (List.Sublist.refl _) fun r => by rw [hd]; exact hl.members r
      have D := ih hq hl' honce hrest
      refine ⟨D.ids.trans ?_, fun i r y hi => (nomatch hi), fun r hr _ => ?_, D.rest.trans ?_,
        D.drawn.trans ?_⟩
      · rw [hd]
        rfl
      · exact D.others r (by rw [hd]; exact hr) (by simp)
      · rw [hd]
        simp
      · rw [hd]
    | cons t line =>
      -- The first of the line takes the response in and leaves the line.
      obtain ⟨htm, htw⟩ := (hl.members t).1 List.mem_cons_self
      have ht := hl.head h
      have hd := deliver_some (hxc ▸ ht)
      have hne : ∀ r ∈ line, r.id ≠ t.id := fun r hr he => by
        have hlt := (List.pairwise_cons.1 hl.sorted).1 r hr
        rw [he] at hlt
        exact hlt.2 hlt.1
      have hdone := honce t List.mem_cons_self x hxc
      have members : ∀ r, r ∈ line ↔ r ∈ (s.deliver x).records ∧ r.wants c = true := by
        intro r
        rw [hd]
        constructor
        · intro hr
          obtain ⟨hm, hw⟩ := (hl.members r).1 (List.mem_cons_of_mem _ hr)
          exact ⟨List.mem_map.2 ⟨r, hm, if_neg (hne r hr)⟩, hw⟩
        · rintro ⟨hm, hw⟩
          obtain ⟨r₀, hr₀, ⟨hid, rfl⟩ | ⟨hid, rfl⟩⟩ := mem_update hm
          · rw [h.numbered.ids.eq hr₀ htm hid, hdone] at hw
            cases hw
          · rcases List.mem_cons.1 ((hl.members r).2 ⟨hr₀, hw⟩) with rfl | hr
            · exact absurd rfl hid
            · exact hr
      have D := ih hq (hl.later (List.sublist_cons_self _ _) members)
        (fun r hr => honce r (List.mem_cons_of_mem _ hr)) hrest
      have others : ∀ r ∈ s.records, r ∉ (t :: line).take (xs.length + 1) →
          (s.notify (x :: xs)).find? r.id = some r := by
        intro r hr hn
        rw [List.take_succ_cons, List.mem_cons, not_or] at hn
        refine D.others r ?_ hn.2
        rw [hd]
        exact List.mem_map.2 ⟨r, hr, if_neg fun he => hn.1 (h.numbered.ids.eq hr htm he)⟩
      have given : (s.notify (x :: xs)).find? t.id = some (t.answer x) := by
        have hm : t.answer x ∈ (s.deliver x).records := by
          rw [hd]
          exact List.mem_map.2 ⟨t, htm, if_pos rfl⟩
        have := D.others _ hm fun hin => by
          rw [((members _).1 (List.mem_of_mem_take hin)).2] at hdone
          cases hdone
        rwa [Record.answer_id] at this
      refine ⟨D.ids.trans ?_, fun i r y hi hy => ?_, others, D.rest.trans ?_, D.drawn.trans ?_⟩
      · rw [hd]
        exact ids_update fun r _ hid => (Record.answer_id r x).trans hid
      · cases i with
        | zero =>
          cases hi
          cases hy
          exact ⟨_, given, Record.receives_answer (hxc ▸ htw)⟩
        | succ i => exact D.given i r y hi hy
      · rw [hd]
        rfl
      · rw [hd]
        rfl

end

/-- A layout takes responses in as the store does that it holds. -/
theorem holds_notify (xs : List Response) : ∀ {L : Layout} {s : Store}, L.Holds s →
    (xs.foldl (fun L x => (L.act (.deliver x)).2) L).Holds (s.notify xs) := by
  induction xs with
  | nil => exact fun h => h
  | cons x xs ih => exact fun h => ih (h.act (.deliver x)).2

end Store

/-- **Responses go to waiters first come, first served.** After any run, a list of responses is never
refused and is served one response after the other. Each goes to the instance whose last suspension was
the first of those that want it, into its first open wait for this id, and nothing else changes; or
nobody wants it, and it is put behind the unclaimed responses (`Store.Served`). In memory this is so in
whatever order the entries are gone through.

The instances that want responses to one id form a line. Where each of them waits for distinct ids,
responses to this id are dealt out along the line, in any grouping: the first go to the first, each to
one, and what is left stays unclaimed, in order (`Store.Dealt`). -/
theorem notify_first_come (clock : Instant) (txs : List (List Store.Request × Database.Fate))
    (qs : List Store.Request) :
    let s := ((Database.create clock).course txs qs).store
    let ts := Store.empty.trail (Database.lasting txs ++ qs)
    (∀ access now xs,
      s.serve ⟨access, now, .notify xs⟩ = (.ok .done, s.notify xs) ∧
        Store.ServedAll ts s xs (s.notify xs) ∧
        ∀ L : Layout, L.Holds s →
          (xs.foldl (fun L x => (L.act (.deliver x)).2) L).Holds (s.notify xs)) ∧
    ∀ c, ∃ line, Store.Line ts s c line ∧
      ((∀ r ∈ line, ∀ call, lastCall ts r.id = some call → call.correlations.Nodup) →
        ∀ groups : List (List Response), (∀ xs ∈ groups, ∀ x ∈ xs, x.correlation = c) →
          Store.Dealt s line groups.flatten (groups.foldl Store.notify s)) := by
  intro s ts
  have hs : s = Store.empty.serveAll (Database.lasting txs ++ qs) := Database.course_store rfl txs qs
  have h : Store.Queued ts s := hs ▸ Store.queued_inductive.run (Database.lasting txs ++ qs)
  have asked : Store.Asked ts s := hs ▸ Store.asked_inductive.run (Database.lasting txs ++ qs)
  refine ⟨fun access now xs => ⟨Store.actAll_deliver xs s, h.servedAll xs, fun L hL =>
    Store.holds_notify xs hL⟩, fun c => ?_⟩
  obtain ⟨line, hl⟩ := h.line c
  refine ⟨line, hl, fun hdistinct groups hx => ?_⟩
  have hjoin : groups.foldl Store.notify s = s.notify groups.flatten := List.foldl_flatten.symm
  rw [hjoin]
  refine h.dealt groups.flatten hl (fun r hr x hxc => ?_) fun x hm => ?_
  · obtain ⟨hm, hw⟩ := (hl.members r).1 hr
    obtain ⟨z, hz, -⟩ := Record.wants_iff.1 hw
    obtain ⟨call, hc, hsound⟩ := asked.last r hm z hz
    subst hxc
    exact Record.unwanted_answer hz (hsound.asks.correlations ▸ hdistinct r hr call hc) hw
  · obtain ⟨xs, hxs, hm⟩ := List.mem_flatten.1 hm
    exact hx xs hxs x hm

/-- Two instances are suspended on one id, and the first of them once more. So it stands behind the
second, and the last of three responses is for neither. -/
example :
    let x (n : Int) : Response := ⟨"c", .ok (.int n), .epoch, none⟩
    let w (n : BitVec 128) : Workflow := { Workflow.create "t" .null with id := some ⟨n⟩ }
    let suspend (n : BitVec 128) : Operation := .suspend ⟨⟨n⟩, .all, none, ["c"]⟩ .null
    let s := Store.empty.serveAll <|
      [.insert [w 1, w 2], suspend 1, suspend 2, suspend 1].map fun op => ⟨⟨"a", false⟩, .epoch, op⟩
    let s' := [[x 1, x 2], [x 3]].foldl Store.notify s
    s'.records.map (·.delivered) = [[x 2], [x 1]] ∧ s'.unclaimed.map (·.response) = [x 3] := by
  decide +kernel

end Resumption
