import Resumption.Proofs.Store.Filling

/-!
# The order of arrival

Responses may come before the suspension that waits for them, after it, or partly before and partly
after. For an instance that waits for all of distinct ids, and is the only one to wait for them,
this makes no difference to the store at all.

**One response.** `suspend_deliver`: a response that is delivered just before the suspension may as
well be delivered just after it. Before, it stays unclaimed or goes to another instance; after, the
suspended instance takes it exactly when no earlier response to its id was there. What carries the
proof is the closed form of a wait for all (`Store.suspended_all`). By induction the same holds of
any number of responses (`notify_suspend`), and so the store can be read off from the one in which
everything came early.

**Result.** `arrival_order_irrelevant`: with the quorum `all` every cut of the responses leaves the
same store, and the instance depends only on the order of the responses to each single id. With the
quorum `first` every cut makes the instance ready in the same cases, with one response.
-/

namespace Resumption

/-! ## Looking up changed records -/

namespace Record

theorem wants_idle {r : Record} (h : r.stage ≠ .waiting) (d : String) : r.wants d = false := by
  rw [Bool.eq_false_iff]
  intro hw
  obtain ⟨z, hz, -⟩ := wants_iff.1 hw
  exact h (by rw [stage, hz]; rfl)

end Record

namespace Store

variable {s : Store} {c : Callback} {r : Record}

theorem find?_update_same {f : Record → Record} (hf : (f r).id = r.id)
    (hu : (s.update r.id f).Unique) (hr : r ∈ s.records) :
    (s.update r.id f).find? r.id = some (f r) := by
  have hm : f r ∈ (s.update r.id f).records := List.mem_map.2 ⟨r, hr, if_pos rfl⟩
  have := hu.find? hm
  rwa [hf] at this

theorem find?_update_other {id : Uuid} {f : Record → Record} (hu : (s.update id f).Unique)
    (hr : r ∈ s.records) (hid : r.id ≠ id) : (s.update id f).find? r.id = some r :=
  hu.find? (List.mem_map.2 ⟨r, hr, if_neg hid⟩)

/-- Changes of two different records can be made in either order. -/
theorem update_comm {i j : Uuid} (hij : i ≠ j) {f g : Record → Record} (hf : ∀ r, (f r).id = r.id)
    (hg : ∀ r, r.id = j → (g r).id = j) :
    (s.update i f).update j g = (s.update j g).update i f := by
  unfold update
  simp only [List.map_map]
  congr 1
  refine List.map_congr_left fun r _ => ?_
  by_cases hi : r.id = i
  · have hj : r.id ≠ j := fun e => hij (hi.symm.trans e)
    simp [hi, hf, hij]
  · by_cases hj : r.id = j
    · have hgi : (g r).id ≠ i := fun e => hij (e.symm.trans (hg r hj))
      simp [hj, hij.symm, hgi]
    · simp [hi, hj]

theorem update_update {i : Uuid} (f : Record → Record) {g : Record → Record}
    (hg : ∀ r, r.id = i → (g r).id = i) :
    (s.update i g).update i f = s.update i fun r => f (g r) := by
  unfold update
  simp only [List.map_map]
  congr 1
  refine List.map_congr_left fun r _ => ?_
  by_cases hi : r.id = i
  · simp [hi, hg r hi]
  · simp [hi]

/-- A change of a record that does not want an id before or after it does not change who the
response goes to. -/
theorem target?_update {id : Uuid} {f : Record → Record} {d : String}
    (h : ∀ r ∈ s.records, r.id = id → r.wants d = false ∧ (f r).wants d = false) :
    (s.update id f).target? d = s.target? d := by
  have : ∀ l : List Record, (∀ r ∈ l, r.id = id → r.wants d = false ∧ (f r).wants d = false) →
      (l.map fun r => if r.id = id then f r else r).filter (fun r => r.wants d) =
        l.filter fun r => r.wants d := by
    intro l
    induction l with
    | nil => intro _; rfl
    | cons r l ih =>
      intro hl
      have ih := ih fun t ht => hl t (List.mem_cons_of_mem _ ht)
      by_cases hid : r.id = id
      · obtain ⟨h1, h2⟩ := hl r List.mem_cons_self hid
        rw [List.map_cons, if_pos hid, List.filter_cons_of_neg (by simp [h2]),
          List.filter_cons_of_neg (by simp [h1]), ih]
      · rw [List.map_cons, if_neg hid, List.filter_cons, List.filter_cons, ih]
  exact congrArg Record.earliest (this s.records h)

/-! ## Delivering -/

theorem deliver_some {x : Response} {t : Record} (h : s.target? x.correlation = some t) :
    s.deliver x = s.update t.id fun y => y.answer x := by simp only [deliver, h]

theorem deliver_none {x : Response} (h : s.target? x.correlation = none) :
    s.deliver x = { s with unclaimed := s.unclaimed ++ [⟨x, x.expiry .zero⟩] } := by
  simp only [deliver, h]

theorem Unique.answered (hu : s.Unique) (id : Uuid) (x : Response) :
    (s.update id fun y => y.answer x).Unique :=
  hu.update fun r _ he => (Record.answer_id r x).trans he

/-- `r` is the record of the instance that the callback is about, and no other record wants an
answer to one of its ids. -/
structure Sole (s : Store) (c : Callback) (r : Record) : Prop where
  unique : s.Unique
  found : s.find? c.instanceId = some r
  alone : ∀ t ∈ s.records, t.id ≠ c.instanceId → ∀ d ∈ c.correlations, t.wants d = false

theorem Sole.mem (h : s.Sole c r) : r ∈ s.records := (find?_some h.found).1

theorem Sole.id (h : s.Sole c r) : r.id = c.instanceId := (find?_some h.found).2

/-- Only the instance itself takes responses to the ids of the callback. -/
theorem Sole.target (h : s.Sole c r) {d : String} (hd : d ∈ c.correlations) :
    s.target? d = if r.wants d then some r else none := by
  cases ht : s.target? d with
  | none => rw [target?_none ht r h.mem, if_neg Bool.false_ne_true]
  | some t =>
    obtain ⟨hm, hw⟩ := target?_some ht
    by_cases hid : t.id = c.instanceId
    · rw [h.unique.eq hm h.mem (hid.trans h.id.symm)] at hw ⊢
      rw [if_pos hw]
    · rw [h.alone t hm hid d hd] at hw
      cases hw

theorem Sole.deliver_wanted (h : s.Sole c r) {x : Response} (hx : x.correlation ∈ c.correlations)
    (hw : r.wants x.correlation = true) : (s.deliver x).Sole c (r.answer x) := by
  have ht := h.target hx
  rw [if_pos hw] at ht
  have hu := h.unique.answered r.id x
  rw [deliver_some ht]
  refine ⟨hu, ?_, fun t hm hid d hd => ?_⟩
  · rw [← h.id]
    exact find?_update_same (Record.answer_id r x) hu h.mem
  · obtain ⟨t', hm', ⟨hid', rfl⟩ | ⟨-, rfl⟩⟩ := mem_update hm
    · rw [Record.answer_id, hid', h.id] at hid
      exact absurd rfl hid
    · exact h.alone t hm' hid d hd

theorem Sole.deliver_unwanted (h : s.Sole c r) {x : Response} (hw : r.wants x.correlation = false) :
    (s.deliver x).Sole c r := by
  cases ht : s.target? x.correlation with
  | none => rw [deliver_none ht]; exact ⟨h.unique, h.found, h.alone⟩
  | some t =>
    obtain ⟨htm, htw⟩ := target?_some ht
    have hne : r.id ≠ t.id := fun e => by
      rw [h.unique.eq h.mem htm e, htw] at hw
      cases hw
    have hu := h.unique.answered t.id x
    rw [deliver_some ht]
    refine ⟨hu, ?_, fun v hm hid d hd => ?_⟩
    · rw [← h.id]
      exact find?_update_other hu h.mem hne
    · obtain ⟨v', hm', ⟨hid', rfl⟩ | ⟨-, rfl⟩⟩ := mem_update hm
      · rw [Record.answer_id] at hid
        rw [← h.unique.eq hm' htm hid'] at htw
        rw [Bool.eq_false_iff]
        intro hv
        have := Record.wants_of_answer htw hv
        rw [h.alone v' hm' hid d hd] at this
        cases this
      · exact h.alone v hm' hid d hd

/-- What is pending for an id of the callback after a response that its instance does not want. -/
theorem Sole.pending_deliver (h : s.Sole c r) {x : Response} (hw : r.wants x.correlation = false)
    {d : String} (hd : d ∈ c.correlations) :
    ((s.deliver x).pending.filter fun y => y.correlation == d) =
      (s.pending ++ [x]).filter fun y => y.correlation == d := by
  cases ht : s.target? x.correlation with
  | none =>
    rw [deliver_none ht]
    unfold pending
    rw [List.map_append]
    rfl
  | some t =>
    have hne : x.correlation ≠ d := by
      rintro rfl
      rw [h.target hd, if_neg (by rw [hw]; exact Bool.false_ne_true)] at ht
      cases ht
    have hnil : ([x].filter fun y => y.correlation == d) = [] :=
      List.filter_eq_nil_iff.2 (by simpa using hne)
    rw [deliver_some ht, List.filter_append, hnil, List.append_nil]
    rfl

theorem drawn_deliver (s : Store) (x : Response) : (s.deliver x).drawn = s.drawn := by
  unfold deliver
  split <;> rfl

/-- An instance that wants nothing is the same after any responses, and those to the ids of the
callback are pending in their order. -/
theorem Sole.notify (hi : ∀ d, r.wants d = false) (rs : List Response) :
    ∀ {s : Store}, s.Sole c r → (s.notify rs).Sole c r ∧ (s.notify rs).drawn = s.drawn ∧
      ∀ d ∈ c.correlations, ((s.notify rs).pending.filter fun y => y.correlation == d) =
        (s.pending ++ rs).filter fun y => y.correlation == d := by
  induction rs with
  | nil => intro s h; exact ⟨h, rfl, fun d _ => by rw [List.append_nil]; rfl⟩
  | cons x rs ih =>
    intro s h
    obtain ⟨h1, h2, h3⟩ := ih (h.deliver_unwanted (hi x.correlation))
    refine ⟨h1, h2.trans (drawn_deliver s x), fun d hd => ?_⟩
    have hx := h.pending_deliver (hi x.correlation) hd
    show ((s.deliver x).notify rs).pending.filter _ = _
    rw [h3 d hd, List.filter_append, hx, ← List.filter_append, List.append_assoc]
    rfl

/-- What is pending among the responses to the ids of the callback. -/
theorem Sole.mem_notify (h : s.Sole c r) (hi : ∀ d, r.wants d = false) (rs : List Response)
    {x : Response} (hx : x.correlation ∈ c.correlations) :
    x ∈ (s.notify rs).pending ↔ x ∈ s.pending ++ rs := by
  have hf : ∀ l : List Response, x ∈ l ↔ x ∈ l.filter fun y => y.correlation == x.correlation := by
    intro l
    simp
  rw [hf, hf (s.pending ++ rs), (Sole.notify hi rs h).2.2 _ hx]

/-! ## Suspending -/

theorem Sole.suspend (h : s.Sole c r) (payload : Json) :
    (s.suspend c payload).2.Sole c (s.suspended c payload r).1 := by
  have hu : (s.suspend c payload).2.Unique := act_unique s (.suspend c payload) h.unique
  rw [suspend_present h.found] at hu ⊢
  refine ⟨hu, ?_, fun t hm hid d hd => ?_⟩
  · have hm : (s.suspended c payload r).1 ∈
        (s.update c.instanceId fun _ => (s.suspended c payload r).1).records :=
      List.mem_map.2 ⟨r, h.mem, if_pos h.id⟩
    have := hu.find? hm
    rwa [suspended_id, h.id] at this
  · obtain ⟨t', hm', ⟨-, rfl⟩ | ⟨-, rfl⟩⟩ := mem_update hm
    · rw [suspended_id] at hid
      exact absurd h.id hid
    · exact h.alone t hm' hid d hd

/-- A record that waits for all of distinct ids wants those that nothing came in for. -/
theorem fulfilled_wants (s : Store) (c : Callback) (payload : Json) (r : Record) (d : String) :
    (s.fulfilled c payload r).wants d = true ↔ d ∈ c.correlations ∧ firstTo d s.pending = none :=
  (Record.settle_wants _ _ d).trans (openCount_filled d)

/-- The store after a suspension on all of distinct ids. -/
theorem Sole.suspend_all (h : s.Sole c r) (hq : c.quorum = .all) (hn : c.correlations.Nodup)
    (payload : Json) :
    (s.suspend c payload).2 =
      ⟨(s.update c.instanceId fun _ => s.fulfilled c payload r).records,
        strip s.unclaimed c.correlations, s.drawn + 1⟩ := by
  rw [suspend_present h.found, suspended_all hq hn]

/-- A response that stays unclaimed is there for a suspension that comes after it. -/
theorem fulfilled_deliver {x : Response} (ht : s.target? x.correlation = none) (payload : Json)
    (r : Record) :
    (s.deliver x).fulfilled c payload r =
      { r with payload }.settle
        ⟨c.quorum, c.deadline, s.drawn + 1, filled c.correlations (s.pending ++ [x])⟩ := by
  have hp : (s.deliver x).pending = s.pending ++ [x] := by
    rw [deliver_none ht, pending, List.map_append]
    rfl
  rw [fulfilled, drawn_deliver, hp]

theorem strip_deliver {x : Response} (ht : s.target? x.correlation = none)
    (hn : c.correlations.Nodup) :
    strip (s.deliver x).unclaimed c.correlations =
      if x.correlation ∈ c.correlations ∧ firstTo x.correlation s.pending = none
      then strip s.unclaimed c.correlations
      else strip s.unclaimed c.correlations ++ [⟨x, x.expiry .zero⟩] := by
  rw [deliver_none ht]
  exact strip_append _ _ _ hn

/-- **One response.** Just before or just after a suspension makes no difference. -/
theorem suspend_deliver (h : s.Sole c r) (hi : ∀ d, r.wants d = false) (hq : c.quorum = .all)
    (hn : c.correlations.Nodup) (payload : Json) (x : Response) :
    ((s.deliver x).suspend c payload).2 = (s.suspend c payload).2.deliver x := by
  have h₁ := h.suspend payload
  have hwants := s.fulfilled_wants c payload r x.correlation
  rw [h.suspend_all hq hn, suspended_all hq hn] at h₁
  rw [h.suspend_all hq hn, (h.deliver_unwanted (hi x.correlation)).suspend_all hq hn]
  have hkeep : ∀ t : Record, t.id = c.instanceId → (s.fulfilled c payload r).id = c.instanceId :=
    fun _ _ => h₁.id
  by_cases hnew : x.correlation ∈ c.correlations ∧ firstTo x.correlation s.pending = none
  · -- Nobody waited for the response, and now the instance does.
    have ht : s.target? x.correlation = none := by
      rw [h.target hnew.1, if_neg (by rw [hi]; exact Bool.false_ne_true)]
    have hS := h₁.target hnew.1
    rw [if_pos (hwants.2 hnew)] at hS
    have hans : (s.deliver x).fulfilled c payload r = (s.fulfilled c payload r).answer x := by
      rw [fulfilled_deliver ht, filled_append_new hn hnew.1 hnew.2, fulfilled,
        Record.settle_answer _ hq ((openCount_filled _).2 hnew)]
      rfl
    have hupd := update_update (s := s) (fun y => y.answer x) hkeep
    rw [deliver_some hS, strip_deliver ht hn, if_pos hnew, hans, deliver_none ht, h₁.id]
    exact congrArg (fun l : Store => Store.mk l.records _ _) hupd.symm
  · -- The instance does not want the response, so whoever else does takes it.
    have hno : (s.fulfilled c payload r).wants x.correlation = false := by
      rw [Bool.eq_false_iff]
      exact fun hw => hnew (hwants.1 hw)
    have hS : target? ⟨(s.update c.instanceId fun _ => s.fulfilled c payload r).records,
        strip s.unclaimed c.correlations, s.drawn + 1⟩ x.correlation = s.target? x.correlation := by
      refine target?_update (s := s) fun t ht hid => ?_
      rw [h.unique.eq ht h.mem (hid.trans h.id.symm)]
      exact ⟨hi _, hno⟩
    cases ht : s.target? x.correlation with
    | some t =>
      obtain ⟨htm, htw⟩ := target?_some ht
      have hne : t.id ≠ c.instanceId := fun e => by
        rw [h.unique.eq htm h.mem (e.trans h.id.symm), hi] at htw
        cases htw
      have hcomm := update_comm (s := s) hne (fun y => Record.answer_id y x) hkeep
      rw [ht] at hS
      rw [deliver_some hS, deliver_some ht]
      exact congrArg (fun l : Store => Store.mk l.records _ _) hcomm
    | none =>
      rw [ht] at hS
      rw [deliver_none hS, strip_deliver ht hn, if_neg hnew, fulfilled_deliver ht,
        filled_append_old fun hc hf => hnew ⟨hc, hf⟩, deliver_none ht]
      rfl

/-- Responses before a suspension may as well come after it. -/
theorem notify_suspend (hi : ∀ d, r.wants d = false) (hq : c.quorum = .all)
    (hn : c.correlations.Nodup) (payload : Json) (early late : List Response) :
    ∀ {s : Store}, s.Sole c r → ((s.notify early).suspend c payload).2.notify late =
      (s.suspend c payload).2.notify (early ++ late) := by
  induction early with
  | nil => intro s _; rfl
  | cons x early ih =>
    intro s h
    calc (((s.deliver x).notify early).suspend c payload).2.notify late
        = ((s.deliver x).suspend c payload).2.notify (early ++ late) :=
          ih (h.deliver_unwanted (hi x.correlation))
      _ = ((s.suspend c payload).2.deliver x).notify (early ++ late) := by
          rw [suspend_deliver h hi hq hn payload x]

/-! ## Waiting for the first -/

/-- A wait for the first of some ids takes one unclaimed response to one of them, if any. -/
theorem collect_first {r : Record} {z : Suspension} (hz : r.status = .waiting z)
    (hq : z.quorum = .first) (us : List Unclaimed) (cs : List String) :
    (collect r us cs = (r, us) ∧ ∀ u ∈ us, u.response.correlation ∉ cs) ∨
      ∃ u ∈ us, u.response.correlation ∈ cs ∧
        (collect r us cs).1 = r.release false (z.answered u.response) := by
  induction cs with
  | nil => exact Or.inl ⟨rfl, by simp⟩
  | cons c cs ih =>
    cases ht : takeFirst c us with
    | none =>
      have hc := takeFirst_none ht
      rw [collect_cons_none hz ht]
      rcases ih with ⟨he, hn⟩ | ⟨u, hu, hm, he⟩
      · refine Or.inl ⟨he, fun u hu hm => ?_⟩
        rcases List.mem_cons.1 hm with h | h
        · exact hc u hu h
        · exact hn u hu h
      · exact Or.inr ⟨u, hu, List.mem_cons_of_mem _ hm, he⟩
    | some p =>
      obtain ⟨a, rest⟩ := p
      obtain ⟨pre, u, post, rfl, -, rfl, rfl, -⟩ := takeFirst_some ht
      rw [collect_cons_some hz ht, Record.answer_first hz hq, collect_done (by intro z h; cases h)]
      exact Or.inr ⟨u, by simp, List.mem_cons_self, rfl⟩

/-- Responses that come while an instance waits for the first of some ids: the first to any of them
releases it. -/
theorem Sole.notify_first {z : Suspension} (hz : r.status = .waiting z) (hq : z.quorum = .first)
    (ho : ∀ d, 0 < Suspension.openCount z.waits d ↔ d ∈ c.correlations) (rs : List Response) :
    ∀ {s : Store}, s.Sole c r →
      ((s.notify rs).find? c.instanceId = some r ∧ ∀ x ∈ rs, x.correlation ∉ c.correlations) ∨
        ∃ x ∈ rs, x.correlation ∈ c.correlations ∧
          (s.notify rs).find? c.instanceId = some (r.release false (z.answered x)) := by
  induction rs with
  | nil => intro s h; exact Or.inl ⟨h.found, by simp⟩
  | cons x rs ih =>
    intro s h
    have hw : r.wants x.correlation = true ↔ x.correlation ∈ c.correlations := by
      rw [← ho, Record.wants_iff]
      constructor
      · rintro ⟨z', hz', h'⟩
        rw [hz] at hz'
        cases hz'
        exact h'
      · exact fun h' => ⟨z, hz, h'⟩
    by_cases hx : x.correlation ∈ c.correlations
    · have h' := h.deliver_wanted hx (hw.2 hx)
      rw [Record.answer_first hz hq] at h'
      exact Or.inr ⟨x, List.mem_cons_self, hx, (Sole.notify (fun _ => rfl) rs h').1.found⟩
    · have hno : r.wants x.correlation = false := by
        rw [Bool.eq_false_iff]
        exact fun h => hx (hw.1 h)
      rcases ih (h.deliver_unwanted hno) with ⟨hf, hn⟩ | ⟨y, hy, hm, hf⟩
      · refine Or.inl ⟨hf, fun y hy => ?_⟩
        rcases List.mem_cons.1 hy with rfl | hy
        · exact hx
        · exact hn y hy
      · exact Or.inr ⟨y, List.mem_cons_of_mem _ hy, hm, hf⟩

/-! ## Cuts -/

/-- A callback suspends a stored instance that does not wait, on distinct ids that no other
instance waits for. -/
structure Fresh (s : Store) (c : Callback) (r : Record) : Prop where
  found : s.find? c.instanceId = some r
  idle : r.stage ≠ .waiting
  distinct : c.correlations.Nodup
  alone : ∀ t ∈ s.records, t.id ≠ c.instanceId → ∀ d ∈ c.correlations, t.wants d = false

/-- The store after a suspension with some responses before it and some after it. -/
def around (s : Store) (early : List Response) (c : Callback) (payload : Json)
    (late : List Response) : Store :=
  ((s.notify early).suspend c payload).2.notify late

theorem Fresh.sole (h : s.Fresh c r) (hs : s.Reachable) : s.Sole c r :=
  ⟨hs.unique, h.found, h.alone⟩

theorem Fresh.suspends (h : s.Fresh c r) (hs : s.Reachable) (payload : Json)
    (early : List Response) : ((s.notify early).suspend c payload).1 = .ok () := by
  rw [suspend_present (Sole.notify (Record.wants_idle h.idle) early (h.sole hs)).1.found]

/-- What the instance is like in the end when it waits for all. -/
theorem Fresh.around_all (h : s.Fresh c r) (hs : s.Reachable) (hq : c.quorum = .all)
    (payload : Json) (rs : List Response) :
    (s.around [] c payload rs).find? c.instanceId = some ({ r with payload }.settle
      ⟨c.quorum, c.deadline, s.drawn + 1, filled c.correlations (s.pending ++ rs)⟩) := by
  have hi := Record.wants_idle h.idle
  obtain ⟨h1, h2, h3⟩ := Sole.notify hi rs (h.sole hs)
  have hlate : s.around [] c payload rs = ((s.notify rs).suspend c payload).2 := by
    have := notify_suspend hi hq h.distinct payload rs [] (h.sole hs)
    rw [List.append_nil] at this
    exact this.symm
  have hfill : filled c.correlations (s.notify rs).pending =
      filled c.correlations (s.pending ++ rs) := by
    refine List.map_congr_left fun d hd => ?_
    rw [firstTo_filter, firstTo_filter, h3 d hd]
  rw [hlate, (h1.suspend payload).found, suspended_all hq h.distinct, fulfilled, hfill, h2]

/-- What the instance is like in the end when it waits for the first: it took one response to one of
its ids, or there was none. -/
theorem Fresh.around_first (h : s.Fresh c r) (hs : s.Reachable) (hq : c.quorum = .first)
    (payload : Json) (early late : List Response) :
    ∃ r', (s.around early c payload late).find? c.instanceId = some r' ∧
      ((r'.stage = .waiting ∧ ∀ x ∈ s.pending ++ (early ++ late), x.correlation ∉ c.correlations) ∨
        ∃ x ∈ s.pending ++ (early ++ late), x.correlation ∈ c.correlations ∧ r'.stage = .ready ∧
          r'.delivered = r.delivered ++ [x]) := by
  have hi := Record.wants_idle h.idle
  have h1 := (Sole.notify hi early (h.sole hs)).1
  have hopen : ∀ d, 0 < Suspension.openCount
      (Suspension.ofCallback c ((s.notify early).drawn + 1)).waits d ↔ d ∈ c.correlations := by
    intro d
    rw [openCount_ofCallback, List.count_pos_iff]
  have hone : ∀ x, x.correlation ∈ c.correlations →
      (Suspension.answered (.ofCallback c ((s.notify early).drawn + 1)) x).answers = [x] :=
    fun x hx => Suspension.answers_answered (Suspension.ofCallback_open c _) ((hopen _).2 hx)
  have hS := h1.suspend payload
  rcases collect_first (r := r.suspend payload (.ofCallback c ((s.notify early).drawn + 1))) rfl hq
    (s.notify early).unclaimed c.correlations with ⟨he, hn⟩ | ⟨u, hu, hm, he⟩
  · rw [suspended, he] at hS
    have hnone : ∀ x ∈ s.pending ++ early, x.correlation ∉ c.correlations := by
      intro x hx hm
      obtain ⟨u, hu, rfl⟩ := List.mem_map.1 (((h.sole hs).mem_notify hi early hm).2 hx)
      exact hn u hu hm
    rcases Sole.notify_first rfl hq hopen late hS with ⟨hf, hl⟩ | ⟨x, hx, hm, hf⟩
    · refine ⟨_, hf, Or.inl ⟨rfl, fun x hx => ?_⟩⟩
      rw [← List.append_assoc] at hx
      rcases List.mem_append.1 hx with hx | hx
      · exact hnone x hx
      · exact hl x hx
    · refine ⟨_, hf, Or.inr ⟨x, by simp [hx], hm, rfl, ?_⟩⟩
      exact congrArg (r.delivered ++ ·) (hone x hm)
  · rw [suspended, he] at hS
    have hx : u.response ∈ s.pending ++ early :=
      ((h.sole hs).mem_notify hi early hm).1 (List.mem_map_of_mem hu)
    refine ⟨_, (Sole.notify (fun _ => rfl) late hS).1.found, Or.inr ⟨u.response, ?_, hm, rfl, ?_⟩⟩
    · rw [← List.append_assoc]
      exact List.mem_append_left _ hx
    · exact congrArg (r.delivered ++ ·) (hone _ hm)

end Store

/-- The responses to each single id come in the same order. -/
def SameOrder (rs rs' : List Response) : Prop :=
  ∀ d, (rs.filter fun x => x.correlation == d) = rs'.filter fun x => x.correlation == d

/-- **Order of arrival.** A callback suspends an instance that does not wait, on distinct ids that
no other instance waits for.

With the quorum `all`, every cut of the responses into those before and those after the suspension
leaves the same store; the instance is ready if the callback names an id and each of its ids has a
response among the pending ones and these, and only then; what it gets is the earliest response to
each id, in the order of the ids; and it is the same for responses in any order that keeps those to
each single id in theirs.

With the quorum `first`, after every cut the instance is ready if one of its ids has a response, and
only then, and it gets one response to one of its ids. -/
theorem arrival_order_irrelevant {s : Store} (hs : s.Reachable) {c : Callback} {r : Record}
    (h : s.Fresh c r) (payload : Json) (rs : List Response) :
    (∀ early late, early ++ late = rs → ((s.notify early).suspend c payload).1 = .ok ()) ∧
    (c.quorum = .all →
      (∀ early late, early ++ late = rs →
        s.around early c payload late = s.around [] c payload rs) ∧
      ∃ r', (s.around [] c payload rs).find? c.instanceId = some r' ∧
        (r'.stage = .ready ↔ c.correlations ≠ [] ∧
          ∀ d ∈ c.correlations, ∃ x ∈ s.pending ++ rs, x.correlation = d) ∧
        (r'.stage = .ready → r'.delivered =
          r.delivered ++ c.correlations.filterMap fun d => firstTo d (s.pending ++ rs)) ∧
        ∀ rs', SameOrder rs rs' →
          (s.around [] c payload rs').find? c.instanceId = some r') ∧
    (c.quorum = .first → ∀ early late, early ++ late = rs →
      ∃ r', (s.around early c payload late).find? c.instanceId = some r' ∧
        (r'.stage = .ready ↔ ∃ x ∈ s.pending ++ rs, x.correlation ∈ c.correlations) ∧
        (r'.stage = .ready → ∃ x ∈ s.pending ++ rs, x.correlation ∈ c.correlations ∧
          r'.delivered = r.delivered ++ [x])) := by
  refine ⟨fun early _ _ => h.suspends hs payload early, fun hq => ⟨?_, ?_⟩, ?_⟩
  · rintro early late rfl
    have hi := Record.wants_idle h.idle
    exact Store.notify_suspend hi hq h.distinct payload early late (h.sole hs)
  · refine ⟨_, h.around_all hs hq payload rs, ?_, fun hr => ?_, fun rs' hrs => ?_⟩
    · rw [Record.settle_ready, filled_closed]
      exact and_congr_left fun _ => not_congr List.map_eq_nil_iff
    · rw [Record.settle_delivered hr]
      exact congrArg (r.delivered ++ ·) (List.filterMap_map ..)
    · have hfill : filled c.correlations (s.pending ++ rs') =
          filled c.correlations (s.pending ++ rs) := by
        refine List.map_congr_left fun d _ => ?_
        rw [firstTo_filter, firstTo_filter, List.filter_append, List.filter_append, hrs d]
      rw [h.around_all hs hq payload rs', hfill]
  · rintro hq early late rfl
    obtain ⟨r', hf, ⟨hw, hn⟩ | ⟨x, hx, hm, hst, hd⟩⟩ := h.around_first hs hq payload early late
    · refine ⟨r', hf, ⟨fun hr => ?_, fun ⟨x, hx, hm⟩ => absurd hm (hn x hx)⟩, fun hr => ?_⟩
      · rw [hw] at hr; cases hr
      · rw [hw] at hr; cases hr
    · exact ⟨r', hf, ⟨fun _ => ⟨x, hx, hm⟩, fun _ => hst⟩, fun _ => ⟨x, hx, hm, hd⟩⟩

/-- A store with one new instance. -/
def Store.single : Store :=
  (Store.empty.act (.insert { Workflow.create "t" .null with id := some ⟨1⟩ })).2

/-- The instance waits for two ids. The second of them is answered before the suspension and the
first one twice after it. -/
theorem arrival_order_single :
    let c : Callback := ⟨⟨1⟩, .all, none, ["a", "b"]⟩
    let x (d : String) (n : Nat) : Response := ⟨d, .ok (.nat n), .epoch, none⟩
    Store.single.around [x "b" 1] c .null [x "a" 2, x "a" 3] =
        Store.single.around [] c .null [x "b" 1, x "a" 2, x "a" 3] ∧
      ∃ r', (Store.single.around [] c .null [x "b" 1, x "a" 2, x "a" 3]).find? ⟨1⟩ = some r' ∧
        r'.stage = .ready ∧ r'.delivered = [x "a" 2, x "b" 1] := by
  intro c x
  let r : Record := .ofWorkflow ⟨1⟩ 1 (Workflow.create "t" .null)
  have hf : Store.single.Fresh c r := ⟨rfl, by decide, by decide, by decide⟩
  obtain ⟨-, hall, -⟩ := arrival_order_irrelevant (.act _ .empty) hf .null
    [x "b" 1, x "a" 2, x "a" 3]
  obtain ⟨hcut, r', hr', hready, hdel, -⟩ := hall rfl
  have hst : r'.stage = .ready := hready.2 (by decide)
  exact ⟨hcut [x "b" 1] [x "a" 2, x "a" 3] rfl, r', hr', hst, hdel hst⟩

/-- A callback that names no id is never answered, so the instance waits although no id lacks a
response. -/
theorem waits_for_nothing :
    let c : Callback := ⟨⟨1⟩, .all, none, []⟩
    Store.single.Reachable ∧ Store.single.Fresh c (.ofWorkflow ⟨1⟩ 1 (Workflow.create "t" .null)) ∧
      ¬ ∃ r', (Store.single.around [] c .null []).find? ⟨1⟩ = some r' ∧
        (r'.stage = .ready ↔
          ∀ d ∈ c.correlations, ∃ x ∈ Store.single.pending ++ [], x.correlation = d) := by
  intro c
  refine ⟨.act _ .empty, ⟨rfl, by decide, by decide, by decide⟩, ?_⟩
  rintro ⟨r', hf, hready⟩
  have hst : ((Store.single.around [] c .null []).find? ⟨1⟩).map Record.stage = some .waiting := rfl
  rw [hf, Option.map_some, hready.2 (by simp [c])] at hst
  cases hst

end Resumption
