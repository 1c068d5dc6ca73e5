import Resumption.Proofs.Storage.SharedWriter

/-!
# The invariant of a batching writer with many callers

The invariant (`SharedWriter.Sound`) has three parts. What was put in line was executed in that order
or is in hand (`SharedWriter.Line`). Each caller is where its command is, and what the callers put in
line is what was accepted (`SharedWriter.Callers`). The entrance and the worker agree, and whoever
waited for the worker found it done (`SharedWriter.Shutdown`). Every move keeps it
(`SharedWriter.Sound.next`) and so does every run (`SharedWriter.Sound.after`).
-/

namespace Resumption

namespace SharedWriter

/-- The line: what was put in it was executed, from the front, or is in hand, and what was executed
has its answer. -/
structure Line (b : Batcher) (accepted : List Submitted)
    (log : List (Submitted × Except StoreError Unit)) : Prop where
  worker : b.Sound
  order : accepted = log.map Prod.fst ++ b.inHand
  numbered : accepted.map (·.ticket) = List.range b.issued
  left : ∀ y ∈ b.answers, ∃ x, x.ticket = y.1 ∧ (x, y.2) ∈ log
  unclosed : b.phase ≠ .broken → ∀ y ∈ log, y.2 ≠ .error .writerClosed

/-- The caller is where its command is. -/
def Caller.Fits (b : Batcher) (log : List (Submitted × Except StoreError Unit)) (x : Caller) :
    Prop :=
  match x.stage with
  | .holding => x.ticket = none
  | .waiting => ∃ t, x.ticket = some t ∧ t ∈ b.inHand.map (·.ticket) ++ b.answers.map Prod.fst
  | .told r => (x.submission? = none ∧ r = .error .writerClosed) ∨
      ∃ y, x.submission? = some y ∧ (y, r) ∈ log
  | .gone => True

/-- The callers: what they put in line is what was accepted. -/
structure Callers (b : Batcher) (accepted : List Submitted)
    (log : List (Submitted × Except StoreError Unit)) (callers : List Caller) : Prop where
  submissions : (callers.filterMap Caller.submission?).Perm accepted
  fits : ∀ x ∈ callers, x.Fits b log

/-- It has got hold of the worker. -/
def Closer.holds : Closer → Bool
  | .joining | .back true => true
  | .closing | .back false => false

/-- The entrance, the worker and those who shut the writer down, of whom one at most gets hold of the
worker. -/
structure Shutdown (b : Batcher) (shut handle : Bool) (callers : List Caller)
    (closers : List Closer) : Prop where
  closed : b.closed = true → shut = true ∧ ∀ x ∈ callers, x.stage ≠ .holding
  entrance : closers ≠ [] → shut = true
  joined : .back true ∈ closers → b.isOver = true
  free : handle = true → ∀ x ∈ closers, x = .closing
  taken : closers.countP Closer.holds = if handle then 0 else 1

/-- The invariant. -/
structure Sound (h : SharedWriter) : Prop where
  line : Line h.batcher h.accepted h.log
  callers : Callers h.batcher h.accepted h.log h.callers
  shutdown : Shutdown h.batcher h.shut h.handle h.callers h.closers

theorem sound_create (settings : BatchSettings) (a : Access) (d : Database) :
    (create settings a d).Sound := by
  have hand : (Batcher.create settings).inHand = [] := by
    unfold Batcher.create Batcher.inHand
    split <;> rfl
  refine ⟨⟨Batcher.sound_create settings, ?_, rfl, ?_, ?_⟩, ⟨.refl _, ?_⟩, ⟨?_, ?_, ?_, ?_, ?_⟩⟩
  · rw [create, hand]
    rfl
  · intro y hy
    cases hy
  · intro _ y hy
    cases hy
  · intro x hx
    cases hx
  · intro closed
    cases closed
  · intro some_
    exact absurd rfl some_
  · intro back
    cases back
  · intro _ x hx
    cases hx
  · rfl

variable {h : SharedWriter} {b b' : Batcher} {accepted : List Submitted}
  {log : List (Submitted × Except StoreError Unit)} {callers : List Caller} {closers : List Closer}
  {shut handle : Bool}

/-! ## Turns of the worker -/

theorem Line.turns (l : Line b accepted log) (t : b.Turns b') : Line b' accepted log where
  worker := t.sound l.worker
  order := by rw [t.hand]; exact l.order
  numbered := by rw [t.issued]; exact l.numbered
  left := by rw [t.answers]; exact l.left
  unclosed whole := l.unclosed fun broken => whole (t.broken.2 broken)

theorem Callers.turns (c : Callers b accepted log callers) (t : b.Turns b') :
    Callers b' accepted log callers := by
  refine ⟨c.submissions, fun x hx => ?_⟩
  have fits := c.fits x hx
  unfold Caller.Fits at *
  rw [t.hand, t.answers]
  exact fits

theorem Shutdown.turns (d : Shutdown b shut handle callers closers) (t : b.Turns b')
    (closed : b'.closed = true → shut = true ∧ ∀ x ∈ callers, x.stage ≠ .holding) :
    Shutdown b' shut handle callers closers where
  closed := closed
  entrance := d.entrance
  joined back := by
    have before := d.joined back
    rw [t.past before]
    exact before
  free := d.free
  taken := d.taken

/-! ## Callers -/

theorem split_place {α : Type} {xs : List α} {i : Nat} {x : α} (found : xs[i]? = some x) :
    ∃ l r, xs = l ++ x :: r ∧ ∀ y, xs.set i y = l ++ y :: r := by
  obtain ⟨inside, rfl⟩ := List.getElem?_eq_some_iff.1 found
  have set : ∀ y, xs.set i y = xs.take i ++ y :: xs.drop (i + 1) := by
    intro y
    rw [List.set_eq_take_append_cons_drop, if_pos inside]
  refine ⟨_, _, ?_, set⟩
  rw [← set, List.set_getElem_self]

/-- A caller goes on and has put in line what it had before. -/
theorem Callers.replace (c : Callers b accepted log callers) {place : Nat} {x y : Caller}
    (found : callers[place]? = some x) (same : y.submission? = x.submission?)
    (fits : y.Fits b log) : Callers b accepted log (callers.set place y) := by
  refine ⟨?_, ?_⟩
  · obtain ⟨l, r, hl, hs⟩ := split_place found
    have before := c.submissions
    rw [hl] at before
    rw [hs]
    simpa only [List.filterMap_append, List.filterMap_cons, same] using before
  · intro z hz
    rcases List.mem_or_eq_of_mem_set hz with hz | rfl
    · exact c.fits z hz
    · exact fits

theorem Shutdown.replace (d : Shutdown b shut handle callers closers) {place : Nat} {y : Caller}
    (still : y.stage ≠ .holding) : Shutdown b shut handle (callers.set place y) closers := by
  refine ⟨fun closed => ?_, d.entrance, d.joined, d.free, d.taken⟩
  obtain ⟨was_shut, nobody⟩ := d.closed closed
  refine ⟨was_shut, fun z hz => ?_⟩
  rcases List.mem_or_eq_of_mem_set hz with hz | rfl
  · exact nobody z hz
  · exact still

theorem Callers.come (c : Callers b accepted log callers) {x : Caller} (empty : x.submission? = none)
    (fits : x.Fits b log) : Callers b accepted log (callers ++ [x]) := by
  refine ⟨?_, ?_⟩
  · have none_more : [x].filterMap Caller.submission? = [] := by simp [empty]
    rw [List.filterMap_append, none_more, List.append_nil]
    exact c.submissions
  · intro y hy
    rcases List.mem_append.1 hy with hy | hy
    · exact c.fits y hy
    · obtain rfl := List.mem_singleton.1 hy
      exact fits

theorem Shutdown.come (d : Shutdown b shut handle callers closers) {x : Caller}
    (entered : x.stage = .holding → shut = false) :
    Shutdown b shut handle (callers ++ [x]) closers := by
  refine ⟨fun closed => ?_, d.entrance, d.joined, d.free, d.taken⟩
  obtain ⟨was_shut, nobody⟩ := d.closed closed
  refine ⟨was_shut, fun y hy => ?_⟩
  rcases List.mem_append.1 hy with hy | hy
  · exact nobody y hy
  · obtain rfl := List.mem_singleton.1 hy
    intro holding
    rw [entered holding] at was_shut
    cases was_shut

theorem Line.queued (l : Line b accepted log) (not_closed : b.closed = false)
    (whole : b.phase ≠ .broken) (c : Command) :
    Line (b.queued c) (accepted ++ [⟨b.issued, c⟩]) log := by
  refine ⟨Batcher.queued_sound l.worker not_closed whole c, ?_, ?_, l.left, l.unclosed⟩
  · rw [Batcher.queued_inHand, ← List.append_assoc, ← l.order]
  · show _ = List.range (b.issued + 1)
    rw [List.map_append, l.numbered, List.range_succ]
    rfl

theorem Callers.queued (k : Callers b accepted log callers) {place : Nat} {c : Command}
    (found : callers[place]? = some ⟨c, none, .holding⟩) :
    Callers (b.queued c) (accepted ++ [⟨b.issued, c⟩]) log
      (callers.set place ⟨c, some b.issued, .waiting⟩) := by
  refine ⟨?_, ?_⟩
  · obtain ⟨l, r, hl, hs⟩ := split_place found
    have before := k.submissions
    rw [hl] at before
    rw [hs]
    simp only [List.filterMap_append, List.filterMap_cons, Caller.submission?, Option.map_none,
      Option.map_some] at before ⊢
    exact (List.perm_middle.trans (before.cons _)).trans (List.perm_append_singleton _ _).symm
  · intro x hx
    rcases List.mem_or_eq_of_mem_set hx with hx | rfl
    · have fits := k.fits x hx
      unfold Caller.Fits at *
      split
      · next holding => simpa only [holding] using fits
      · next waiting =>
        simp only [waiting] at fits
        obtain ⟨t, ticket, known⟩ := fits
        refine ⟨t, ticket, ?_⟩
        rw [Batcher.queued_inHand, List.map_append]
        rcases List.mem_append.1 known with known | known
        · exact List.mem_append_left _ (List.mem_append_left _ known)
        · exact List.mem_append_right _ known
      · next r told => simpa only [told] using fits
      · trivial
    · refine ⟨_, rfl, ?_⟩
      rw [Batcher.queued_inHand, List.map_append]
      exact List.mem_append_left _ (List.mem_append_right _ (List.mem_singleton.2 rfl))

theorem Shutdown.queued (d : Shutdown b shut handle callers closers) (not_closed : b.closed = false)
    (c : Command) (callers' : List Caller) : Shutdown (b.queued c) shut handle callers' closers := by
  refine ⟨fun closed => ?_, d.entrance, d.joined, d.free, d.taken⟩
  change b.closed = true at closed
  rw [not_closed] at closed
  cases closed

theorem answer?_mem {t : Nat} {r : Except StoreError Unit} (found : b.answer? t = some r) :
    (t, r) ∈ b.answers := by
  obtain ⟨l₁, l₂, answers, -⟩ := List.lookup_eq_some_iff.1 found
  rw [answers]
  exact List.mem_append_right _ List.mem_cons_self

theorem answer?_known {t : Nat} (known : t ∈ b.answers.map Prod.fst) :
    ∃ r, b.answer? t = some r := by
  obtain ⟨y, hy, rfl⟩ := List.mem_map.1 known
  cases found : b.answer? y.1 with
  | some r => exact ⟨r, rfl⟩
  | none => simpa using List.lookup_eq_none_iff.1 found y hy

/-! ## Answers -/

theorem Callers.nodup (k : Callers b accepted log callers) (l : Line b accepted log) :
    (callers.filterMap Caller.ticket).Nodup := by
  have tickets : callers.filterMap Caller.ticket =
      (callers.filterMap Caller.submission?).map (·.ticket) := by
    rw [List.map_filterMap]
    refine List.filterMap_congr fun x _ => ?_
    cases ticket : x.ticket <;> simp [Caller.submission?, ticket]
  rw [tickets, (k.submissions.map (·.ticket)).nodup_iff, l.numbered]
  exact List.nodup_range

/-- What a caller put in line was executed with the answer that is left under its ticket. -/
theorem Callers.logged (k : Callers b accepted log callers) (l : Line b accepted log) {x : Caller}
    (hx : x ∈ callers) {t : Nat} (ticket : x.ticket = some t) {r : Except StoreError Unit}
    (found : b.answer? t = some r) : (⟨t, x.command⟩, r) ∈ log := by
  obtain ⟨y, same, logged⟩ := l.left _ (answer?_mem found)
  have submitted : (⟨t, x.command⟩ : Submitted) ∈ accepted := by
    refine k.submissions.mem_iff.1 (List.mem_filterMap.2 ⟨x, hx, ?_⟩)
    simp only [Caller.submission?, ticket, Option.map_some]
  have executed : y ∈ accepted := by
    rw [l.order]
    exact List.mem_append_left _ (List.mem_map_of_mem logged)
  have distinct : (accepted.map (·.ticket)).Nodup := by
    rw [l.numbered]
    exact List.nodup_range
  obtain rfl : y = ⟨t, x.command⟩ := List.inj_on_of_nodup_map distinct executed submitted same
  exact logged

theorem Line.forget (l : Line b accepted log) (t : Nat) : Line (b.forget t) accepted log where
  worker := ⟨l.worker.drained, l.worker.ended, l.worker.fits, l.worker.room⟩
  order := l.order
  numbered := l.numbered
  left y hy := l.left y (List.mem_of_mem_filter hy)
  unclosed := l.unclosed

theorem Callers.hear (k : Callers b accepted log callers) (l : Line b accepted log) {place : Nat}
    {c : Command} {t : Nat} {r : Except StoreError Unit}
    (found : callers[place]? = some ⟨c, some t, .waiting⟩) (answer : b.answer? t = some r) :
    Callers (b.forget t) accepted log (callers.set place ⟨c, some t, .told r⟩) := by
  have logged := k.logged l (List.mem_of_getElem? found) rfl answer
  have heard := k.replace (y := ⟨c, some t, .told r⟩) found rfl (.inr ⟨_, rfl, logged⟩)
  have nodup := heard.nodup l
  refine ⟨heard.submissions, fun x hx => ?_⟩
  have fits := heard.fits x hx
  unfold Caller.Fits at *
  split
  · next holding => simpa only [holding] using fits
  · next waiting =>
    simp only [waiting] at fits
    obtain ⟨u, ticket, known⟩ := fits
    -- another caller that waits has another ticket, so its answer is still there
    have other : u ≠ t := by
      rintro rfl
      obtain ⟨l, r, hl, hs⟩ := split_place found
      rw [hs] at hx nodup
      simp only [List.filterMap_append, List.filterMap_cons] at nodup
      have once := (List.nodup_middle.1 nodup).notMem
      rcases List.mem_append.1 hx with hx | hx
      · exact once (List.mem_append_left _ (List.mem_filterMap.2 ⟨x, hx, ticket⟩))
      · rcases List.mem_cons.1 hx with rfl | hx
        · cases waiting
        · exact once (List.mem_append_right _ (List.mem_filterMap.2 ⟨x, hx, ticket⟩))
    refine ⟨u, ticket, ?_⟩
    rcases List.mem_append.1 known with known | known
    · exact List.mem_append_left _ known
    · refine List.mem_append_right _ ?_
      obtain ⟨y, hy, rfl⟩ := List.mem_map.1 known
      exact List.mem_map_of_mem (List.mem_filter.2 ⟨hy, by simpa using other⟩)
  · next r told => simpa only [told] using fits
  · trivial

/-! ## Executions -/

variable {a : Access} {d d' : Database} {done : List Submitted} {r : Except StoreError Unit}

theorem executes_going (executes : b.phase.executes = true) : b.isOver = false := by
  unfold Batcher.isOver
  cases phase : b.phase <;> rw [phase] at executes <;> first | rfl | cases executes

theorem Line.settle (l : Line b accepted log) (executes : b.phase.executes = true)
    (t : Batcher.Settles a b d done r b' d') :
    Line b' accepted (log ++ done.map fun x => (x, r)) := by
  refine ⟨t.sound, ?_, ?_, ?_, ?_⟩
  · rw [l.order, t.hand, List.map_append, List.map_map, List.append_assoc]
    congr 2
    exact (List.map_id done).symm
  · rw [t.issued]
    exact l.numbered
  · intro y hy
    rw [t.answers] at hy
    rcases List.mem_append.1 hy with hy | hy
    · obtain ⟨x, ticket, logged⟩ := l.left y hy
      exact ⟨x, ticket, List.mem_append_left _ logged⟩
    · obtain ⟨x, hx, rfl⟩ := List.mem_map.1 hy
      exact ⟨x, rfl, List.mem_append_right _ (List.mem_map_of_mem hx)⟩
  · intro whole y hy
    have was_whole : b.phase ≠ .broken := by
      intro broken
      rw [broken] at executes
      cases executes
    rcases List.mem_append.1 hy with hy | hy
    · exact l.unclosed was_whole y hy
    · obtain ⟨x, -, rfl⟩ := List.mem_map.1 hy
      exact t.unclosed whole

theorem Callers.settle (k : Callers b accepted log callers) (t : Batcher.Settles a b d done r b' d') :
    Callers b' accepted (log ++ done.map fun x => (x, r)) callers := by
  refine ⟨k.submissions, fun x hx => ?_⟩
  have fits := k.fits x hx
  unfold Caller.Fits at *
  split
  · next holding => simpa only [holding] using fits
  · next waiting =>
    simp only [waiting] at fits
    obtain ⟨u, ticket, known⟩ := fits
    refine ⟨u, ticket, ?_⟩
    rw [t.hand, List.map_append] at known
    rw [t.answers, List.map_append, List.map_map]
    simp only [List.mem_append] at known ⊢
    rcases known with (settled | inside) | left
    · exact .inr (.inr settled)
    · exact .inl inside
    · exact .inr (.inl left)
  · next r' told =>
    simp only [told] at fits
    rcases fits with refused | ⟨y, submitted, logged⟩
    · exact .inl refused
    · exact .inr ⟨y, submitted, List.mem_append_left _ logged⟩
  · trivial

theorem Shutdown.settle (k : Shutdown b shut handle callers closers) (executes : b.phase.executes = true)
    (t : Batcher.Settles a b d done r b' d') : Shutdown b' shut handle callers closers := by
  refine ⟨fun closed => k.closed (t.closed ▸ closed), k.entrance, fun back => ?_, k.free, k.taken⟩
  have was_over := k.joined back
  rw [executes_going executes] at was_over
  cases was_over

/-! ## Shutting down -/

theorem mem_set_of_ne {x y z : Closer} {place : Nat} (found : closers[place]? = some y)
    (differ : x ≠ y) (hx : x ∈ closers) : x ∈ closers.set place z := by
  obtain ⟨l, r, hl, hs⟩ := split_place found
  rw [hs]
  rw [hl] at hx
  rcases List.mem_append.1 hx with hx | hx
  · exact List.mem_append_left _ hx
  · rcases List.mem_cons.1 hx with same | hx
    · exact absurd same differ
    · exact List.mem_append_right _ (List.mem_cons_of_mem _ hx)

theorem holders_set {x : Closer} {place : Nat} (found : closers[place]? = some x) (y : Closer) :
    (closers.set place y).countP Closer.holds + x.holds.toNat =
      closers.countP Closer.holds + y.holds.toNat := by
  obtain ⟨l, r, hl, hs⟩ := split_place found
  rw [hs, hl]
  simp only [List.countP_append, List.countP_cons]
  cases x.holds <;> cases y.holds <;> simp [Nat.add_assoc]

/-- Whoever took the worker waits for it or has waited. -/
theorem Shutdown.holder (k : Shutdown b shut handle callers closers) (gone : handle = false) :
    .joining ∈ closers ∨ .back true ∈ closers := by
  have one := k.taken
  rw [gone] at one
  obtain ⟨x, hx, holds⟩ := List.countP_pos_iff.1 (Nat.lt_of_lt_of_eq Nat.one_pos one.symm)
  match x, holds with
  | .joining, _ => exact .inl hx
  | .back true, _ => exact .inr hx

theorem Shutdown.shutdown (k : Shutdown b shut handle callers closers) :
    Shutdown b true handle callers (closers ++ [.closing]) := by
  refine ⟨fun closed => ⟨rfl, (k.closed closed).2⟩, fun _ => rfl, ?_, ?_, ?_⟩
  · intro back
    rcases List.mem_append.1 back with back | back
    · exact k.joined back
    · cases List.mem_singleton.1 back
  · intro free x hx
    rcases List.mem_append.1 hx with hx | hx
    · exact k.free free x hx
    · exact List.mem_singleton.1 hx
  · rw [List.countP_append, k.taken]
    rfl

theorem Shutdown.take (k : Shutdown b shut handle callers closers) {place : Nat}
    (found : closers[place]? = some .closing) (there : handle = true) :
    Shutdown b shut false callers (closers.set place .joining) := by
  have somebody : closers ≠ [] := List.ne_nil_of_mem (List.mem_of_getElem? found)
  refine ⟨k.closed, fun _ => k.entrance somebody, ?_, fun free => (by cases free), ?_⟩
  · intro back
    rcases List.mem_or_eq_of_mem_set back with back | back
    · exact k.joined back
    · cases back
  · have holders := holders_set found .joining
    rw [k.taken, there] at holders
    exact holders

theorem Shutdown.miss (k : Shutdown b shut handle callers closers) {place : Nat}
    (found : closers[place]? = some .closing) (gone : handle = false) :
    Shutdown b shut handle callers (closers.set place (.back false)) := by
  have somebody : closers ≠ [] := List.ne_nil_of_mem (List.mem_of_getElem? found)
  refine ⟨k.closed, fun _ => k.entrance somebody, ?_, fun free => ?_, ?_⟩
  · intro back
    rcases List.mem_or_eq_of_mem_set back with back | back
    · exact k.joined back
    · cases back
  · rw [gone] at free
    cases free
  · exact (holders_set found (.back false)).trans k.taken

theorem Shutdown.join (k : Shutdown b shut handle callers closers) {place : Nat}
    (found : closers[place]? = some .joining) (is_over : b.isOver = true) :
    Shutdown b shut handle callers (closers.set place (.back true)) := by
  have somebody : closers ≠ [] := List.ne_nil_of_mem (List.mem_of_getElem? found)
  refine ⟨k.closed, fun _ => k.entrance somebody, fun _ => is_over, fun free => ?_, ?_⟩
  · cases k.free free _ (List.mem_of_getElem? found)
  · have holders := holders_set found (.back true)
    exact (Nat.add_right_cancel holders).trans k.taken

/-! ## Every move -/

theorem Sound.does (s : h.Sound) {m : Move} {h' : SharedWriter} (does : Does h m h') : h'.Sound := by
  cases does with
  | nothing => exact s
  | came c not_shut => exact ⟨s.line, s.callers.come rfl rfl, s.shutdown.come fun _ => not_shut⟩
  | late c shut =>
    exact ⟨s.line, s.callers.come rfl (.inl ⟨rfl, rfl⟩),
      s.shutdown.come fun holding => (by cases holding)⟩
  | @queued place c t found not_closed whole =>
    obtain rfl : t = none := s.callers.fits _ (List.mem_of_getElem? found)
    exact ⟨s.line.queued not_closed whole c, s.callers.queued found, s.shutdown.queued not_closed c _⟩
  | @refused place c t found =>
    obtain rfl : t = none := s.callers.fits _ (List.mem_of_getElem? found)
    exact ⟨s.line, s.callers.replace found rfl (.inl ⟨rfl, rfl⟩),
      s.shutdown.replace fun holding => (by cases holding)⟩
  | @heard place c t r found answer =>
    have shutdown : Shutdown h.batcher h.shut h.handle (h.callers.set place ⟨c, some t, .told r⟩)
        h.closers := s.shutdown.replace fun holding => (by cases holding)
    exact ⟨s.line.forget t, s.callers.hear s.line found answer,
      ⟨shutdown.closed, shutdown.entrance, shutdown.joined, shutdown.free, shutdown.taken⟩⟩
  | gaveUp found there =>
    exact ⟨s.line, s.callers.replace found rfl trivial,
      s.shutdown.replace fun holding => (by cases holding)⟩
  | turned turns closed closer =>
    refine ⟨s.line.turns turns, s.callers.turns turns, s.shutdown.turns turns fun now_closed => ?_⟩
    rcases closed now_closed with before | ended
    · exact s.shutdown.closed before
    · exact ⟨ended.1, ended.2.2⟩
  | settled executes settles closer =>
    exact ⟨s.line.settle executes settles, s.callers.settle settles, s.shutdown.settle executes settles⟩
  | shut => exact ⟨s.line, s.callers, s.shutdown.shutdown⟩
  | took found free => exact ⟨s.line, s.callers, s.shutdown.take found free⟩
  | missed found taken => exact ⟨s.line, s.callers, s.shutdown.miss found taken⟩
  | joined found done => exact ⟨s.line, s.callers, s.shutdown.join found done⟩
  | configured remove => exact ⟨s.line, s.callers, s.shutdown⟩
  | weathered faults clock => exact ⟨s.line, s.callers, s.shutdown⟩

theorem Sound.next (s : h.Sound) (m : Move) : (h.next m).Sound :=
  s.does (does_next s.line.worker m)

theorem Sound.after (s : h.Sound) (ms : List Move) : (h.after ms).Sound := by
  induction ms generalizing h with
  | nil => exact s
  | cons m ms ih => exact ih (s.next m)

end SharedWriter

end Resumption
