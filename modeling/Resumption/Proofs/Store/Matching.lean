import Resumption.Proofs.Store.Suspension

/-!
# Records that take in answers

`Record.Takes r as r'` says that a record takes in answers one after the other, each of them wanted
when it comes. It keeps every one of them (`Record.Takes.count`), and at the end it waits as before
or the last answer has released it (`Record.Takes.outcome`).

A new suspension collects in just this way (`Store.collect_spec`): it has as many open waits for an
id as the id is still to come in the list of the callback, so an answer that it takes out of the
unclaimed responses always finds a wait. And it collects enough (`Store.collect_sated`): an id that
still has an open wait at the end has no unclaimed response.
-/

namespace Resumption

namespace Record

/-- The answers that have come in to the waits of a record. -/
def attached (r : Record) : List Response :=
  match r.status with
  | .waiting z => z.answers
  | _ => []

theorem wants_iff {r : Record} {c : String} :
    r.wants c = true ↔ ∃ z, r.status = .waiting z ∧ 0 < Suspension.openCount z.waits c := by
  unfold wants
  split
  · rename_i z hz
    simp only [hz, Status.waiting.injEq, exists_eq_left']
    exact Suspension.any_opens_iff z.waits c
  · rename_i hz
    simp only [Bool.false_eq_true, false_iff, not_exists, not_and]
    exact fun z h => absurd h (hz z)

theorem answer_waiting {r : Record} {z : Suspension} (h : r.status = .waiting z) (x : Response) :
    r.answer x =
      if (z.answered x).resolvedByAnswer then r.release false (z.answered x)
      else { r with status := .waiting (z.answered x) } := by
  simp only [answer, h]
  rfl

theorem answer_first {r : Record} {z : Suspension} (h : r.status = .waiting z)
    (hq : z.quorum = .first) (x : Response) : r.answer x = r.release false (z.answered x) := by
  have hq' : (z.answered x).quorum = .first := hq
  rw [answer_waiting h, if_pos]
  rw [Suspension.resolvedByAnswer, hq']

/-- A record that still waits after an answer waits on what is left. -/
theorem waiting_answer {r : Record} {z z' : Suspension} {x : Response} (h : r.status = .waiting z)
    (h' : (r.answer x).status = .waiting z') :
    z' = z.answered x ∧ (z.answered x).resolvedByAnswer = false := by
  rw [answer_waiting h] at h'
  split at h'
  · cases h'
  · rename_i hr
    cases h'
    exact ⟨rfl, by simpa using hr⟩

@[simp] theorem answer_id (r : Record) (x : Response) : (r.answer x).id = r.id := by
  unfold answer
  split
  · dsimp only; split <;> rfl
  · rfl

/-- A record that takes in an answer it wants keeps it, and loses none. -/
theorem count_answer {r : Record} {x : Response} (h : r.wants x.correlation = true)
    (y : Response) :
    (r.answer x).attached.count y + (r.answer x).delivered.count y =
      r.attached.count y + r.delivered.count y + [x].count y := by
  obtain ⟨z, hz, ho⟩ := wants_iff.1 h
  have hc := Suspension.count_answerFirst ho y
  rw [answer_waiting hz]
  split
  · simp only [release, attached, hz, Suspension.answers, Suspension.answered, List.count_append]
    simp only [List.count_nil]
    omega
  · simp only [attached, hz, Suspension.answers, Suspension.answered]
    omega

/-- An answer that is wanted leaves one open wait less for its id, and the others as they are. -/
theorem openCount_answer {r : Record} {z z' : Suspension} {x : Response}
    (hx : r.wants x.correlation = true) (h : r.status = .waiting z)
    (h' : (r.answer x).status = .waiting z') (c : String) :
    Suspension.openCount z'.waits c + (if x.correlation == c then 1 else 0) =
      Suspension.openCount z.waits c := by
  obtain ⟨z₁, hz₁, ho⟩ := wants_iff.1 hx
  rw [h] at hz₁
  cases hz₁
  rw [(waiting_answer h h').1]
  exact Suspension.openCount_answerFirst ho c

/-- What a record wants after an answer, it wanted before. -/
theorem wants_of_answer {r : Record} {x : Response} (hx : r.wants x.correlation = true)
    {c : String} (h : (r.answer x).wants c = true) : r.wants c = true := by
  obtain ⟨z', hz', ho'⟩ := wants_iff.1 h
  obtain ⟨z, hz, -⟩ := wants_iff.1 hx
  have := openCount_answer hx hz hz' c
  exact wants_iff.2 ⟨z, hz, by omega⟩

/-- `Takes r as r'`: the record takes in answers one after the other, each wanted when it comes. -/
inductive Takes : Record → List Response → Record → Prop where
  | nil (r : Record) : Takes r [] r
  | cons {r r' : Record} {a : Response} {as : List Response} :
      r.wants a.correlation = true → Takes (r.answer a) as r' → Takes r (a :: as) r'

theorem Takes.id {r r' : Record} {as : List Response} (h : Takes r as r') : r'.id = r.id := by
  induction h with
  | nil r => rfl
  | cons _ _ ih => rw [ih, answer_id]

theorem Takes.count {r r' : Record} {as : List Response} (h : Takes r as r') (y : Response) :
    r'.attached.count y + r'.delivered.count y =
      r.attached.count y + r.delivered.count y + as.count y := by
  induction h with
  | nil r => simp
  | cons hw _ ih =>
    have := count_answer hw y
    rw [ih, List.count_cons]
    simp only [List.count_cons, List.count_nil] at this
    omega

/-- Where answers leave a record that waits: still waiting, or released by the last of them. What
an answer keeps that does not end the wait holds until then. -/
theorem Takes.outcome {Q : Suspension → Prop}
    (step : ∀ z x, Q z → 0 < Suspension.openCount z.waits x.correlation →
      (z.answered x).resolvedByAnswer = false → Q (z.answered x))
    {r r' : Record} {as : List Response} (h : Takes r as r') {z : Suspension}
    (hz : r.status = .waiting z) (hq : Q z) :
    (∃ z', r' = { r with status := .waiting z' } ∧ Q z') ∨
      ∃ z' x, Q z' ∧ 0 < Suspension.openCount z'.waits x.correlation ∧
        (z'.answered x).resolvedByAnswer = true ∧ r' = r.release false (z'.answered x) := by
  induction h generalizing z with
  | nil r => exact Or.inl ⟨z, by rw [← hz], hq⟩
  | @cons r r' a as hw ht ih =>
    obtain ⟨z₁, hz₁, ho⟩ := wants_iff.1 hw
    rw [hz] at hz₁
    cases hz₁
    rw [answer_waiting hz] at ht ih
    split at ht
    · rename_i hres
      cases ht with
      | nil => exact Or.inr ⟨z, a, hq, ho, hres, rfl⟩
      | cons hw' _ => simp [wants, release] at hw'
    · rename_i hres
      rw [if_neg hres] at ih
      exact ih rfl (step z a hq ho (by simpa using hres))

end Record

namespace Store

theorem takeFirst_some {c : String} {us rest : List Unclaimed} {a : Response}
    (h : takeFirst c us = some (a, rest)) :
    ∃ pre u post, us = pre ++ u :: post ∧ rest = pre ++ post ∧ u.response = a ∧
      a.correlation = c ∧ ∀ v ∈ pre, v.response.correlation ≠ c := by
  induction us generalizing rest with
  | nil => cases h
  | cons u us ih =>
    rw [takeFirst] at h
    split at h
    · rename_i hu
      simp only [Option.some.injEq, Prod.mk.injEq] at h
      obtain ⟨rfl, rfl⟩ := h
      exact ⟨[], u, us, rfl, rfl, rfl, hu, by simp⟩
    · rename_i hu
      obtain ⟨⟨a', rest'⟩, ht, he⟩ := Option.map_eq_some_iff.1 h
      simp only [Prod.mk.injEq] at he
      obtain ⟨rfl, rfl⟩ := he
      obtain ⟨pre, v, post, rfl, rfl, hv, hc, hp⟩ := ih ht
      refine ⟨u :: pre, v, post, rfl, rfl, hv, hc, ?_⟩
      intro w hw
      rcases List.mem_cons.1 hw with rfl | hw
      · exact hu
      · exact hp w hw

theorem takeFirst_none {c : String} {us : List Unclaimed} (h : takeFirst c us = none) :
    ∀ u ∈ us, u.response.correlation ≠ c := by
  induction us with
  | nil => simp
  | cons u us ih =>
    rw [takeFirst] at h
    split at h
    · cases h
    · rename_i hu
      intro w hw
      rcases List.mem_cons.1 hw with rfl | hw
      · exact hu
      · exact ih (Option.map_eq_none_iff.1 h) w hw

theorem collect_done {r : Record} (h : ∀ z, r.status ≠ .waiting z) (us : List Unclaimed)
    (cs : List String) : collect r us cs = (r, us) := by
  cases cs with
  | nil => rfl
  | cons c cs =>
    rw [collect]
    split
    · rename_i z hz; exact absurd hz (h z)
    · rfl

theorem collect_cons_none {r : Record} {z : Suspension} (hz : r.status = .waiting z)
    {us : List Unclaimed} {c : String} {cs : List String} (h : takeFirst c us = none) :
    collect r us (c :: cs) = collect r us cs := by
  rw [collect]; simp only [hz, h]

theorem collect_cons_some {r : Record} {z : Suspension} (hz : r.status = .waiting z)
    {us rest : List Unclaimed} {c : String} {cs : List String} {a : Response}
    (h : takeFirst c us = some (a, rest)) :
    collect r us (c :: cs) = collect (r.answer a) rest cs := by
  rw [collect]; simp only [hz, h]

/-- What `collect` needs: a record that waits has at least as many open waits for an id as the id
is still to come. -/
def Room (r : Record) (cs : List String) : Prop :=
  ∀ z, r.status = .waiting z → ∀ c, cs.count c ≤ Suspension.openCount z.waits c

theorem Room.tail {r : Record} {c : String} {cs : List String} (h : Room r (c :: cs)) :
    Room r cs := by
  intro z hz d
  have := h z hz d
  rw [List.count_cons] at this
  omega

theorem Room.wants {r : Record} {z : Suspension} {c : String} {cs : List String}
    (h : Room r (c :: cs)) (hz : r.status = .waiting z) : r.wants c = true := by
  have := h z hz c
  rw [List.count_cons_self] at this
  exact Record.wants_iff.2 ⟨z, hz, by omega⟩

theorem Room.answer {r : Record} {z : Suspension} {a : Response} {cs : List String}
    (h : Room r (a.correlation :: cs)) (hz : r.status = .waiting z) : Room (r.answer a) cs := by
  intro z' hz' d
  have hd := h z hz d
  have ho := Record.openCount_answer (h.wants hz) hz hz' d
  rw [List.count_cons] at hd
  omega

/-- What a record collects it takes in, and the rest stays in order. -/
theorem collect_spec (cs : List String) :
    ∀ (r : Record) (us : List Unclaimed), Room r cs →
      ∃ as, Record.Takes r as (collect r us cs).1 ∧ (collect r us cs).2.Sublist us ∧
        ∀ y, (us.map (·.response)).count y =
          as.count y + ((collect r us cs).2.map (·.response)).count y := by
  induction cs with
  | nil => intro r us _; exact ⟨[], .nil r, List.Sublist.refl us, by simp [collect]⟩
  | cons c cs ih =>
    intro r us hroom
    by_cases hw : ∃ z, r.status = .waiting z
    · obtain ⟨z, hz⟩ := hw
      cases ht : takeFirst c us with
      | none => rw [collect_cons_none hz ht]; exact ih r us hroom.tail
      | some p =>
        obtain ⟨a, rest⟩ := p
        rw [collect_cons_some hz ht]
        obtain ⟨pre, u, post, rfl, rfl, hu, rfl, -⟩ := takeFirst_some ht
        obtain ⟨as, h1, h2, h3⟩ := ih (r.answer a) (pre ++ post) (hroom.answer hz)
        refine ⟨a :: as, .cons (hroom.wants hz) h1, h2.trans (by simp), ?_⟩
        intro y
        have := h3 y
        simp only [List.map_append, List.map_cons, List.count_append, List.count_cons, hu] at this ⊢
        omega
    · rw [collect_done (fun z hz => hw ⟨z, hz⟩)]
      exact ⟨[], .nil r, List.Sublist.refl us, by simp⟩

/-- A record that has collected wants nothing of what is left, provided that at the start nothing
was there for the waits beyond those that `cs` is about. -/
theorem collect_sated (cs : List String) :
    ∀ (r : Record) (us : List Unclaimed), Room r cs →
      (∀ z, r.status = .waiting z → ∀ c, cs.count c < Suspension.openCount z.waits c →
        ∀ u ∈ us, u.response.correlation ≠ c) →
      ∀ u ∈ (collect r us cs).2, (collect r us cs).1.wants u.response.correlation = false := by
  induction cs with
  | nil =>
    intro r us _ hs u hu
    rw [Bool.eq_false_iff]
    intro hw
    obtain ⟨z, hz, ho⟩ := Record.wants_iff.1 hw
    exact hs z hz _ (by simpa using ho) u hu rfl
  | cons c cs ih =>
    -- An id that is passed without an answer has no response left, whatever is taken later.
    intro r us hroom hs
    by_cases hw : ∃ z, r.status = .waiting z
    · obtain ⟨z, hz⟩ := hw
      cases ht : takeFirst c us with
      | none =>
        rw [collect_cons_none hz ht]
        refine ih r us hroom.tail ?_
        intro z' hz' d hd u hu
        by_cases hdc : d = c
        · subst hdc; exact takeFirst_none ht u hu
        · refine hs z' hz' d ?_ u hu
          have : (c == d) = false := by simpa using fun e => hdc e.symm
          simpa [List.count_cons, this] using hd
      | some p =>
        obtain ⟨a, rest⟩ := p
        rw [collect_cons_some hz ht]
        obtain ⟨pre, u, post, rfl, rfl, hu, rfl, -⟩ := takeFirst_some ht
        refine ih (r.answer a) (pre ++ post) (hroom.answer hz) ?_
        intro z' hz' d hd v hv
        have hv' : v ∈ pre ++ u :: post := by
          rcases List.mem_append.1 hv with hv | hv
          · exact List.mem_append_left _ hv
          · exact List.mem_append_right _ (List.mem_cons_of_mem _ hv)
        refine hs z hz d ?_ v hv'
        have := Record.openCount_answer (hroom.wants hz) hz hz' d
        rw [List.count_cons]
        omega
    · rw [collect_done (fun z hz => hw ⟨z, hz⟩)]
      intro u _
      rw [Bool.eq_false_iff]
      intro hwant
      obtain ⟨z, hz, -⟩ := Record.wants_iff.1 hwant
      exact hw ⟨z, hz⟩

end Store

end Resumption
