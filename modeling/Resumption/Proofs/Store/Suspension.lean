import Resumption.Store.Matching

/-!
# Suspensions

A suspension is a list of waits, each for one correlation id, and an answer goes to the first open
wait for its id (`Suspension.answerFirst_split`). So it closes one wait for that id and none for
any other, and it is the one response that the waits gain.

`Suspension.Sound z c` is what a suspension on the callback `c` is like as long as it lasts: it
asks for what `c` asked for, each answer is one to the id of its wait, and what came in so far does
not end the wait. A new suspension is sound (`sound_ofCallback`), and a wanted answer keeps it so
unless it ends the wait (`Sound.answered`).
-/

namespace Resumption

namespace Suspension

def openCount (ws : List Wait) (c : String) : Nat := ws.countP fun w => w.opens c

theorem any_opens_iff (ws : List Wait) (c : String) :
    (ws.any fun w => w.opens c) = true ↔ 0 < openCount ws c := by
  simp [openCount, List.countP_pos_iff]

/-- An answer that is wanted goes to the first open wait for its id and to no other. -/
theorem answerFirst_split {x : Response} {ws : List Wait} (h : 0 < openCount ws x.correlation) :
    ∃ pre w post, ws = pre ++ w :: post ∧ w.opens x.correlation = true ∧
      answerFirst x ws = pre ++ { w with answer := some x } :: post := by
  induction ws with
  | nil => simp [openCount] at h
  | cons v ws ih =>
    by_cases hv : v.opens x.correlation = true
    · exact ⟨[], v, ws, rfl, hv, by simp [answerFirst, hv]⟩
    · have h' : 0 < openCount ws x.correlation := by
        simpa [openCount, List.countP_cons, hv] using h
      obtain ⟨pre, w, post, he, hw, ha⟩ := ih h'
      exact ⟨v :: pre, w, post, by simp [he], hw, by simp [answerFirst, hv, ha]⟩

theorem answerFirst_append {x : Response} {ws : List Wait}
    (h : ∀ w ∈ ws, ¬ w.opens x.correlation = true) (vs : List Wait) :
    answerFirst x (ws ++ vs) = ws ++ answerFirst x vs := by
  induction ws with
  | nil => rfl
  | cons w ws ih =>
    rw [List.cons_append, answerFirst, if_neg (h w List.mem_cons_self),
      ih fun v hv => h v (List.mem_cons_of_mem _ hv), List.cons_append]

theorem answerFirst_correlations (x : Response) (ws : List Wait) :
    (answerFirst x ws).map (·.correlation) = ws.map (·.correlation) := by
  induction ws with
  | nil => rfl
  | cons v ws ih =>
    rw [answerFirst]
    split
    · rfl
    · rw [List.map_cons, List.map_cons, ih]

theorem opens_iff {w : Wait} {c : String} :
    w.opens c = true ↔ w.answer = none ∧ w.correlation = c := by
  simp [Wait.opens, Wait.isOpen]

/-- An answer closes one wait for its id and none for another. -/
theorem openCount_answerFirst {x : Response} {ws : List Wait}
    (h : 0 < openCount ws x.correlation) (c : String) :
    openCount (answerFirst x ws) c + (if x.correlation == c then 1 else 0) = openCount ws c := by
  obtain ⟨pre, w, post, rfl, hw, ha⟩ := answerFirst_split h
  obtain ⟨hn, hc⟩ := opens_iff.1 hw
  rw [ha]
  by_cases hx : x.correlation = c
  · subst hx
    simp [openCount, Wait.opens, Wait.isOpen, hn, hc]
    omega
  · have hx' : ¬ w.correlation = c := fun e => hx (hc ▸ e)
    simp [openCount, Wait.opens, Wait.isOpen, hx, hx']

/-- An answer that is wanted is kept, and no other is lost. -/
theorem count_answerFirst {x : Response} {ws : List Wait}
    (h : 0 < openCount ws x.correlation) (y : Response) :
    ((answerFirst x ws).filterMap (·.answer)).count y =
      (ws.filterMap (·.answer)).count y + [x].count y := by
  obtain ⟨pre, w, post, rfl, hw, ha⟩ := answerFirst_split h
  obtain ⟨hn, -⟩ := opens_iff.1 hw
  rw [ha]
  simp [hn, List.count_cons]
  omega

def answered (z : Suspension) (x : Response) : Suspension :=
  { z with waits := answerFirst x z.waits }

/-- The first answer to waits that are all open is the only one. -/
theorem answers_answered {z : Suspension} {x : Response} (hn : ∀ w ∈ z.waits, w.answer = none)
    (hx : 0 < openCount z.waits x.correlation) : (z.answered x).answers = [x] := by
  obtain ⟨pre, w, post, he, -, ha⟩ := answerFirst_split hx
  rw [he] at hn
  have hpre : pre.filterMap (·.answer) = [] :=
    List.filterMap_eq_nil_iff.2 fun v hv => hn v (List.mem_append_left _ hv)
  have hpost : post.filterMap (·.answer) = [] :=
    List.filterMap_eq_nil_iff.2 fun v hv =>
      hn v (List.mem_append_right _ (List.mem_cons_of_mem _ hv))
  show (answerFirst x z.waits).filterMap (·.answer) = [x]
  simp [ha, hpre, hpost]

/-! ## Sound suspensions -/

/-- Every answer is one to the id of its wait. -/
def Matched (ws : List Wait) : Prop :=
  ∀ w ∈ ws, ∀ a, w.answer = some a → a.correlation = w.correlation

theorem matched_answerFirst {x : Response} {ws : List Wait}
    (h : 0 < openCount ws x.correlation) (hm : Matched ws) : Matched (answerFirst x ws) := by
  obtain ⟨pre, w, post, rfl, hw, ha⟩ := answerFirst_split h
  obtain ⟨-, hc⟩ := opens_iff.1 hw
  rw [ha]
  intro v hv a hva
  rcases List.mem_append.1 hv with hv | hv
  · exact hm v (List.mem_append_left _ hv) a hva
  · rcases List.mem_cons.1 hv with rfl | hv
    · cases hva; exact hc.symm
    · exact hm v (List.mem_append_right _ (List.mem_cons_of_mem _ hv)) a hva

/-- The suspension asks for what the callback asked for. -/
structure Asks (z : Suspension) (c : Callback) : Prop where
  quorum : z.quorum = c.quorum
  deadline : z.deadline = c.deadline
  correlations : z.waits.map (·.correlation) = c.correlations

/-- What came in so far does not end the wait. -/
structure Unresolved (z : Suspension) : Prop where
  first : z.quorum = .first → ∀ w ∈ z.waits, w.answer = none
  all : z.quorum = .all → z.waits ≠ [] → ∃ w ∈ z.waits, w.answer = none

/-- The suspension is one on this callback, with matching answers that do not end it. -/
structure Sound (z : Suspension) (c : Callback) : Prop where
  asks : z.Asks c
  matched : Matched z.waits
  unresolved : z.Unresolved

theorem ofCallback_open (c : Callback) (n : Nat) :
    ∀ w ∈ (ofCallback c n).waits, w.answer = none := by
  intro w hw
  obtain ⟨d, -, rfl⟩ := List.mem_map.1 hw
  rfl

theorem sound_ofCallback (c : Callback) (n : Nat) : (ofCallback c n).Sound c := by
  have hn := ofCallback_open c n
  refine ⟨⟨rfl, rfl, ?_⟩, fun w hw a ha => ?_, fun _ => hn, fun _ hne => ?_⟩
  · rw [ofCallback, List.map_map]
    exact List.map_id _
  · rw [hn w hw] at ha
    cases ha
  · obtain ⟨w, hw⟩ := List.exists_mem_of_ne_nil _ hne
    exact ⟨w, hw, hn w hw⟩

theorem unresolved_of_not_resolved {z : Suspension} (h : z.resolvedByAnswer = false) :
    z.Unresolved := by
  cases hq : z.quorum with
  | first => simp [resolvedByAnswer, hq] at h
  | all =>
    simp only [resolvedByAnswer, hq, List.all_eq_false, Bool.not_eq_true', Bool.not_eq_false] at h
    obtain ⟨w, hw, ho⟩ := h
    refine ⟨fun e => ?_, fun _ _ => ⟨w, hw, by simpa [Wait.isOpen] using ho⟩⟩
    rw [hq] at e
    cases e

theorem Asks.answered {z : Suspension} {c : Callback} (h : z.Asks c) (x : Response) :
    (z.answered x).Asks c :=
  ⟨h.quorum, h.deadline, (answerFirst_correlations x z.waits).trans h.correlations⟩

/-- A wanted answer that does not end the wait leaves the suspension sound. -/
theorem Sound.answered {z : Suspension} {c : Callback} (h : z.Sound c) {x : Response}
    (hx : 0 < openCount z.waits x.correlation) (hr : (z.answered x).resolvedByAnswer = false) :
    (z.answered x).Sound c :=
  ⟨h.asks.answered x, matched_answerFirst hx h.matched, unresolved_of_not_resolved hr⟩

end Suspension

end Resumption
