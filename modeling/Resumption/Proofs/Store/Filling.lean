import Resumption.Proofs.Store.Change

/-!
# Waits for all of several ids

When the ids of a callback are distinct and all of them are to be answered, the order in which the
matching is done leaves no trace: a new suspension ends up with the earliest unclaimed response to
each of its ids (`Store.suspended_all`), and these are what it takes out of the unclaimed ones.

`filled cs rs` are the waits for the ids `cs` after the responses `rs`, `Store.strip us cs` is what
is left of the unclaimed responses, and `Record.settle` releases a record when all its waits are
closed. A further response at the end of the list is one more answer to the waits
(`filled_append_new`), or it stays unclaimed (`filled_append_old`).
-/

namespace Resumption

/-- The first response to an id. -/
def firstTo (c : String) (rs : List Response) : Option Response :=
  rs.find? fun x => x.correlation == c

/-- The waits for some ids, each answered by the first response to it. -/
def filled (cs : List String) (rs : List Response) : List Wait := cs.map fun c => ⟨c, firstTo c rs⟩

/-! ## First responses -/

theorem firstTo_correlation {c : String} {rs : List Response} {a : Response}
    (h : firstTo c rs = some a) : a.correlation = c := by
  simpa using List.find?_some h

theorem firstTo_none {c : String} {rs : List Response} :
    firstTo c rs = none ↔ ∀ x ∈ rs, x.correlation ≠ c := by
  simp [firstTo, List.find?_eq_none]

theorem firstTo_append (c : String) (rs : List Response) (x : Response) :
    firstTo c (rs ++ [x]) = (firstTo c rs).or (if x.correlation = c then some x else none) := by
  unfold firstTo
  rw [List.find?_append]
  by_cases h : x.correlation = c <;> simp [h]

theorem firstTo_filter (c : String) (rs : List Response) :
    firstTo c rs = (rs.filter fun x => x.correlation == c).head? := (List.head?_filter ..).symm

section
variable {cs : List String} {rs : List Response} {x : Response}

/-- A response to none of the ids, or to one that is answered already, changes nothing. -/
theorem filled_append_old (h : x.correlation ∈ cs → firstTo x.correlation rs ≠ none) :
    filled cs (rs ++ [x]) = filled cs rs := by
  refine List.map_congr_left fun c hc => ?_
  rw [firstTo_append]
  by_cases he : x.correlation = c
  · subst he
    obtain ⟨a, ha⟩ := Option.ne_none_iff_exists'.1 (h hc)
    rw [ha, Option.some_or]
  · rw [if_neg he, Option.or_none]

/-- The first response to one of the ids answers the wait for it. -/
theorem filled_append_new (hn : cs.Nodup) (hc : x.correlation ∈ cs)
    (h : firstTo x.correlation rs = none) :
    filled cs (rs ++ [x]) = Suspension.answerFirst x (filled cs rs) := by
  induction cs with
  | nil => cases hc
  | cons c cs ih =>
    rw [List.nodup_cons] at hn
    show ⟨c, firstTo c (rs ++ [x])⟩ :: filled cs (rs ++ [x]) =
      Suspension.answerFirst x (⟨c, firstTo c rs⟩ :: filled cs rs)
    rw [Suspension.answerFirst, firstTo_append]
    by_cases he : x.correlation = c
    · subst he
      rw [if_pos (Suspension.opens_iff.2 ⟨h, rfl⟩), h, if_pos rfl, Option.none_or,
        filled_append_old fun hc' => absurd hc' hn.1]
    · have hc' : x.correlation ∈ cs := (List.mem_cons.1 hc).resolve_left he
      have ho : ¬ Wait.opens ⟨c, firstTo c rs⟩ x.correlation = true := fun ho =>
        he (Suspension.opens_iff.1 ho).2.symm
      rw [if_neg ho, if_neg he, Option.or_none, ih hn.2 hc']

/-- A wait for an id is open as long as no response to it came in. -/
theorem openCount_filled (c : String) :
    0 < Suspension.openCount (filled cs rs) c ↔ c ∈ cs ∧ firstTo c rs = none := by
  unfold Suspension.openCount filled
  rw [List.countP_pos_iff]
  constructor
  · rintro ⟨w, hw, ho⟩
    obtain ⟨d, hd, rfl⟩ := List.mem_map.1 hw
    obtain ⟨hf, rfl⟩ := Suspension.opens_iff.1 ho
    exact ⟨hd, hf⟩
  · rintro ⟨hd, hf⟩
    exact ⟨_, List.mem_map_of_mem hd, Suspension.opens_iff.2 ⟨hf, rfl⟩⟩

/-- No wait is open when there is a response to each id. -/
theorem filled_closed :
    (∀ w ∈ filled cs rs, w.isOpen = false) ↔ ∀ c ∈ cs, ∃ x ∈ rs, x.correlation = c := by
  have hw : ∀ c, (Wait.isOpen ⟨c, firstTo c rs⟩ = false) ↔ ∃ x ∈ rs, x.correlation = c := by
    intro c
    rw [Wait.isOpen, Option.isNone_eq_false_iff, Option.isSome_iff_ne_none, ne_eq, firstTo_none]
    simp only [ne_eq, not_forall, not_not, exists_prop]
  unfold filled
  rw [List.forall_mem_map]
  exact forall₂_congr fun c _ => hw c

end

/-! ## Settling -/

namespace Record

/-- Releases the record when no wait is open any more, and else lets it wait. -/
def settle (r : Record) (z : Suspension) : Record :=
  if z.waits ≠ [] ∧ ∀ w ∈ z.waits, w.isOpen = false then r.release false z
  else { r with status := .waiting z }

theorem settle_open (r : Record) {z : Suspension} {c : String}
    (h : 0 < Suspension.openCount z.waits c) : r.settle z = { r with status := .waiting z } := by
  obtain ⟨w, hw, ho⟩ := List.countP_pos_iff.1 h
  have hopen : w.isOpen = true := (Bool.and_eq_true_iff.1 ho).1
  refine if_neg fun hall => ?_
  rw [hall.2 w hw] at hopen
  cases hopen

theorem settle_wants (r : Record) (z : Suspension) (c : String) :
    (r.settle z).wants c = true ↔ 0 < Suspension.openCount z.waits c := by
  constructor
  · intro h
    unfold settle at h
    split at h
    · cases h
    · exact (Suspension.any_opens_iff _ _).1 h
  · intro h
    rw [settle_open r h]
    exact wants_iff.2 ⟨z, rfl, h⟩

theorem settle_ready {r : Record} {z : Suspension} :
    (r.settle z).stage = .ready ↔ z.waits ≠ [] ∧ ∀ w ∈ z.waits, w.isOpen = false := by
  constructor
  · intro h
    unfold settle at h
    split at h
    · rename_i hall; exact hall
    · cases h
  · intro h
    rw [settle, if_pos h]
    rfl

theorem settle_delivered {r : Record} {z : Suspension} (h : (r.settle z).stage = .ready) :
    (r.settle z).delivered = r.delivered ++ z.answers := by
  rw [settle, if_pos (settle_ready.1 h)]
  rfl

/-- An answer that is wanted by a wait for all settles it again. -/
theorem settle_answer (r : Record) {z : Suspension} {x : Response} (hq : z.quorum = .all)
    (hx : 0 < Suspension.openCount z.waits x.correlation) :
    (r.settle z).answer x = r.settle (z.answered x) := by
  obtain ⟨pre, w, post, he, -, ha⟩ := Suspension.answerFirst_split hx
  have hne : (z.answered x).waits ≠ [] := by
    show Suspension.answerFirst x z.waits ≠ []
    rw [ha]
    simp
  have hres : (z.answered x).resolvedByAnswer = true ↔
      (z.answered x).waits ≠ [] ∧ ∀ v ∈ (z.answered x).waits, v.isOpen = false := by
    have hq' : (z.answered x).quorum = .all := hq
    simp [Suspension.resolvedByAnswer, hq', hne]
  rw [settle_open r hx, answer_waiting rfl]
  unfold settle
  by_cases hr : (z.answered x).resolvedByAnswer = true
  · rw [if_pos hr, if_pos (hres.1 hr)]
    rfl
  · rw [if_neg hr, if_neg fun h => hr (hres.2 h)]

end Record

/-! ## Collecting -/

/-- The response is one to this id. -/
def Unclaimed.isTo (c : String) (u : Unclaimed) : Bool := u.response.correlation == c

theorem Unclaimed.isTo_iff {c : String} {u : Unclaimed} :
    u.isTo c = true ↔ u.response.correlation = c := beq_iff_eq

namespace Store

/-- What is left of unclaimed responses when the first to each id is taken. -/
def strip (us : List Unclaimed) (cs : List String) : List Unclaimed :=
  cs.foldl (fun us c => us.eraseP (Unclaimed.isTo c)) us

theorem takeFirst_eq (c : String) (us : List Unclaimed) :
    takeFirst c us =
      (firstTo c (us.map (·.response))).map fun a => (a, us.eraseP (Unclaimed.isTo c)) := by
  induction us with
  | nil => rfl
  | cons u us ih =>
    rw [takeFirst]
    by_cases h : u.response.correlation = c
    · rw [if_pos h, List.eraseP_cons_of_pos (Unclaimed.isTo_iff.2 h)]
      simp [firstTo, h]
    · rw [if_neg h, ih, Option.map_map, List.eraseP_cons_of_neg fun e => h (Unclaimed.isTo_iff.1 e)]
      simp only [firstTo, List.map_cons, List.find?_cons, beq_false_of_ne h]
      rfl

/-- Taking a response to one id leaves the first responses to the others. -/
theorem firstTo_eraseP {c d : String} (h : d ≠ c) (us : List Unclaimed) :
    firstTo d ((us.eraseP (Unclaimed.isTo c)).map (·.response)) =
      firstTo d (us.map (·.response)) := by
  induction us with
  | nil => rfl
  | cons u us ih =>
    by_cases hu : u.response.correlation = c
    · have hd : ¬ c = d := fun e => h e.symm
      rw [List.eraseP_cons_of_pos (Unclaimed.isTo_iff.2 hu)]
      simp [firstTo, hu, hd]
    · rw [List.eraseP_cons_of_neg fun e => hu (Unclaimed.isTo_iff.1 e)]
      unfold firstTo at ih ⊢
      rw [List.map_cons, List.map_cons, List.find?_cons, List.find?_cons, ih]

theorem firstTo_unclaimed {c : String} {us : List Unclaimed} :
    firstTo c (us.map (·.response)) = none ↔ ∀ u ∈ us, ¬ u.isTo c = true := by
  simp [firstTo_none, Unclaimed.isTo_iff]

/-- A response at the end of a list is taken when it is the first to the id, and else stays. -/
theorem eraseP_append (c : String) (us : List Unclaimed) (u : Unclaimed) :
    (us ++ [u]).eraseP (Unclaimed.isTo c) =
      if u.response.correlation = c ∧ firstTo c (us.map (·.response)) = none then us
      else us.eraseP (Unclaimed.isTo c) ++ [u] := by
  cases hf : firstTo c (us.map (·.response)) with
  | none =>
    have hno := firstTo_unclaimed.1 hf
    rw [List.eraseP_append_right _ hno, List.eraseP_of_forall_not hno]
    by_cases hu : u.response.correlation = c
    · rw [if_pos ⟨hu, rfl⟩, List.eraseP_cons_of_pos (Unclaimed.isTo_iff.2 hu), List.append_nil]
    · rw [if_neg fun h => hu h.1, List.eraseP_cons_of_neg fun e => hu (Unclaimed.isTo_iff.1 e)]
      rfl
  | some a =>
    obtain ⟨v, hv, rfl⟩ := List.mem_map.1 (List.mem_of_find?_eq_some hf)
    have hp : v.isTo c = true := Unclaimed.isTo_iff.2 (firstTo_correlation hf)
    rw [List.eraseP_append_left hp _ hv, if_neg (by simp)]

/-- A response at the end is taken when it is the first to one of the ids, and else stays. -/
theorem strip_append (u : Unclaimed) (cs : List String) :
    ∀ us, cs.Nodup → strip (us ++ [u]) cs =
      if u.response.correlation ∈ cs ∧ firstTo u.response.correlation (us.map (·.response)) = none
      then strip us cs else strip us cs ++ [u] := by
  induction cs with
  | nil => intro us _; simp [strip]
  | cons c cs ih =>
    intro us hn
    rw [List.nodup_cons] at hn
    show strip ((us ++ [u]).eraseP (Unclaimed.isTo c)) cs = _
    rw [eraseP_append]
    by_cases hc : u.response.correlation = c
    · subst hc
      by_cases hf : firstTo u.response.correlation (us.map (·.response)) = none
      · rw [if_pos ⟨rfl, hf⟩, if_pos ⟨List.mem_cons_self, hf⟩, strip, strip, List.foldl_cons,
          List.eraseP_of_forall_not (firstTo_unclaimed.1 hf)]
      · rw [if_neg fun h => hf h.2, if_neg fun h => hf h.2, ih _ hn.2, if_neg fun h => hn.1 h.1]
        rfl
    · rw [if_neg fun h => hc h.1, ih _ hn.2, firstTo_eraseP hc]
      simp only [List.mem_cons, hc, false_or]
      rfl

/-- A wait for all of distinct ids collects the first unclaimed response to each. -/
theorem collect_settle (r : Record) (cs : List String) :
    ∀ (z : Suspension) (pre : List Wait) (us : List Unclaimed), z.quorum = .all →
      z.waits = pre ++ filled cs [] → (∀ w ∈ pre, w.correlation ∉ cs) → cs.Nodup →
      collect (r.settle z) us cs =
        (r.settle { z with waits := pre ++ filled cs (us.map (·.response)) }, strip us cs) := by
  induction cs with
  | nil =>
    intro z pre us _ hz _ _
    rw [← show z.waits = pre ++ filled [] (us.map (·.response)) from hz]
    rfl
  | cons c cs ih =>
    -- `pre` are the waits for the ids already passed; none of them is for an id still to come.
    intro z pre us hq hz hpre hn
    rw [List.nodup_cons] at hn
    have hz' : z.waits = pre ++ ⟨c, none⟩ :: filled cs [] := hz
    have hopen : 0 < Suspension.openCount z.waits c := by
      rw [hz']
      refine List.countP_pos_iff.2 ⟨⟨c, none⟩, by simp, Suspension.opens_iff.2 ⟨rfl, rfl⟩⟩
    have hst : (r.settle z).status = .waiting z := by rw [Record.settle_open r hopen]
    have hpre' : ∀ a, ∀ w ∈ pre ++ [(⟨c, a⟩ : Wait)], w.correlation ∉ cs := by
      intro a w hw
      rcases List.mem_append.1 hw with hw | hw
      · exact fun h => hpre w hw (List.mem_cons_of_mem _ h)
      · rw [List.mem_singleton.1 hw]; exact hn.1
    have hsplit : ∀ a : Option Response, ∀ ws : List Wait,
        pre ++ ⟨c, a⟩ :: ws = (pre ++ [⟨c, a⟩]) ++ ws := fun a ws => by simp
    have htake := takeFirst_eq c us
    cases hf : firstTo c (us.map (·.response)) with
    | none =>
      rw [hf, Option.map_none] at htake
      rw [collect_cons_none hst htake,
        ih z (pre ++ [⟨c, none⟩]) us hq (by rw [hz', hsplit]) (hpre' none) hn.2, ← hsplit, ← hf,
        strip, strip, List.foldl_cons, List.eraseP_of_forall_not (firstTo_unclaimed.1 hf)]
      rfl
    | some a =>
      rw [hf, Option.map_some] at htake
      have ha := firstTo_correlation hf
      subst ha
      have hnot : ∀ w ∈ pre, ¬ w.opens a.correlation = true := fun w hw ho =>
        hpre w hw (by rw [(Suspension.opens_iff.1 ho).2]; exact List.mem_cons_self)
      have hz'' : (z.answered a).waits = (pre ++ [⟨a.correlation, some a⟩]) ++ filled cs [] := by
        show Suspension.answerFirst a z.waits = _
        rw [hz', Suspension.answerFirst_append hnot, Suspension.answerFirst,
          if_pos (Suspension.opens_iff.2 ⟨rfl, rfl⟩), hsplit]
      have hrest : filled cs ((us.eraseP (Unclaimed.isTo a.correlation)).map (·.response)) =
          filled cs (us.map (·.response)) := by
        refine List.map_congr_left fun d hd => ?_
        rw [firstTo_eraseP fun e : d = a.correlation => hn.1 (e ▸ hd)]
      rw [collect_cons_some hst htake, Record.settle_answer r hq hopen,
        ih (z.answered a) _ _ hq hz'' (hpre' (some a)) hn.2, hrest, ← hsplit, ← hf]
      rfl

/-- What a wait for all of distinct ids makes of a record. -/
def fulfilled (s : Store) (c : Callback) (payload : Json) (r : Record) : Record :=
  { r with payload }.settle ⟨c.quorum, c.deadline, s.drawn + 1, filled c.correlations s.pending⟩

/-- A callback on all of distinct ids takes the first unclaimed response to each. -/
theorem suspended_all {c : Callback} (hq : c.quorum = .all) (hn : c.correlations.Nodup)
    (s : Store) (payload : Json) (r : Record) :
    s.suspended c payload r = (s.fulfilled c payload r, strip s.unclaimed c.correlations) := by
  have hz : (Suspension.ofCallback c (s.drawn + 1)).waits = [] ++ filled c.correlations [] := rfl
  have hr : r.suspend payload (.ofCallback c (s.drawn + 1)) =
      { r with payload }.settle (.ofCallback c (s.drawn + 1)) := by
    refine (if_neg fun h => ?_).symm
    obtain ⟨w, hw⟩ := List.exists_mem_of_ne_nil _ h.1
    have ho := h.2 w hw
    rw [Wait.isOpen, Suspension.ofCallback_open c _ w hw] at ho
    cases ho
  rw [suspended, hr, collect_settle _ _ _ [] s.unclaimed hq hz (by simp) hn]
  rfl

end Store

end Resumption
