import Resumption.Proofs.Store.Awakening

/-!
# Callbacks that are satisfied at once

When an instance is suspended on a callback, some of the responses that it asks for may be there
already. `Callback.satisfiedBy` says when they are enough: for the quorum `first` one to any of its
ids, for the quorum `all` one to each of them, as often as it names it.

**Result.** `Store.suspended_settles`: a suspended instance is ready at once if the unclaimed
responses satisfy its callback, with answers to it; otherwise it waits on exactly this callback, and
wants nothing of what is left unclaimed.

Nothing is lost on the way: what was unclaimed is what the instance took and what is left
(`suspended_perm`).
-/

namespace Resumption

/-- Unclaimed responses are enough to end the wait on the callback. -/
def Callback.satisfiedBy (c : Callback) (us : List Unclaimed) : Bool :=
  match c.quorum with
  | .first => us.any fun u => u.response.correlation ∈ c.correlations
  | .all =>
    c.correlations ≠ [] && c.correlations.all fun id =>
      c.correlations.count id ≤ (us.map fun u => u.response.correlation).count id

/-- What becomes of a record that is suspended while some responses are unclaimed: it is ready at
once with answers to its callback if they satisfy it, and otherwise it waits on exactly this
callback. -/
def Record.SuspendedOn (c : Callback) (payload : Json) (us : List Unclaimed) (r r' : Record) :
    Prop :=
  if c.satisfiedBy us then
    ∃ rs, c.AnsweredBy rs ∧ r' = { r with
      payload, status := .ready, delivered := r.delivered ++ rs, waitExpired := false }
  else ∃ z : Suspension, z.Sound c ∧ r' = { r with payload, status := .waiting z }

namespace Callback

variable {c : Callback} {us : List Unclaimed}

theorem satisfiedBy_first (h : c.quorum = .first) :
    c.satisfiedBy us = true ↔ ∃ u ∈ us, u.response.correlation ∈ c.correlations := by
  simp only [satisfiedBy, h, List.any_eq_true, decide_eq_true_eq]

theorem satisfiedBy_all (h : c.quorum = .all) :
    c.satisfiedBy us = true ↔ c.correlations ≠ [] ∧ ∀ id ∈ c.correlations,
      c.correlations.count id ≤ (us.map fun u => u.response.correlation).count id := by
  simp only [satisfiedBy, h, Bool.and_eq_true, decide_eq_true_eq, List.all_eq_true]

end Callback

namespace Suspension

/-- An open wait is one more for its id than those that are closed. -/
theorem closed_lt {ws : List Wait} {w : Wait} (hw : w ∈ ws) (hn : w.answer = none) :
    ((ws.filter fun v => !v.isOpen).map (·.correlation)).count w.correlation <
      (ws.map (·.correlation)).count w.correlation := by
  obtain ⟨pre, post, rfl⟩ := List.append_of_mem hw
  have fewer : ∀ vs : List Wait, ((vs.filter fun v => !v.isOpen).map (·.correlation)).count
      w.correlation ≤ (vs.map (·.correlation)).count w.correlation := fun vs =>
    (List.filter_sublist.map _).count_le _
  have := fewer pre
  have := fewer post
  rw [List.filter_append, List.filter_cons_of_neg (by simp [Wait.isOpen, hn])]
  simp only [List.map_append, List.map_cons, List.count_append, List.count_cons_self]
  omega

/-- The answers that came in are the only ones that a closed wait can have. -/
theorem answers_of_open {z : Suspension} (hn : ∀ w ∈ z.waits, w.answer = none) :
    z.answers = [] := List.filterMap_eq_nil_iff.2 hn

end Suspension

namespace Store

variable (s : Store) (c : Callback) (payload : Json) (r : Record)

/-- What was unclaimed is what the suspended record took and what is left. -/
theorem suspended_perm {g : List Response}
    (h : ∀ y, (s.suspended c payload r).1.attached.count y +
      (s.suspended c payload r).1.delivered.count y = r.delivered.count y + g.count y) :
    (s.unclaimed.map (·.response)).Perm
      (g ++ (s.suspended c payload r).2.map (·.response)) := by
  obtain ⟨as, taken, -, whole⟩ := collect_spec c.correlations
    (r.suspend payload (.ofCallback c (s.drawn + 1))) s.unclaimed
    (suspend_room r payload c (s.drawn + 1))
  refine List.perm_iff_count.2 fun y => ?_
  have new : (r.suspend payload (.ofCallback c (s.drawn + 1))).attached = [] :=
    Suspension.answers_of_open (Suspension.ofCallback_open c _)
  have kept := taken.count y
  rw [new, List.count_nil, Nat.zero_add] at kept
  have rest : (s.unclaimed.map (·.response)).count y =
      as.count y + ((s.suspended c payload r).2.map (·.response)).count y := whole y
  have now := h y
  have same : (s.suspended c payload r).1.attached.count y +
      (s.suspended c payload r).1.delivered.count y = r.delivered.count y + as.count y := kept
  rw [List.count_append, rest]
  omega

theorem suspended_ids {g : List Response}
    (h : (s.unclaimed.map (·.response)).Perm
      (g ++ (s.suspended c payload r).2.map (·.response))) (id : String) :
    (s.unclaimed.map fun u => u.response.correlation).count id =
      (g.map (·.correlation)).count id +
        ((s.suspended c payload r).2.map fun u => u.response.correlation).count id := by
  have ids := (h.map (·.correlation)).count_eq id
  rwa [List.map_append, List.count_append, List.map_map, List.map_map] at ids

variable {s c payload r}

/-- A record that waits was not satisfied by what was unclaimed. -/
theorem waiting_unsatisfied {z : Suspension}
    (hz : (s.suspended c payload r).1 = r.suspend payload z) (sound : z.Sound c) :
    c.satisfiedBy s.unclaimed = false := by
  have perm := s.suspended_perm c payload r (g := z.answers) fun y => by
    rw [hz]
    exact Nat.add_comm _ _
  -- nothing that is left is to an id with an open wait
  have sated : ∀ w ∈ z.waits, w.answer = none →
      ∀ u ∈ (s.suspended c payload r).2, u.response.correlation ≠ w.correlation := by
    intro w hw hn u hu he
    have wants : (r.suspend payload z).wants u.response.correlation = true := by
      refine Record.wants_iff.2 ⟨z, rfl, (Suspension.any_opens_iff _ _).1 ?_⟩
      exact List.any_eq_true.2 ⟨w, hw, Suspension.opens_iff.2 ⟨hn, he.symm⟩⟩
    have := s.suspended_sated c payload r u hu
    rw [hz, wants] at this
    cases this
  rw [Bool.eq_false_iff]
  intro enough
  cases hq : c.quorum with
  | first =>
    obtain ⟨u, hu, hc⟩ := (Callback.satisfiedBy_first hq).1 enough
    have still := sound.unresolved.first (sound.asks.quorum.trans hq)
    rw [Suspension.answers_of_open still, List.nil_append] at perm
    obtain ⟨v, hv, he⟩ := List.mem_map.1 (perm.subset (List.mem_map_of_mem hu))
    rw [← sound.asks.correlations] at hc
    obtain ⟨w, hw, hwc⟩ := List.mem_map.1 hc
    exact sated w hw (still w hw) v hv (by rw [he, hwc])
  | all =>
    obtain ⟨named, each⟩ := (Callback.satisfiedBy_all hq).1 enough
    rw [← sound.asks.correlations] at named each
    obtain ⟨w, hw, hn⟩ := sound.unresolved.all (sound.asks.quorum.trans hq) fun he =>
      named (by rw [he]; rfl)
    have few := Suspension.closed_lt hw hn
    rw [← Suspension.answers_correlations sound.matched] at few
    have none_left : ((s.suspended c payload r).2.map fun u => u.response.correlation).count
        w.correlation = 0 := by
      refine List.count_eq_zero.2 fun hm => ?_
      obtain ⟨u, hu, he⟩ := List.mem_map.1 hm
      exact sated w hw hn u hu he
    have := each w.correlation (List.mem_map_of_mem hw)
    rw [s.suspended_ids c payload r perm, none_left] at this
    exact absurd this (Nat.not_le_of_lt few)

/-- A record that is released was satisfied by what was unclaimed. -/
theorem released_satisfied {rs : List Response}
    (hr : (s.suspended c payload r).1 = { r with
      payload, status := .ready, delivered := r.delivered ++ rs, waitExpired := false })
    (answered : c.AnsweredBy rs) (named : c.correlations ≠ []) :
    c.satisfiedBy s.unclaimed = true := by
  have perm := s.suspended_perm c payload r (g := rs) fun y => by
    rw [hr]
    show 0 + _ = _
    rw [Nat.zero_add, List.count_append]
  cases hq : c.quorum with
  | first =>
    obtain ⟨x, rfl, hx⟩ := answered.first hq
    have hm := perm.symm.subset (List.mem_append_left _ (List.mem_singleton_self x))
    obtain ⟨u, hu, rfl⟩ := List.mem_map.1 hm
    exact (Callback.satisfiedBy_first hq).2 ⟨u, hu, hx⟩
  | all =>
    refine (Callback.satisfiedBy_all hq).2 ⟨named, fun id _ => ?_⟩
    rw [s.suspended_ids c payload r perm, answered.all hq]
    exact Nat.le_add_right _ _

/-- **Waiting or ready at once.** A suspended instance is ready if what is unclaimed satisfies its
callback, and otherwise it waits on exactly this callback. -/
theorem suspended_settles (s : Store) (c : Callback) (payload : Json) (r : Record) :
    r.SuspendedOn c payload s.unclaimed (s.suspended c payload r).1 := by
  unfold Record.SuspendedOn
  rcases s.suspended_outcome c payload r with ⟨z, hz, sound⟩ | ⟨z, x, sound, hx, ends, hr⟩
  · rw [if_neg (Bool.eq_false_iff.1 (waiting_unsatisfied hz sound))]
    exact ⟨z, sound, hz⟩
  · have answered := sound.answeredBy hx ends
    have named : c.correlations ≠ [] := by
      obtain ⟨w, hw, -⟩ := List.countP_pos_iff.1 hx
      rw [← sound.asks.correlations]
      exact List.ne_nil_of_mem (List.mem_map_of_mem hw)
    rw [if_pos (released_satisfied hr answered named)]
    exact ⟨_, answered, hr⟩

end Store

end Resumption
