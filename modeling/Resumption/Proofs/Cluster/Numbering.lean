import Mathlib.Data.List.Nodup
import Resumption.Cluster.Basic

/-!
# The numbers of requests

Requests get ascending numbers, so a number tells a request apart (`Cluster.Numbered`). When a
request goes on or is answered, the others stay as they are (`Numbered.split`).
-/

namespace Resumption

namespace Cluster

/-- Each request has its own number, and the numbers to come are new. -/
structure Numbered (c : Cluster) : Prop where
  begun : ∀ r ∈ c.requests, r.serial < c.issued
  once : (c.requests.map (·.serial)).Nodup

variable {c c' : Cluster} {r q : Request}

theorem request?_some {serial : Nat} (h : c.request? serial = some r) :
    r ∈ c.requests ∧ r.serial = serial :=
  ⟨List.mem_of_find?_eq_some h, by simpa using List.find?_some h⟩

/-- A request that goes on, and is not given up, can go on with its task. -/
theorem taskReady_of_ready {serial : Nat} {e : Engine} (ready : c.ready (.request serial) = true)
    (found : c.request? serial = some r) (there : c.engines[r.engine]? = some e)
    (kept : ¬ (c.isLate r && !c.taskReady c.site.unlocked e r.task) = true) :
    c.taskReady c.site.unlocked e r.task = true := by
  simp only [Cluster.ready, readyWhen, found, Option.any_some, requestReady, there,
    Option.map_some, Option.getD_some, Bool.or_eq_true] at ready
  rcases ready with on | late
  · exact on
  · simpa [late] using kept

theorem Numbered.eq (h : c.Numbered) (hr : r ∈ c.requests) (hq : q ∈ c.requests)
    (hs : q.serial = r.serial) : q = r := List.inj_on_of_nodup_map h.once hq hr hs

/-- The requests before and after one of them. When it goes on with a task or is over, the others stay
as they are. -/
theorem Numbered.split (h : c.Numbered) (hr : r ∈ c.requests) (t : Task) :
    ∃ l₁ l₂, c.requests = l₁ ++ r :: l₂ ∧
      (c.requests.map fun q => if q.serial = r.serial then { q with task := t } else q) =
        l₁ ++ { r with task := t } :: l₂ ∧
      (c.requests.filter fun q => q.serial ≠ r.serial) = l₁ ++ l₂ := by
  obtain ⟨l₁, l₂, hl⟩ := List.append_of_mem hr
  -- no other request has this number
  have hne : ∀ q, q ∈ l₁ ∨ q ∈ l₂ → q.serial ≠ r.serial := by
    have honce := h.once
    rw [hl, List.map_append, List.map_cons, List.nodup_middle, List.nodup_cons] at honce
    intro q hq hs
    refine honce.1 (hs ▸ ?_)
    rw [← List.map_append]
    exact List.mem_map_of_mem (List.mem_append.2 hq)
  have stay : ∀ l : List Request, (∀ q ∈ l, q.serial ≠ r.serial) →
      (l.map fun q => if q.serial = r.serial then { q with task := t } else q) = l ∧
        (l.filter fun q => q.serial ≠ r.serial) = l := fun l hl =>
    ⟨(List.map_congr_left fun q hq => if_neg (hl q hq)).trans (List.map_id _),
      List.filter_eq_self.2 fun q hq => decide_eq_true (hl q hq)⟩
  obtain ⟨hm₁, hf₁⟩ := stay l₁ fun q hq => hne q (.inl hq)
  obtain ⟨hm₂, hf₂⟩ := stay l₂ fun q hq => hne q (.inr hq)
  refine ⟨l₁, l₂, hl, ?_, ?_⟩
  · rw [hl, List.map_append, List.map_cons, hm₁, hm₂, if_pos rfl]
  · rw [hl, List.filter_append, hf₁, List.filter_cons_of_neg (by simp), hf₂]

theorem Numbered.mem_going (h : c.Numbered) (hr : r ∈ c.requests) {t : Task}
    (hq : q ∈ c.requests.map fun q => if q.serial = r.serial then { q with task := t } else q) :
    q = { r with task := t } ∨ q ∈ c.requests ∧ q.serial ≠ r.serial := by
  obtain ⟨p, hp, rfl⟩ := List.mem_map.1 hq
  by_cases hs : p.serial = r.serial
  · rw [if_pos hs, h.eq hr hp hs]
    exact .inl rfl
  · rw [if_neg hs]
    exact .inr ⟨hp, hs⟩

theorem Numbered.sub (h : c.Numbered) (hi : c'.issued = c.issued)
    (hr : c'.requests.Sublist c.requests) : c'.Numbered :=
  ⟨fun r hm => hi ▸ h.begun r (hr.subset hm), (hr.map _).nodup h.once⟩

theorem Numbered.going (h : c.Numbered) (hr : r ∈ c.requests) {t : Task} (hi : c'.issued = c.issued)
    (hq : c'.requests =
      c.requests.map fun q => if q.serial = r.serial then { q with task := t } else q) :
    c'.Numbered := by
  refine ⟨fun q hm => ?_, ?_⟩
  · rw [hi]
    rcases h.mem_going hr (hq ▸ hm) with rfl | ⟨hm, -⟩
    · exact h.begun r hr
    · exact h.begun q hm
  · have hs : c'.requests.map (·.serial) = c.requests.map (·.serial) := by
      rw [hq, List.map_map]
      exact List.map_congr_left fun q _ => by dsimp only [Function.comp]; split <;> rfl
    exact hs ▸ h.once

theorem Numbered.request (h : c.Numbered) (place : Nat) (d : Demand) (patience : Option Nat) :
    (c.request place d patience).2.Numbered := by
  refine ⟨fun r hr => ?_, ?_⟩
  · rcases List.mem_append.1 hr with hr | hr
    · exact Nat.lt_succ_of_lt (h.begun r hr)
    · cases List.mem_singleton.1 hr
      exact Nat.lt_succ_self _
  · simp only [Cluster.request, List.map_append, List.map_cons, List.map_nil]
    refine List.nodup_append.2 ⟨h.once, List.nodup_singleton _, fun n hn m hm hnm => ?_⟩
    obtain ⟨r, hr, rfl⟩ := List.mem_map.1 hn
    rw [List.mem_singleton.1 hm] at hnm
    exact Nat.ne_of_lt (h.begun r hr) hnm

end Cluster

end Resumption
