import Resumption.Proofs.Store.Change

/-!
# Sequence numbers

One count numbers both the instances of a store and their suspensions. A record draws its own number
when it is stored, and one more with each suspension, which it has for as long as it waits
(`Record.draws`).

No number is drawn twice: it belongs to one record, as the number of the instance or of its
suspension, and is at most the count (`Store.Numbered`). Every action keeps it so
(`Store.act_numbered`), because what an action does to a record leaves its numbers alone, takes the
one of its suspension away, or replaces it by the next of the count (`Change.draws`).
-/

namespace Resumption

/-- The instance that an action draws a number for. -/
def Action.drawsFor? : Action → Option Uuid
  | .insert w => w.id
  | .suspend c _ => some c.instanceId
  | _ => none

/-- The numbers that a record holds: its own, and that of its suspension. -/
def Record.draws (r : Record) : List Nat := r.number :: (r.suspension?.map (·.number)).toList

namespace Record

theorem draws_waiting {r : Record} {z : Suspension} (h : r.status = .waiting z) :
    r.draws = [r.number, z.number] := by
  rw [draws, suspension?, h]
  rfl

theorem draws_idle {r : Record} (h : ∀ z, r.status ≠ .waiting z) : r.draws = [r.number] := by
  rw [draws, suspension?]
  split
  · rename_i z hz
    exact absurd hz (h z)
  · rfl

end Record

namespace Store

/-- Every number belongs to one record, in one of its roles, and has been drawn. -/
structure Numbered (s : Store) : Prop where
  ids : s.Unique
  own : ∀ r ∈ s.records, r.draws.Nodup
  apart : ∀ r ∈ s.records, ∀ t ∈ s.records, ∀ n ∈ r.draws, n ∈ t.draws → r = t
  drawn : ∀ r ∈ s.records, ∀ n ∈ r.draws, 0 < n ∧ n ≤ s.drawn

theorem numbered_empty : Numbered .empty where
  ids := unique_empty
  own _ h := nomatch h
  apart _ h := nomatch h
  drawn _ h := nomatch h

theorem Numbered.nodup {s : Store} (h : s.Numbered) : (s.records.flatMap Record.draws).Nodup := by
  refine List.nodup_flatMap.2 ⟨h.own, ?_⟩
  refine (List.Nodup.of_map _ h.ids).pairwise_of_forall_ne fun r hr t ht hne => ?_
  exact fun n hn hm => hne (h.apart r hr t ht n hn hm)

variable {s : Store} {a : Action} {r r' : Record}

theorem draws_answer {x : Response} (hw : r.wants x.correlation = true) :
    (r.answer x).draws = r.draws ∨ (r.answer x).draws = [r.number] := by
  obtain ⟨z, hz, -⟩ := Record.wants_iff.1 hw
  rw [Record.answer_waiting hz]
  split
  · exact .inr rfl
  · exact .inl (by rw [Record.draws_waiting hz]; rfl)

theorem Change.draws (h : s.Change a r r') :
    r'.draws = r.draws ∨ r'.draws = [r.number] ∨
      ∃ c payload, a = .suspend c payload ∧ r.id = c.instanceId ∧
        r'.draws = [r.number, s.drawn + 1] := by
  cases h with
  | same _ => exact .inl rfl
  | deliver hw => exact (draws_answer hw).imp_right .inl
  | @suspend c payload r hid =>
    obtain ⟨as, ht, -⟩ := collect_spec c.correlations _ s.unclaimed
      (suspend_room r payload c (s.drawn + 1))
    -- The suspension keeps the number it was given for as long as it lasts.
    rcases ht.outcome (Q := fun z => z.number = s.drawn + 1) (fun z x hz _ _ => hz) rfl rfl with
      ⟨z, he, hz⟩ | ⟨z, x, -, -, -, he⟩
    · refine .inr (.inr ⟨c, payload, rfl, hid, ?_⟩)
      rw [suspended, he, ← hz]
      rfl
    · refine .inr (.inl ?_)
      rw [suspended, he]
      rfl
  | promote _ =>
    refine .inr (.inl ?_)
    unfold Record.promote
    split <;> rfl
  | _ => exact .inr (.inl rfl)

theorem modify_drawn (s : Store) (id : Uuid) (f : Record → Record) :
    (s.modify id f).2.drawn = s.drawn := by
  rw [modify_store]
  rfl

theorem suspend_drawn (s : Store) (c : Callback) (payload : Json) :
    (s.suspend c payload).2.drawn = s.drawn + 1 := by
  cases hf : s.find? c.instanceId with
  | none => rw [suspend_absent hf]
  | some r => rw [suspend_present hf]

theorem insert_fresh {w : Workflow} {id : Uuid} (hid : w.id = some id) (hf : s.find? id = none) :
    (s.insert [w]).2 = s.append id w := by
  simp only [insert, hid, hf]

theorem act_drawn (s : Store) (a : Action) : s.drawn ≤ (s.act a).2.drawn := by
  cases a with
  | insert w =>
    rcases insert_one s w with hi | ⟨id, -, -, hi⟩
    · exact Nat.le_of_eq (by rw [act, plainly, hi])
    · rw [act, plainly, hi]
      exact Nat.le_succ _
  | deliver x =>
    simp only [act, Store.deliver]
    split <;> exact Nat.le_refl _
  | suspend c payload =>
    rw [act, plainly, suspend_drawn]
    exact Nat.le_succ _
  | finish remove id =>
    simp only [act, plainly, Store.finish]
    split
    · split <;> exact Nat.le_refl _
    · exact Nat.le_of_eq (modify_drawn s id _).symm
  | fail id cause => exact Nat.le_of_eq (modify_drawn s id _).symm
  | restart id =>
    simp only [act, plainly, Store.restart]
    split
    · exact Nat.le_refl _
    · split <;> exact Nat.le_refl _
  | _ => exact Nat.le_refl _

/-- A number after an action was there before, in the same record, or is the next of the count. -/
theorem act_draws (hu : s.Unique) {n : Nat} (hr : r' ∈ (s.act a).2.records) (hn : n ∈ r'.draws) :
    (∃ r ∈ s.records, r.id = r'.id ∧ n ∈ r.draws) ∨
      n = s.drawn + 1 ∧ (s.act a).2.drawn = s.drawn + 1 ∧ a.drawsFor? = some r'.id := by
  rcases act_records hu a hr with ⟨r, hr₀, hc⟩ | ⟨w, id, rfl, hid, hf, rfl⟩
  · have own : r.number ∈ r.draws := List.mem_cons_self
    have hi := hc.id.symm
    rcases hc.draws with he | he | ⟨c, payload, rfl, hrc, he⟩
    · exact .inl ⟨r, hr₀, hi, he ▸ hn⟩
    · rw [he, List.mem_singleton] at hn
      exact .inl ⟨r, hr₀, hi, hn ▸ own⟩
    · rw [he, List.mem_cons, List.mem_singleton] at hn
      rcases hn with rfl | rfl
      · exact .inl ⟨r, hr₀, hi, own⟩
      · exact .inr ⟨rfl, suspend_drawn s c payload, congrArg some (hrc.symm.trans hi)⟩
  · refine .inr ⟨List.mem_singleton.1 hn, ?_, hid⟩
    rw [act, plainly, insert_fresh hid hf]
    rfl

/-- **Every action keeps the numbers apart.** -/
theorem act_numbered (s : Store) (a : Action) (h : s.Numbered) : (s.act a).2.Numbered := by
  have hu := act_unique s a h.ids
  refine ⟨hu, fun r' hr => ?_, fun r' hr t' ht n hn hm => ?_, fun r' hr n hn => ?_⟩
  · rcases act_records h.ids a hr with ⟨r, hr, hc⟩ | ⟨w, id, -, -, -, rfl⟩
    · have hd := h.drawn r hr r.number List.mem_cons_self
      rcases hc.draws with he | he | ⟨c, payload, -, -, he⟩
      · rw [he]; exact h.own r hr
      · rw [he]; exact List.nodup_singleton _
      · rw [he]; simp; omega
    · exact List.nodup_singleton _
  · rcases act_draws h.ids hr hn with ⟨r, hr₀, hi, hn⟩ | ⟨rfl, -, hi⟩
    · rcases act_draws h.ids ht hm with ⟨t, ht₀, hj, hm⟩ | ⟨rfl, -, -⟩
      · have he := h.apart r hr₀ t ht₀ n hn hm
        exact hu.eq hr ht (hi.symm.trans ((congrArg Record.id he).trans hj))
      · exact absurd (h.drawn r hr₀ _ hn).2 (by omega)
    · rcases act_draws h.ids ht hm with ⟨t, ht₀, -, hm⟩ | ⟨-, -, hj⟩
      · exact absurd (h.drawn t ht₀ _ hm).2 (by omega)
      · exact hu.eq hr ht (Option.some.inj (hi.symm.trans hj))
  · rcases act_draws h.ids hr hn with ⟨r, hr₀, -, hn⟩ | ⟨rfl, hd, -⟩
    · have hd := h.drawn r hr₀ n hn
      exact ⟨hd.1, Nat.le_trans hd.2 (act_drawn s a)⟩
    · exact ⟨Nat.succ_pos _, Nat.le_of_eq hd.symm⟩

theorem Reachable.numbered {s : Store} (h : s.Reachable) : s.Numbered :=
  h.holds numbered_empty act_numbered

end Store

end Resumption
