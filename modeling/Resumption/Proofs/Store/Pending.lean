import Resumption.Proofs.Store.Change

/-!
# Responses that nobody waits for

What becomes of a response `u` that is unclaimed, with the responses `e` before it and `l` after it.

**One action.** Either it leaves the response where it is, and takes at most others away and puts new
ones at the end; or it is the end of the response (`Store.Ends`): a suspension that names its id
takes it, and with it or before it all earlier ones to the same id, or a sweep discards it after its
expiry, and with it or before it all earlier ones that had expired. `Store.act_pending` is this
dichotomy.

**Any number of actions.** `Store.Abides` follows the response along a list of actions up to its end,
if there is one. By induction every unclaimed response abides along any actions
(`Store.abides`).
-/

namespace Resumption

namespace Store

variable {s : Store} {u : Unclaimed} {e l : List Unclaimed}

/-! ## Taking responses out of a list -/

/-- A response is taken from before `u`, or it is `u` and the earliest to its id, or it is taken from
after `u`. -/
theorem takeFirst_split {c : String} {a : Response} {rest : List Unclaimed}
    (h : takeFirst c (e ++ u :: l) = some (a, rest)) :
    (∃ e', e'.Sublist e ∧ rest = e' ++ u :: l) ∨
      (a = u.response ∧ rest = e ++ l ∧ ∀ v ∈ e, v.response.correlation ≠ a.correlation) ∨
      ∃ l', l'.Sublist l ∧ rest = e ++ u :: l' := by
  obtain ⟨pre, v, post, hs, rfl, rfl, rfl, hp⟩ := takeFirst_some h
  rcases List.append_eq_append_iff.1 hs with ⟨m, rfl, hm⟩ | ⟨m, rfl, hm⟩
  · cases m with
    | nil =>
      cases hm
      exact .inr (.inl ⟨rfl, by rw [List.append_nil], by simpa using hp⟩)
    | cons w m =>
      cases hm
      exact .inr (.inr ⟨m ++ post, (List.sublist_cons_self v post).append_left m, by simp⟩)
  · cases m with
    | nil =>
      cases hm
      exact .inr (.inl ⟨rfl, by simp, by simpa using hp⟩)
    | cons w m =>
      cases hm
      exact .inl ⟨pre ++ m, (List.sublist_cons_self v m).append_left pre, by simp⟩

/-- A record that collects leaves `u` where it is, or takes it in as the earliest to its id that is
left. -/
theorem collect_split (cs : List String) :
    ∀ (r : Record) (e l : List Unclaimed), Room r cs →
      ∃ as e' l', Record.Takes r as (collect r (e ++ u :: l) cs).1 ∧ e'.Sublist e ∧
        l'.Sublist l ∧ ((collect r (e ++ u :: l) cs).2 = e' ++ u :: l' ∨
          (collect r (e ++ u :: l) cs).2 = e' ++ l' ∧ u.response ∈ as ∧
            u.response.correlation ∈ cs ∧
            ∀ v ∈ e', v.response.correlation ≠ u.response.correlation) := by
  induction cs with
  | nil => exact fun r e l _ => ⟨[], e, l, .nil r, .refl e, .refl l, .inl rfl⟩
  | cons c cs ih =>
    intro r e l hroom
    by_cases hw : ∃ z, r.status = .waiting z
    · obtain ⟨z, hz⟩ := hw
      cases ht : takeFirst c (e ++ u :: l) with
      | none =>
        rw [collect_cons_none hz ht]
        obtain ⟨as, e', l', hr, he, hl, h⟩ := ih r e l hroom.tail
        refine ⟨as, e', l', hr, he, hl, h.imp_right fun ⟨h, ha, hc, hf⟩ => ?_⟩
        exact ⟨h, ha, List.mem_cons_of_mem c hc, hf⟩
      | some p =>
        obtain ⟨a, rest⟩ := p
        have hc : a.correlation = c := by
          obtain ⟨-, -, -, -, -, -, hc, -⟩ := takeFirst_some ht
          exact hc
        rw [collect_cons_some hz ht]
        subst hc
        have hw := hroom.wants hz
        have hroom := hroom.answer hz
        rcases takeFirst_split ht with ⟨e₁, he₁, rfl⟩ | ⟨rfl, rfl, hf⟩ | ⟨l₁, hl₁, rfl⟩
        · obtain ⟨as, e', l', hr, he, hl, h⟩ := ih (r.answer a) e₁ l hroom
          refine ⟨a :: as, e', l', .cons hw hr, he.trans he₁, hl, h.imp_right ?_⟩
          exact fun ⟨h, ha, hc, hf⟩ => ⟨h, List.mem_cons_of_mem a ha, List.mem_cons_of_mem _ hc, hf⟩
        · obtain ⟨as, hr, hsub, -⟩ := collect_spec cs (r.answer u.response) (e ++ l) hroom
          obtain ⟨e', l', hs, he, hl⟩ := List.sublist_append_iff.1 hsub
          exact ⟨u.response :: as, e', l', .cons hw hr, he, hl, .inr ⟨hs, List.mem_cons_self,
            List.mem_cons_self, fun v hv => hf v (he.subset hv)⟩⟩
        · obtain ⟨as, e', l', hr, he, hl, h⟩ := ih (r.answer a) e l₁ hroom
          refine ⟨a :: as, e', l', .cons hw hr, he, hl.trans hl₁, h.imp_right ?_⟩
          exact fun ⟨h, ha, hc, hf⟩ => ⟨h, List.mem_cons_of_mem a ha, List.mem_cons_of_mem _ hc, hf⟩
    · rw [collect_done fun z hz => hw ⟨z, hz⟩]
      exact ⟨[], e, l, .nil r, .refl e, .refl l, .inl rfl⟩

/-- A sweep leaves `u` where it is, or discards it after its expiry and no earlier one that has
expired is left. -/
theorem dropExpired_split (now : Instant) (e l : List Unclaimed) :
    ∀ most, ∃ e' l', e'.Sublist e ∧ l'.Sublist l ∧
      ((dropExpired now most (e ++ u :: l)).2 = e' ++ u :: l' ∨
        (dropExpired now most (e ++ u :: l)).2 = e' ++ l' ∧ u.expiry ≤ now ∧
          ∀ v ∈ e', ¬ v.expiry ≤ now) := by
  induction e with
  | nil =>
    intro most
    cases most with
    | zero => exact ⟨[], l, .refl _, .refl l, .inl rfl⟩
    | succ most =>
      rw [List.nil_append, dropExpired]
      split
      · rename_i hu
        exact ⟨[], _, .refl _, dropExpired_sublist now l most, .inr ⟨rfl, hu, by simp⟩⟩
      · exact ⟨[], _, .refl _, dropExpired_sublist now l (most + 1), .inl rfl⟩
  | cons v e ih =>
    intro most
    cases most with
    | zero => exact ⟨v :: e, l, .refl _, .refl l, .inl rfl⟩
    | succ most =>
      rw [List.cons_append, dropExpired]
      split
      · obtain ⟨e', l', he, hl, h⟩ := ih most
        exact ⟨e', l', he.cons v, hl, h⟩
      · rename_i hv
        obtain ⟨e', l', he, hl, h⟩ := ih (most + 1)
        refine ⟨v :: e', l', he.cons_cons v, hl, h.imp (congrArg (v :: ·)) ?_⟩
        rintro ⟨h, hu, hf⟩
        exact ⟨congrArg (v :: ·) h, hu, List.forall_mem_cons.2 ⟨hv, hf⟩⟩

/-! ## One action -/

/-- The action is the end of `u`, which is unclaimed after `e` and before `l`; what else it leaves of
these stays in its order. -/
inductive Ends (s : Store) (e : List Unclaimed) (u : Unclaimed) (l : List Unclaimed) :
    Action → Prop where
  /-- A suspension that names its id takes it in, and no earlier one to this id is left. -/
  | taken {c : Callback} {payload : Json} {r : Record} {e' l' : List Unclaimed}
      (names : u.response.correlation ∈ c.correlations)
      (record : r ∈ (s.suspend c payload).2.records) (id : r.id = c.instanceId)
      (holds : u.response ∈ r.attached ++ r.delivered)
      (before : e'.Sublist e) (behind : l'.Sublist l)
      (rest : (s.suspend c payload).2.unclaimed = e' ++ l')
      (first : ∀ v ∈ e', v.response.correlation ≠ u.response.correlation) :
      Ends s e u l (.suspend c payload)
  /-- A sweep discards it after its expiry, and no earlier one that has expired is left. -/
  | swept {now : Instant} {most : Nat} {e' l' : List Unclaimed}
      (expired : u.expiry ≤ now) (before : e'.Sublist e) (behind : l'.Sublist l)
      (rest : (s.sweep now most).2.unclaimed = e' ++ l') (first : ∀ v ∈ e', ¬ v.expiry ≤ now) :
      Ends s e u l (.sweep now most)

theorem suspend_pending (h : s.unclaimed = e ++ u :: l) (c : Callback) (payload : Json) :
    (∃ e' l', e'.Sublist e ∧ l'.Sublist l ∧
      (s.suspend c payload).2.unclaimed = e' ++ u :: l') ∨ s.Ends e u l (.suspend c payload) := by
  cases hf : s.find? c.instanceId with
  | none =>
    rw [suspend_absent hf]
    exact .inl ⟨e, l, .refl e, .refl l, h⟩
  | some t =>
    obtain ⟨ht, hid⟩ := find?_some hf
    obtain ⟨as, e', l', hr, he, hl, hs⟩ := collect_split (u := u) c.correlations _ e l
      (suspend_room t payload c (s.drawn + 1))
    rw [← h] at hr hs
    have hrest : (s.suspend c payload).2.unclaimed = (s.suspended c payload t).2 := by
      rw [suspend_present hf]
    rcases hs with hs | ⟨hs, ha, hc, hfirst⟩
    · exact .inl ⟨e', l', he, hl, hrest.trans hs⟩
    · refine .inr (.taken (r := (s.suspended c payload t).1) hc ?_ ?_ ?_ he hl (hrest.trans hs)
        hfirst)
      · rw [suspend_present hf]
        exact List.mem_map.2 ⟨t, ht, if_pos hid⟩
      · rw [suspended_id, hid]
      · have hn := hr.count u.response
        have ha' := List.count_pos_iff.2 ha
        refine List.count_pos_iff.1 ?_
        rw [List.count_append]
        exact Nat.lt_of_lt_of_le ha' (hn ▸ Nat.le_add_left _ _)

/-- **One action** leaves an unclaimed response in its place, or is its end. -/
theorem act_pending (h : s.unclaimed = e ++ u :: l) (x : Action) :
    (∃ e' l' new, e'.Sublist e ∧ l'.Sublist l ∧
      (s.act x).2.unclaimed = e' ++ u :: (l' ++ new)) ∨ s.Ends e u l x := by
  have still : ∀ {t : Store}, t.unclaimed = s.unclaimed → ∃ e' l' new, e'.Sublist e ∧
      l'.Sublist l ∧ t.unclaimed = e' ++ u :: (l' ++ new) := fun ht =>
    ⟨e, l, [], .refl e, .refl l, by rw [ht, h, List.append_nil]⟩
  cases x with
  | insert w =>
    left
    rcases insert_one s w with hi | ⟨id, -, -, hi⟩ <;> rw [act, plainly, hi] <;> exact still rfl
  | deliver r =>
    left
    simp only [act, deliver]
    split
    · exact still rfl
    · exact ⟨e, l, [⟨r, r.expiry .zero⟩], .refl e, .refl l, by simp [h]⟩
  | suspend c payload =>
    rcases suspend_pending h c payload with ⟨e', l', he, hl, hs⟩ | hend
    · exact .inl ⟨e', l', [], he, hl, by rw [List.append_nil]; exact hs⟩
    · exact .inr hend
  | finish remove id =>
    left
    simp only [act, plainly, Store.finish]
    split
    · split <;> exact still rfl
    · rw [modify_store]; exact still rfl
  | fail id cause =>
    left
    simp only [act, plainly, Store.fail, modify_store]
    exact still rfl
  | restart id =>
    left
    simp only [act, plainly, Store.restart]
    split
    · exact still rfl
    · split <;> exact still rfl
  | sweep now most =>
    obtain ⟨e', l', he, hl, hs⟩ := dropExpired_split (u := u) now e l most
    rw [← h] at hs
    rcases hs with hs | ⟨hs, hu, hfirst⟩
    · exact .inl ⟨e', l', [], he, hl, by rw [List.append_nil]; exact hs⟩
    · exact .inr (.swept hu he hl hs hfirst)
  | _ => exact .inl (still rfl)

/-! ## Any number of actions -/

/-- From `s` on, where it is unclaimed after `e` and before `l`, the response `u` stays unclaimed
along these actions, or up to the one among them that is its end. All the time those before it stay
before it and those after it stay after it, each in their order, and new ones come at the end. -/
inductive Abides (u : Unclaimed) :
    Store → List Unclaimed → List Unclaimed → List Action → Prop where
  | still {s : Store} {e l : List Unclaimed} (here : s.unclaimed = e ++ u :: l) : Abides u s e l []
  | stays {s : Store} {e l e' l' new : List Unclaimed} {x : Action} {xs : List Action}
      (here : s.unclaimed = e ++ u :: l) (before : e'.Sublist e) (behind : l'.Sublist l)
      (later : Abides u (s.act x).2 e' (l' ++ new) xs) : Abides u s e l (x :: xs)
  | ends {s : Store} {e l : List Unclaimed} {x : Action} {xs : List Action}
      (here : s.unclaimed = e ++ u :: l) (last : s.Ends e u l x) : Abides u s e l (x :: xs)

/-- **An unclaimed response abides** along any actions. -/
theorem abides (xs : List Action) :
    ∀ {s : Store} {e l : List Unclaimed}, s.unclaimed = e ++ u :: l → Abides u s e l xs := by
  induction xs with
  | nil => exact fun h => .still h
  | cons x xs ih =>
    intro s e l h
    rcases act_pending h x with ⟨e', l', new, he, hl, hs⟩ | hend
    · exact .stays h he hl (ih hs)
    · exact .ends h hend

end Store

end Resumption
