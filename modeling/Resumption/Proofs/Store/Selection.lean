import Resumption.Proofs.Store.Order

/-!
# Taking the first of a line

A claim and a promotion work alike: of the records that qualify they take the first few of a line,
and change those so that they qualify no more. `Selection` is what they differ in, and the laws here
hold of both.

* A selection that takes some and then some more takes what it would have taken at once
  (`Selection.run_add`), because what it leaves is the rest of the line, in the same order
  (`Selection.line_run`).
* Two selections that have no record in common, and of which neither makes one qualify for the
  other, may go in any order (`Selection.run_comm`).
-/

namespace Resumption

/-- Which records qualify, which of two comes first, and what becomes of one that is taken. -/
structure Selection where
  takes : Record → Bool
  before : Record → Record → Bool
  mark : Record → Record

namespace Selection

/-- The order is total, records of different numbers have different places in it, and what was taken
keeps its id and qualifies no more. -/
structure Lawful (p : Selection) : Prop where
  trans : ∀ a b c, p.before a b = true → p.before b c = true → p.before a c = true
  total : ∀ a b, (p.before a b || p.before b a) = true
  apart : ∀ a b, p.before a b = true → p.before b a = true → a.number = b.number
  id : ∀ r, (p.mark r).id = r.id
  spent : ∀ r, p.takes r = true → p.takes (p.mark r) = false

/-- The records that qualify, in order. -/
def line (p : Selection) (s : Store) : List Record := (s.records.filter p.takes).mergeSort p.before

def run (p : Selection) (s : Store) (most : Nat) : List Record × Store :=
  let chosen := (p.line s).take most
  let ids := chosen.map (·.id)
  (chosen, { s with records := s.records.map fun r => if r.id ∈ ids then p.mark r else r })

variable {p q : Selection} {s : Store} {r : Record} {m n : Nat}

/-! ## The line -/

theorem mem_line : r ∈ p.line s ↔ r ∈ s.records ∧ p.takes r = true := by
  rw [line, List.mem_mergeSort, List.mem_filter]

theorem line_subset : ∀ r ∈ (p.line s).take m, r ∈ s.records := fun _ hr =>
  (mem_line.1 (List.mem_of_mem_take hr)).1

theorem line_ids (hu : s.Unique) : ((p.line s).map (·.id)).Nodup := by
  have hf : ((s.records.filter p.takes).map (·.id)).Nodup :=
    (List.Sublist.map _ List.filter_sublist).nodup hu
  exact ((List.mergeSort_perm _ _).map _).nodup_iff.2 hf

theorem line_nodup (hu : s.Unique) : (p.line s).Nodup := List.Nodup.of_map _ (line_ids hu)

theorem line_sorted (h : p.Lawful) (s : Store) :
    (p.line s).Pairwise fun a b => p.before a b = true :=
  List.pairwise_mergeSort h.trans h.total _

/-- Records of a store that are in order are in the order that sorting gives them. -/
theorem sort_eq (h : p.Lawful) (hn : s.Numbered) {k l : List Record} (hk : ∀ r ∈ k, r ∈ s.records)
    (hp : l.Perm k) (hl : l.Pairwise fun a b => p.before a b = true) :
    k.mergeSort p.before = l := by
  have hperm : (k.mergeSort p.before).Perm l := (List.mergeSort_perm _ _).trans hp.symm
  refine List.Perm.eq_of_pairwise (fun a b ha hb hab hba => ?_)
    (List.pairwise_mergeSort h.trans h.total _) hl hperm
  exact hn.eq (hk a (List.mem_mergeSort.1 ha)) (hk b (hp.subset hb)) (h.apart a b hab hba)

/-! ## Taking -/

theorem run_length (p : Selection) (s : Store) (m : Nat) :
    (p.run s m).1.length = min m (p.line s).length := List.length_take

def after (p : Selection) (chosen : List Record) (r : Record) : Record :=
  if r ∈ chosen then p.mark r else r

theorem after_taken {chosen : List Record} (h : r ∈ chosen) : p.after chosen r = p.mark r :=
  if_pos h

theorem after_left {chosen : List Record} (h : r ∉ chosen) : p.after chosen r = r := if_neg h

theorem run_records (hu : s.Unique) (m : Nat) :
    (p.run s m).2.records = s.records.map (p.after ((p.line s).take m)) := by
  refine List.map_congr_left fun r hr => ?_
  by_cases hc : r ∈ (p.line s).take m
  · rw [after_taken hc, if_pos (List.mem_map_of_mem hc)]
  · rw [after_left hc, if_neg fun hi => hc (hu.mem_of_id line_subset hr hi)]

theorem run_store (hu : s.Unique) (m : Nat) :
    (p.run s m).2 = { s with records := s.records.map (p.after ((p.line s).take m)) } := by
  rw [← run_records hu]
  rfl

/-- The records that qualify for `q` after `p` has taken some that do not, and made none qualify. -/
theorem filter_after {chosen : List Record}
    (hc : ∀ r ∈ chosen, q.takes (p.mark r) = false) :
    (s.records.map (p.after chosen)).filter q.takes =
      (s.records.filter q.takes).filter fun r => r ∉ chosen := by
  have hq : ∀ r, (q.takes ∘ p.after chosen) r = (decide (r ∉ chosen) && q.takes r) := fun r => by
    by_cases h : r ∈ chosen
    · simp [after_taken h, h, hc r h]
    · simp [after_left h, h]
  rw [List.filter_map, List.filter_filter, List.filter_congr fun r _ => hq r]
  refine (List.map_congr_left fun r hr => ?_).trans (List.map_id _)
  have hr := (List.mem_filter.1 hr).2
  rw [Bool.and_eq_true, decide_eq_true_eq] at hr
  exact after_left hr.1

theorem not_mem_take {l : List Record} (hl : l.Nodup) (hr : r ∈ l.drop m) : r ∉ l.take m := by
  rw [← List.take_append_drop m l, List.nodup_append] at hl
  exact fun ht => hl.2.2 r ht r hr rfl

theorem filter_take {l : List Record} (hl : l.Nodup) (m : Nat) :
    l.filter (fun r => r ∉ l.take m) = l.drop m := by
  conv => lhs; rw [← List.take_append_drop m l]
  rw [List.filter_append, List.filter_eq_nil_iff.2 fun r hr => by simpa using hr, List.nil_append,
    List.filter_eq_self.2 fun r hr => ?_]
  rw [List.take_append_drop]
  exact decide_eq_true (not_mem_take hl hr)

theorem line_run (h : p.Lawful) (hn : s.Numbered) (m : Nat) :
    p.line (p.run s m).2 = (p.line s).drop m := by
  have hu := hn.ids
  have hrest : (p.run s m).2.records.filter p.takes =
      (s.records.filter p.takes).filter fun r => r ∉ (p.line s).take m := by
    rw [run_records hu]
    exact filter_after fun r hr => h.spent r (mem_line.1 (List.mem_of_mem_take hr)).2
  rw [line, hrest]
  refine sort_eq h hn (fun r hr => (List.mem_filter.1 (List.mem_filter.1 hr).1).1) ?_
    ((line_sorted h s).sublist (List.drop_sublist m _))
  rw [← filter_take (line_nodup hu)]
  exact (List.mergeSort_perm _ _).filter _

theorem run_unique (h : p.Lawful) (hu : s.Unique) (m : Nat) : (p.run s m).2.Unique :=
  hu.map (fun r _ => by split; exacts [h.id r, rfl]) _ _

/-- What two selections do to the records one after the other. -/
theorem run_run (h : p.Lawful) (hu : s.Unique) (m n : Nat) :
    (q.run (p.run s m).2 n).2 =
      { s with
        records := s.records.map
          (q.after ((q.line (p.run s m).2).take n) ∘ p.after ((p.line s).take m)) } := by
  rw [run_store (run_unique h hu m), run_records hu, List.map_map]
  rfl

/-- Taking some and then some more is taking as many at once. -/
theorem run_add (h : p.Lawful) (hn : s.Numbered) (m n : Nat) :
    p.run s (m + n) =
      ((p.run s m).1 ++ (p.run (p.run s m).2 n).1, (p.run (p.run s m).2 n).2) := by
  have hu := hn.ids
  have htake : (p.line s).take (m + n) =
      (p.line s).take m ++ (p.line (p.run s m).2).take n := by
    rw [line_run h hn, List.take_add]
  refine Prod.ext htake ?_
  rw [run_store hu, run_run h hu]
  congr 1
  refine List.map_congr_left fun r _ => ?_
  rw [htake, Function.comp_apply]
  by_cases hm : r ∈ (p.line s).take m
  · -- What was taken first does not qualify any more.
    have hout : p.mark r ∉ (p.line (p.run s m).2).take n := fun hi => by
      have hspent := h.spent r (mem_line.1 (List.mem_of_mem_take hm)).2
      rw [(mem_line.1 (List.mem_of_mem_take hi)).2] at hspent
      cases hspent
    rw [after_taken (List.mem_append_left _ hm), after_taken hm, after_left hout]
  · have hiff : r ∈ (p.line s).take m ++ (p.line (p.run s m).2).take n ↔
        r ∈ (p.line (p.run s m).2).take n := by
      rw [List.mem_append, or_iff_right hm]
    rw [after_left hm]
    exact if_congr hiff rfl rfl

/-- No record qualifies for both, before or after it is taken. -/
def Apart (p q : Selection) : Prop :=
  ∀ r, p.takes r = true → q.takes r = false ∧ q.takes (p.mark r) = false

/-- A selection leaves the line of another that it has nothing in common with. -/
theorem line_run_apart (hu : s.Unique) (h : p.Apart q) (m : Nat) :
    q.line (p.run s m).2 = q.line s := by
  rw [line, line, run_records hu, filter_after fun r hr =>
    (h r (mem_line.1 (List.mem_of_mem_take hr)).2).2]
  congr 1
  refine List.filter_eq_self.2 fun r hr => decide_eq_true fun hm => ?_
  have := (h r (mem_line.1 (List.mem_of_mem_take hm)).2).1
  rw [(List.mem_filter.1 hr).2] at this
  cases this

/-- What one selection takes is the business of the other neither before nor after. -/
theorem after_apart {p q : Selection} {s : Store} {m n : Nat} (h : p.Apart q) {r : Record}
    (hr : r ∈ (p.line s).take m) : q.after ((q.line s).take n) (p.mark r) = p.mark r ∧
      q.after ((q.line s).take n) r = r := by
  obtain ⟨hr', hm⟩ := h r (mem_line.1 (List.mem_of_mem_take hr)).2
  have out : ∀ t, q.takes t = false → t ∉ (q.line s).take n := fun t ht hi => by
    rw [(mem_line.1 (List.mem_of_mem_take hi)).2] at ht
    cases ht
  exact ⟨after_left (out _ hm), after_left (out _ hr')⟩

/-- Two selections that have nothing in common may go in any order. -/
theorem run_comm (hp : p.Lawful) (hq : q.Lawful) (hu : s.Unique) (hpq : p.Apart q)
    (hqp : q.Apart p) (m n : Nat) :
    (q.run (p.run s m).2 n).1 = (q.run s n).1 ∧ (p.run (q.run s n).2 m).1 = (p.run s m).1 ∧
      (q.run (p.run s m).2 n).2 = (p.run (q.run s n).2 m).2 := by
  have hl := line_run_apart hu hpq m
  have hl' := line_run_apart hu hqp n
  refine ⟨congrArg (List.take n) hl, congrArg (List.take m) hl', ?_⟩
  rw [run_run hp hu, run_run hq hu, hl, hl']
  congr 1
  refine List.map_congr_left fun r _ => ?_
  rw [Function.comp_apply, Function.comp_apply]
  by_cases hm : r ∈ (p.line s).take m
  · obtain ⟨hmark, hsame⟩ := after_apart (n := n) hpq hm
    rw [hsame, after_taken hm, hmark]
  · by_cases hn : r ∈ (q.line s).take n
    · obtain ⟨hmark, hsame⟩ := after_apart (n := m) hqp hn
      rw [hsame, after_taken hn, hmark]
    · rw [after_left hm, after_left hn, after_left hm]

end Selection

end Resumption
