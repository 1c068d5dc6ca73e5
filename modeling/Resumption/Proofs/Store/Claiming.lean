import Resumption.Proofs.Store.Selection

/-!
# What a claim takes

The ready instances of a pool stand in a line: a higher priority comes first, and among equals the
instance that was stored first (`Record.Ahead`), however often it was claimed, woken, recovered or
restarted since. A claim takes the first of the line, and that is all it does.

**Result.** `claim_takes_best`.
-/

namespace Resumption

/-- Comes first in a claim after these turns. -/
def Record.Ahead (ts : List Turn) (a b : Record) : Prop :=
  b.priority < a.priority ∨ a.priority = b.priority ∧ StoredBefore ts a.id b.id

namespace Record

theorem claimedBefore_iff {a b : Record} : a.claimedBefore b = true ↔
    b.priority.toInt < a.priority.toInt ∨
      a.priority.toInt = b.priority.toInt ∧ a.number ≤ b.number := by
  simp [claimedBefore, Int32.lt_iff_toInt_lt, ← Int32.toInt_inj]

theorem claimable_iff {r : Record} {pool : String} :
    r.claimable pool = true ↔ r.status = .ready ∧ r.pool = pool := by
  simp [claimable]

end Record

namespace Store

/-- How a claim selects. -/
def claiming (engine pool : String) : Selection where
  takes r := r.claimable pool
  before := Record.claimedBefore
  mark r := r.claim engine

theorem claim_eq (s : Store) (engine pool : String) (most : Nat) :
    s.claim engine pool most =
      (((claiming engine pool).run s most).1.map fun r => r.handedOut engine,
        ((claiming engine pool).run s most).2) := rfl

theorem claiming_lawful (engine pool : String) : (claiming engine pool).Lawful where
  trans a b c := by simp only [claiming, Record.claimedBefore_iff]; omega
  total a b := by simp only [claiming, Bool.or_eq_true, Record.claimedBefore_iff]; omega
  apart a b := by simp only [claiming, Record.claimedBefore_iff]; omega
  id _ := rfl
  spent _ _ := rfl

theorem claiming_apart {pool pool' : String} (h : pool ≠ pool') (engine engine' : String) :
    (claiming engine pool).Apart (claiming engine' pool') := fun r hr => by
  have hp : r.pool = pool := (Record.claimable_iff.1 hr).2
  refine ⟨Bool.eq_false_iff.2 fun hr' => h ?_, rfl⟩
  exact hp.symm.trans (Record.claimable_iff.1 hr').2

variable {s : Store} {ts : List Turn}

/-- Of two instances in line the first one is ahead of the other. -/
theorem Ordered.line_ahead (h : Ordered ts s) (engine pool : String) :
    ((claiming engine pool).line s).Pairwise fun a b => a.Ahead ts b ∧ ¬ b.Ahead ts a := by
  have hne := Selection.line_nodup (p := claiming engine pool) h.numbered.ids
  have hle := Selection.line_sorted (claiming_lawful engine pool) s
  refine (hle.and hne).imp_of_mem fun {a b} ha hb hab => ?_
  have ha := (Selection.mem_line.1 ha).1
  have hb := (Selection.mem_line.1 hb).1
  rcases Record.claimedBefore_iff.1 hab.1 with hp | ⟨hp, hn⟩
  · have hlt : b.priority < a.priority := Int32.lt_iff_toInt_lt.2 hp
    refine ⟨.inl hlt, ?_⟩
    rintro (hba | ⟨hba, -⟩)
    · exact absurd (Int32.lt_iff_toInt_lt.1 hba) (by omega)
    · exact absurd (congrArg Int32.toInt hba) (by omega)
  · have heq : a.priority = b.priority := Int32.toInt_inj.1 hp
    have hlt : a.number < b.number :=
      Nat.lt_of_le_of_ne hn fun he => hab.2 (h.numbered.eq ha hb he)
    have hstored := h.before ha hb hlt
    refine ⟨.inr ⟨heq, hstored⟩, ?_⟩
    rintro (hba | ⟨-, hba⟩)
    · exact absurd (Int32.lt_iff_toInt_lt.1 hba) (by omega)
    · exact h.asymm hstored hba

theorem claim_store (hu : s.Unique) (engine pool : String) (most : Nat) :
    (s.claim engine pool most).2 =
      { s with records := s.records.map fun r =>
                if r ∈ ((claiming engine pool).line s).take most then r.claim engine else r } :=
  Selection.run_store (p := claiming engine pool) hu most

end Store

/-- **What a claim takes.** After transactions that are committed, rolled back or forgotten, and in
one that is open, the ready instances of a pool stand in a line by falling priority and then in the
order in which they were stored. A claim hands out the first of the line, as many as it is asked for
or as there are, leaves them running for its engine, and changes neither another instance nor a
response; in memory as well, in whatever order the map is walked. Claiming some and then some more
is claiming as many at once, and claims of different pools may go in any order. -/
theorem claim_takes_best (clock : Instant) (txs : List (List Store.Request × Database.Fate))
    (qs : List Store.Request) :
    let s := ((Database.create clock).course txs qs).store
    let ts := Store.empty.trail (Database.lasting txs ++ qs)
    (∀ pool, ∃ line : List Record,
      (∀ r, r ∈ line ↔ r ∈ s.records ∧ r.status = .ready ∧ r.pool = pool) ∧
      (line.Pairwise fun a b => a.Ahead ts b ∧ ¬ b.Ahead ts a) ∧
      ∀ engine most,
        let answer : Except StoreError Outcome :=
          .ok (.claimed ((line.take most).map fun r => r.handedOut engine))
        let left : Store :=
          { s with records := s.records.map fun r =>
                    if r ∈ line.take most then
                      { r with status := .running engine, delivered := [], waitExpired := false }
                    else r }
        s.act (.claim engine pool most) = (answer, left) ∧
          ∀ L : Layout, L.Holds s → (L.act (.claim engine pool most)).1 = answer ∧
            (L.act (.claim engine pool most)).2.Holds left) ∧
    (∀ engine pool m n,
      let first := s.claim engine pool m
      let second := first.2.claim engine pool n
      s.claim engine pool (m + n) = (first.1 ++ second.1, second.2)) ∧
    ∀ engine engine' pool pool' m n, pool ≠ pool' →
      let first := s.claim engine pool m
      let second := s.claim engine' pool' n
      (first.2.claim engine' pool' n).1 = second.1 ∧ (second.2.claim engine pool m).1 = first.1 ∧
        (first.2.claim engine' pool' n).2 = (second.2.claim engine pool m).2 := by
  intro s ts
  have hs : s = Store.empty.serveAll (Database.lasting txs ++ qs) :=
    Database.course_store (d := Database.create clock) rfl txs qs
  have h : Store.Ordered ts s := hs ▸ Store.ordered_inductive.run (Database.lasting txs ++ qs)
  have hu := h.numbered.ids
  refine ⟨fun pool => ?_, fun engine pool m n => ?_, fun engine engine' pool pool' m n hp => ?_⟩
  · -- The line is the same for every engine.
    refine ⟨(Store.claiming "" pool).line s, fun r => ?_, h.line_ahead "" pool,
      fun engine most => ?_⟩
    · rw [Selection.mem_line]
      exact and_congr_right fun _ => Record.claimable_iff
    · intro answer left
      have hact : s.act (.claim engine pool most) = (answer, left) :=
        Prod.ext rfl (Store.claim_store hu engine pool most)
      refine ⟨hact, fun L hL => ?_⟩
      have := hL.act (.claim engine pool most)
      rwa [hact] at this
  · intro first second
    have hadd := Selection.run_add (Store.claiming_lawful engine pool) h.numbered m n
    rw [Store.claim_eq, hadd]
    exact Prod.ext List.map_append rfl
  · intro first second
    obtain ⟨h₁, h₂, h₃⟩ := Selection.run_comm (Store.claiming_lawful engine pool)
      (Store.claiming_lawful engine' pool') hu (Store.claiming_apart hp _ _)
      (Store.claiming_apart hp.symm _ _) m n
    exact ⟨congrArg (List.map fun r : Record => r.handedOut engine') h₁,
      congrArg (List.map fun r : Record => r.handedOut engine) h₂, h₃⟩

/-- Three instances of one pool, the second of a higher priority than the others, and one of another
pool, each made ready before the next is stored. -/
def Database.mixedLine : List (List Store.Request × Fate) :=
  let ready (n : BitVec 128) (priority : Int32) (pool : String) : List Store.Request × Fate :=
    let w := { Workflow.create "t" .null with id := some ⟨n⟩, pool := some pool, priority }
    ([.insert [w], .promote 1].map fun op => ⟨⟨"a", false⟩, .epoch, op⟩, .committed)
  [ready 1 (-1) "p", ready 2 5 "p", ready 3 (-1) "p", ready 4 0 "q"]

theorem claim_takes_best_mixed :
    let s := ((Database.create .epoch).course Database.mixedLine []).store
    (s.claim "a" "p" 3).1.map (·.id) = [some ⟨2⟩, some ⟨1⟩, some ⟨3⟩] ∧
      (s.claim "a" "p" 3).1 =
        (s.claim "a" "p" 1).1 ++ ((s.claim "a" "p" 1).2.claim "a" "p" 2).1 ∧
      ((s.claim "a" "p" 3).2.claim "b" "q" 1).1.map (·.id) = [some ⟨4⟩] := by
  intro s
  obtain ⟨-, hadd, hcomm⟩ := claim_takes_best .epoch Database.mixedLine []
  refine ⟨?_, congrArg Prod.fst (hadd "a" "p" 1 2), ?_⟩
  · let r (n : BitVec 128) (number : Nat) (priority : Int32) : Record :=
      ⟨⟨n⟩, number, "t", "p", priority, .null, .ready, none, [], false⟩
    have hs : s = Store.empty.serveAll (Database.lasting Database.mixedLine ++ []) :=
      Database.course_store (d := Database.create .epoch) rfl Database.mixedLine []
    have hn : s.Numbered := hs ▸ (Store.ordered_inductive.run _).numbered
    have hready : s.records.filter (fun r => r.claimable "p") =
        [r 1 1 (-1), r 2 2 5, r 3 3 (-1)] := by
      decide +kernel
    have hline : (Store.claiming "a" "p").line s = [r 2 2 5, r 1 1 (-1), r 3 3 (-1)] :=
      Selection.sort_eq (Store.claiming_lawful "a" "p") hn
        (fun _ h => (List.mem_filter.1 h).1) (hready ▸ .swap _ _ _) (by decide +kernel)
    rw [Store.claim_eq, Selection.run, hline]
    rfl
  · rw [(hcomm "a" "b" "p" "q" 3 1 (by decide)).1]
    decide +kernel

end Resumption
