import Resumption.Proofs.Database.Job
import Resumption.Proofs.Store.Acceptance
import Resumption.Storage.Call

/-!
# Inserting through a storage

A storage takes the batch in, unless there is nothing to store, and then stores it in a transaction of
its own. It answers that it is done exactly when the whole batch is stored, and otherwise leaves the
store as it was, the count of numbers included, whichever calls fail (`Storage.inserting`). A batch that
the store does not accept is never stored, not even in part.

`insert_exact` is about both: what the store makes of a batch after any run, and what a storage makes of
it on any database with that store.
-/

namespace Resumption

namespace Storage

/-- What a storage that goes on with a batch makes of a database. -/
structure Inserts (ws : List Workflow) (d : Database) (r : Reply) (d' : Database) : Prop where
  /-- The store is as it was, or an accepted batch is stored as a whole. -/
  whole : d'.store = d.store ∨ d.store.Accepts ws ∧ d'.store = (d.store.insert ws).2
  /-- What is reported as done is done. -/
  done : r = .done → d.store.Accepts ws ∧ d'.store = (d.store.insert ws).2
  /-- What is reported as failed is not done, unless a commit failed after it took effect. -/
  failed : d.Timely → r ≠ .done → d'.store = d.store
  /-- Without faults the reply is that of the store. -/
  answer : d.faults = [] → r = .ofUnit (Work.answer (d.store.insert ws).1)

theorem inserting (time : Nat) (c : Storage) (d : Database) (ws : List Workflow) :
    ∃ r c' d', c.advance time d (.stating (.insert ws)) = (.over r, c', d') ∧ Inserts ws d r d' := by
  have work : Work.Discreet (Work.insert ws) := Work.discreet_call _ _
  have stored : ∀ {d₁ d₂ : Database}, (Work.insert ws).on d₁ = (.ok (), d₂) → d₁.store = d.store →
      d.store.Accepts ws ∧ d₂.store = (d.store.insert ws).2 := by
    intro d₁ d₂ h hs
    have hi := Work.call_ok h
    rw [hs] at hi
    exact ⟨Store.insert_ok_iff.1 (by rw [hi]), by rw [hi]⟩
  have whole := Work.transact_whole (Work.insert ws) d
  have quiet : d.faults = [] → ((Work.transact (Work.insert ws)).on d).1 =
      Work.answer (d.store.insert ws).1 := by
    intro hq
    obtain ⟨d₀, ha, hs, ht⟩ := Work.transact_quiet work hq
    rw [ht, Work.insert, Work.call_quiet (ha.quiet hq), hs]
  rcases hr : (Work.transact (Work.insert ws)).on d with ⟨e | u, d'⟩
  · -- The transaction failed.
    rw [hr] at quiet
    refine ⟨.ofFailure e, c, d', ?_, ?_, ?_, fun ht _ => Work.transact_error work ht hr, ?_⟩
    · simp only [advance, state, hr]
    · have := whole.store
      rw [hr] at this
      exact this.imp_right fun ⟨_, d₁, hw, hs⟩ =>
        (stored hw d.begun_store).imp_right fun h => hs.trans h
    · intro h
      cases e <;> cases h
    · intro hq
      rw [← quiet hq]
      cases e <;> rfl
  · -- The batch is stored.
    rw [hr] at quiet
    have hs : d.store.Accepts ws ∧ d'.store = (d.store.insert ws).2 := by
      obtain ⟨d₁, hw, hs⟩ := whole.answered (by rw [hr])
      rw [hr] at hs
      exact (stored hw d.begun_store).imp_right fun h => hs.trans h
    have told : (c.report d' [.measured "insert" ws.length]).store = d'.store := by
      rw [report]
      split <;> rfl
    refine ⟨.done, c.wake, c.report d' [.measured "insert" ws.length], ?_, ?_, ?_,
      fun _ h => absurd rfl h, ?_⟩
    · simp only [advance, state, hr]
    · exact .inr ⟨hs.1, told.trans hs.2⟩
    · exact fun _ => ⟨hs.1, told.trans hs.2⟩
    · intro hq
      rw [← quiet hq]
      rfl

end Storage

/-- **Insertion accepts exactly the valid batches.** After any run, the store stores a batch exactly when
every instance has an id, no two have the same and none is stored. Then it has gained these instances and
nothing else has changed (`Store.Gains`): in their order and as new ones, whatever else was submitted
with them, each under a number above all that were ever drawn. Otherwise the error is that of the first
position where something is in the way.

A storage stores the batch as a whole or leaves the store as it was. A batch that is not accepted leaves
the store as it was whichever calls fail, and without faults the reply is the error of the store. -/
theorem insert_exact (clock : Instant) (txs : List (List Store.Request × Database.Fate))
    (qs : List Store.Request) (ws : List Workflow) :
    let s := ((Database.create clock).course txs qs).store
    let s' := (s.insert ws).2
    ((s.insert ws).1 = .ok () ↔ s.Accepts ws) ∧
      (s.Accepts ws → s.Gains ws s' ∧
        (∀ w ∈ ws, ∀ id, w.id = some id → s'.load id = some
          { w with pool := some w.effectivePool, stage := .enqueued, callback := none
                   responses := [], waitExpired := false }) ∧
        ∀ t ∈ Store.empty.trail (Database.lasting txs ++ qs), ∀ r ∈ t.after.records,
          ∀ n ∈ r.draws, ∀ r' ∈ s'.records, r'.id ∉ s.ids → n < r'.number) ∧
      (∀ e, (s.insert ws).1 = .error e ↔ ∃ k, s.FirstObstacle ws k e) ∧
      ∀ (c : Storage) (d : Database), d.store = s →
        c.begin d (.insert ws) =
          (if ws = [] then .over .done else .going (.stating (.insert ws)), c, d) ∧
        ∀ time, ∃ r c' d', c.advance time d (.stating (.insert ws)) = (.over r, c', d') ∧
          Storage.Inserts ws d r d' ∧
          (¬ s.Accepts ws → d'.store = s ∧ r ≠ .done ∧
            (d.faults = [] → ∃ k e, s.FirstObstacle ws k e ∧ r = .refused e)) := by
  intro s s'
  have hs : s = Store.empty.serveAll (Database.lasting txs ++ qs) := Database.course_store rfl txs qs
  have counted := Store.counted_inductive.run (Database.lasting txs ++ qs)
  rw [← hs] at counted
  have unique : s'.Unique := by
    have := Store.actAll_holds (ws.map .insert) (fun s a _ => Store.act_unique s a) s .done
      counted.numbered.ids
    rwa [Store.actAll_insert] at this
  refine ⟨Store.insert_ok_iff, fun h => ?_, fun e => Store.insert_error_iff, fun c d hd => ⟨?_, ?_⟩⟩
  · have gains := Store.insert_gains h
    refine ⟨gains, fun w hw id hid => gains.load unique hw hid, fun t ht r hr n hn r' hr' hnew => ?_⟩
    exact Nat.lt_of_le_of_lt (counted.past t ht r hr n hn) (gains.number_gt hr' hnew)
  · cases ws <;> rfl
  · intro time
    obtain ⟨r, c', d', ha, hi⟩ := c.inserting time d ws
    refine ⟨r, c', d', ha, hi, fun hn => ⟨?_, fun hr => hn (hd ▸ (hi.done hr).1), fun hq => ?_⟩⟩
    · rcases hi.whole with hw | ⟨hw, -⟩
      · exact hw.trans hd
      · exact absurd (hd ▸ hw) hn
    · have answer := hi.answer hq
      rw [hd] at answer
      rcases s.insert_cases ws with ⟨s₁, -, -, hc⟩ | ⟨s₁, k, e, he, -, hf⟩
      · exact absurd (Store.accepts_iff.2 hc) hn
      · rw [he] at answer
        exact ⟨k, e, hf, answer⟩

end Resumption
