import Resumption.Proofs.Storage.Actions
import Resumption.Proofs.Storage.Conduct
import Resumption.Proofs.Store.Promotion

/-!
# The queue updater and its backlog

The queue updater promotes at most `Storage.ceiling` instances in a pass, and rests as the number
says that it promoted. A pass that went well has promoted as many as it may, and the updater rests
as after a full pass; or nothing that was due is left (`Storage.Rests`).

**Result.** `promotion_exact`: what one promotion does, what promotions one after the other come to,
and what the updater makes of them.
-/

namespace Resumption

namespace Storage

variable {st : Storage} {d d' : Database} {n : Nat}

/-- The rest after a pass that promoted `n` instances and left this store: it is that of a full
pass, or nothing is due any more. -/
inductive Rests (st : Storage) (now : Instant) (left : Store) (n : Nat) : Duration → Prop where
  | full (count : n = st.ceiling) : Rests st now left n st.settings.backoff.full
  | partly (some : 0 < n) (count : n < st.ceiling)
      (drained : ∀ r ∈ left.records, r.dueAt now = false) :
      Rests st now left n st.settings.backoff.partly
  | empty (none : n = 0) (drained : ∀ r ∈ left.records, r.dueAt now = false) :
      Rests st now left n st.settings.backoff.empty

theorem ceiling_pos (st : Storage) : 1 ≤ st.ceiling := Nat.le_max_left _ _

theorem rests (hn : d.store.Numbered)
    (h : d.store.promote d.clock st.ceiling = (n, d'.store)) :
    st.Rests d.clock d'.store n (st.settings.backoff.delayFor n st.ceiling) := by
  have hle : n ≤ st.ceiling := by
    have hc : min st.ceiling ((Store.promoting d.clock).line d.store).length = n :=
      congrArg Prod.fst ((Store.promote_exact hn.ids _ _).symm.trans h)
    omega
  have drained : n < st.ceiling → ∀ r ∈ d'.store.records, r.dueAt d.clock = false := fun hlt => by
    have hshort : (d.store.promote d.clock st.ceiling).1 < st.ceiling := by rw [h]; exact hlt
    have hleft := Store.drained_of_short hn hshort
    rwa [h] at hleft
  have hpos := st.ceiling_pos
  unfold Backoff.delayFor
  split
  · exact .empty ‹_› (drained (by omega))
  · split
    · exact .full (by omega)
    · exact .partly (by omega) (by omega) (drained (by omega))

theorem stepUpdater_ok (hph : st.updater = .passing)
    (h : (Work.transact (Work.promote st.ceiling)).on d = (.ok n, d')) (time : Nat) :
    (st.stepUpdater time d).1.updater =
        st.afterPass time (st.settings.backoff.delayFor n st.ceiling) ∧
      (st.stepUpdater time d).2.store = d'.store := by
  have he : st.stepUpdater time d =
      ({ st with updater := st.afterPass time (st.settings.backoff.delayFor n st.ceiling) },
        st.report d' [.measured "update_queue_state" n]) := by
    simp only [stepUpdater, hph, h]
  rw [he]
  exact ⟨rfl, (report_told st d' _).store⟩

end Storage

/-- **What a promotion makes ready.** After transactions that are committed, rolled back or
forgotten, and in one that is open, the instances that are due stand in a line, in the order in
which they were stored. A promotion makes the first of the line ready, as many as it may or as there
are, and tells how many; it changes neither another instance nor a response; in memory as well, in
whatever order the map is walked. Promoting some and then some more is promoting as many at once,
and a promotion that finds less than it may take leaves nothing that is due; so passes that may each
take one make all that is due ready, as soon as there are as many of them as instances in the line,
whatever they may take. The queue updater may always take one, and rests as after a full pass as
long as something may be left. -/
theorem promotion_exact (clock : Instant) (txs : List (List Store.Request × Database.Fate))
    (qs : List Store.Request) (now : Instant) :
    let s := ((Database.create clock).course txs qs).store
    let ts := Store.empty.trail (Database.lasting txs ++ qs)
    ∃ line : List Record, Store.DueLine ts s now line ∧
      (∀ most,
        let answer : Except StoreError Outcome := .ok (.counted (min most line.length))
        let left : Store :=
          { s with records := s.records.map fun r => if r ∈ line.take most then r.promote else r }
        s.act (.promote now most) = (answer, left) ∧
          ∀ L : Layout, L.Holds s → (L.act (.promote now most)).1 = answer ∧
            (L.act (.promote now most)).2.Holds left) ∧
      (∀ m n,
        let first := s.promote now m
        let second := first.2.promote now n
        s.promote now (m + n) = (first.1 + second.1, second.2)) ∧
      (∀ most, (s.promote now most).1 < most →
        ∀ r ∈ (s.promote now most).2.records, r.dueAt now = false) ∧
      (∀ ms : List Nat, (∀ m ∈ ms, 1 ≤ m) → line.length ≤ ms.length →
        s.passes now ms = (line.length, s.promoteAll now)) ∧
      ∀ (st : Storage) (d d' : Database) (n : Nat), d.store = s → d.clock = now →
        st.updater = .passing →
        (Work.transact (Work.promote st.ceiling)).on d = (.ok n, d') →
          1 ≤ st.ceiling ∧ ∃ rest, ∀ time,
            (n, (st.stepUpdater time d).2.store) = s.promote now st.ceiling ∧
            (st.stepUpdater time d).1.updater = st.afterPass time rest ∧
            st.Rests now (st.stepUpdater time d).2.store n rest := by
  intro s ts
  have hs : s = Store.empty.serveAll (Database.lasting txs ++ qs) :=
    Database.course_store (d := Database.create clock) rfl txs qs
  have h : Store.Ordered ts s := hs ▸ Store.ordered_inductive.run (Database.lasting txs ++ qs)
  have ha : Store.Asked ts s := hs ▸ Store.asked_inductive.run (Database.lasting txs ++ qs)
  refine ⟨(Store.promoting now).line s, h.dueLine ha now, fun most => ?_,
    Store.promote_add h.numbered now, fun most => Store.drained_of_short h.numbered,
    fun ms => Store.passes_drain h.numbered now, ?_⟩
  · intro answer left
    have hact : s.act (.promote now most) = (answer, left) := by
      rw [Store.act, Store.promote_exact h.numbered.ids]
    refine ⟨hact, fun L hL => ?_⟩
    have := hL.act (.promote now most)
    rwa [hact] at this
  · rintro st d d' n hd rfl hph hok
    refine ⟨st.ceiling_pos, st.settings.backoff.delayFor n st.ceiling, fun time => ?_⟩
    obtain ⟨hup, hstore⟩ := Storage.stepUpdater_ok hph hok time
    have hp := Work.promote_ok hok
    have hn : d.store.Numbered := hd ▸ h.numbered
    rw [hstore]
    exact ⟨by rw [← hd, hp], hup, Storage.rests hn hp⟩

/-- Two instances wait, the first until now and with one of two answers. -/
def Database.overdue : List (List Store.Request × Fate) :=
  let tx (op : Operation) : List Store.Request × Fate := ([⟨⟨"a", false⟩, .epoch, op⟩], .committed)
  let w (n : BitVec 128) : Workflow := { Workflow.create "t" .null with id := some ⟨n⟩ }
  [tx (.insert [w 1, w 2]), tx (.suspend ⟨⟨1⟩, .all, some .epoch, ["a", "b"]⟩ .null),
    tx (.suspend ⟨⟨2⟩, .all, none, ["c"]⟩ .null), tx (.notify [⟨"b", .ok .null, .epoch, none⟩])]

/-- An updater in a pass, with no ceiling given. -/
def Storage.updating : Storage :=
  { create "a" { StorageSettings.standard with promotionBatch := 0 } none false with
    started := true, updater := .passing }

theorem promotion_exact_overdue :
    let d := (Database.create .epoch).course Database.overdue []
    let left := (d.store.promoteAll .epoch)
    d.store.passes .epoch [1] = (1, left) ∧
      (left.find? ⟨1⟩).map (fun r => (r.stage, r.delivered.map (·.correlation), r.waitExpired)) =
        some (.ready, ["b"], true) ∧
      (left.find? ⟨2⟩).map Record.stage = some .waiting ∧
      ∃ rest, (Storage.updating.stepUpdater 0 d).1.updater = Storage.updating.afterPass 0 rest ∧
        Storage.updating.Rests .epoch (Storage.updating.stepUpdater 0 d).2.store 1 rest := by
  intro d left
  obtain ⟨line, -, hact, -, -, hdrain, hup⟩ := promotion_exact .epoch Database.overdue [] .epoch
  have hone : min 2 line.length = 1 := by
    have hcount : ((d.store.act (.promote .epoch 2)).1.map fun o =>
      match o with | .counted n => n | _ => 0) = .ok 1 := by decide +kernel
    rw [(hact 2).1] at hcount
    exact Except.ok.inj hcount
  have hl : line.length = 1 := by omega
  have hpass := hdrain [1] (by decide) (by rw [hl]; decide)
  rw [hl] at hpass
  have hclock : d.clock = .epoch := by decide +kernel
  have hok : ((Work.transact (Work.promote Storage.updating.ceiling)).on d).1 = .ok 1 := by
    decide +kernel
  rcases hpromote : (Work.transact (Work.promote Storage.updating.ceiling)).on d with ⟨_, d'⟩
  rw [hpromote] at hok
  obtain rfl := hok
  obtain ⟨-, rest, hrest⟩ := hup Storage.updating d d' 1 rfl hclock rfl hpromote
  exact ⟨hpass, by decide +kernel, by decide +kernel, rest, (hrest 0).2⟩

end Resumption
