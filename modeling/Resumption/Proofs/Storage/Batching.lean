import Resumption.Proofs.Storage.Acknowledgement

/-!
# Batching refines one transaction per command

When no call fails, a batching writer does what a storage without one does with the same commands,
one after the other: **at every moment the answers so far are the first of those of the other, the
store is what the other made of the commands answered so far, and in the end both are the same**
(`Writing.batching_refines`). This holds however the commands and the end of the window cut the line
into batches, and whichever commands of a batch are refused.

The writer needs room for a full batch before it begins. When a full batch is so large that there
cannot be room (`Batcher.tooMany`), its worker breaks down at once, and every command is turned
away.
-/

namespace Resumption

namespace Writing

variable {k : Writing} {b : Batcher} {settled turned : List Entry}

/-! ## A worker with room for a full batch -/

/-- The answers so far and the store are those of the answered commands, one after the other. -/
structure Refined (before : Store) (remove : Bool) (batch : BatchSettings) (k : Writing) (b : Batcher)
    (settled : List Entry) : Prop where
  inv : k.Inv b settled []
  quiet : k.database.faults = []
  removal : k.storage.access.removeFinished = remove
  unbroken : b.phase ≠ .broken
  settings : b.settings = batch
  answers : (report k.storage settled).map (·.2) =
    (before.obeyAll remove ((report k.storage settled).map (·.1))).1.map some
  store : k.database.store = (before.obeyAll remove ((report k.storage settled).map (·.1))).2

variable {before : Store} {remove : Bool} {batch : BatchSettings}

theorem Refined.next (h : Refined before remove batch k b settled) {m : Move} (hm : m.Quiet)
    (hb : b.closed = true → m.brought = []) :
    ∃ b' settled', Refined before remove batch (k.next m) b' settled' ∧
      (b'.closed = true → b.closed = true ∨ m = .close) ∧
      (k.next m).entries.map (·.command) = k.entries.map (·.command) ++ m.brought := by
  obtain ⟨b', settled', turned', done, r, hc, hs, ht⟩ :=
    h.inv.next (Database.timely_of_quiet h.quiet) m
  have hu : b'.phase ≠ .broken := fun hp => h.unbroken (hs.broken h.quiet hp)
  have hturned : turned' = [] := by
    by_cases hm : m.brought = []
    · exact ht hm
    · refine Classical.byContradiction fun hn => ?_
      rcases hc.shut hn with hcl | hp
      · rcases hs.closed hcl with hcl | rfl
        · exact hm (hb hcl)
        · exact hm rfl
      · exact hu hp
  subst hturned
  have hrem : (k.next m).storage.access.removeFinished = remove := by
    rw [hs.removal]
    cases m with
    | configure remove => exact absurd hm id
    | _ => exact h.removal
  -- what was settled adds the same to the answers as one command after the other does
  have step : (before.obeyAll remove ((report k.storage settled).map (·.1))).2.obeyAll remove done =
      (done.map fun _ => r, (k.next m).database.store) := by
    rw [← h.store, ← h.removal]
    rcases r with e | _
    · obtain ⟨c, rfl, he⟩ := hs.alone h.quiet e rfl
      rw [Store.obeyAll_of_error he, hs.denied fun h => (nomatch h)]
      rfl
    · exact Store.obeyAll_of_executeAll (hs.granted rfl)
  have hfst : (done.map fun c => (c, some r)).map (·.1) = done := by
    rw [List.map_map]
    exact List.map_id _
  refine ⟨b', settled', ⟨hc, hs.quiet hm h.quiet, hrem, hu, hs.settings.trans h.settings, ?_, ?_⟩,
    hs.closed, hs.commands⟩
  · rw [hs.report, List.map_append, List.map_append, hfst, Store.obeyAll_append, step, h.answers,
      List.map_append, List.map_map, List.map_map]
    rfl
  · rw [hs.report, List.map_append, hfst, Store.obeyAll_append, step]

theorem Refined.after (ms : List Move) (h : Refined before remove batch k b settled)
    (hm : ∀ m ∈ ms, m.Quiet) (hb : b.closed = true → ∀ m ∈ ms, m.brought = [])
    (ho : ms.Pairwise fun m m' => m = .close → m'.brought = []) :
    ∃ b' settled', Refined before remove batch (k.after ms) b' settled' ∧
      (k.after ms).entries.map (·.command) =
        k.entries.map (·.command) ++ ms.flatMap Move.brought := by
  induction ms generalizing k b settled with
  | nil => exact ⟨b, settled, h, (List.append_nil _).symm⟩
  | cons m ms ih =>
    obtain ⟨hom, ho⟩ := List.pairwise_cons.1 ho
    obtain ⟨b₁, settled₁, h₁, hc₁, hs₁⟩ :=
      h.next (hm m List.mem_cons_self) fun hcl => hb hcl m List.mem_cons_self
    have hb₁ : b₁.closed = true → ∀ m ∈ ms, m.brought = [] := by
      intro hcl m' hm'
      rcases hc₁ hcl with hcl | hm
      · exact hb hcl m' (List.mem_cons_of_mem _ hm')
      · exact hom m' hm' hm
    obtain ⟨b₂, settled₂, h₂, hs₂⟩ := ih h₁ (fun m h => hm m (List.mem_cons_of_mem _ h)) hb₁ ho
    refine ⟨b₂, settled₂, h₂, ?_⟩
    rw [List.flatMap_cons, ← List.append_assoc, ← hs₁]
    exact hs₂

/-- The record is the answers of the other storage, then the commands in hand. -/
theorem Refined.record (h : Refined before remove batch k b settled) :
    k.record = report k.storage settled ++ b.inHand.map fun x => (x.command, none) := by
  rw [Writing.record, h.inv.entries, List.append_nil]
  simp only [report, List.map_append, List.map_map]
  congr 1
  refine List.map_congr_left fun x hx => Prod.ext rfl ?_
  have ht : ticket? (Entry.ofSubmitted x).progress = some x.ticket := rfl
  exact (told_held h.inv.batcher ht).trans (h.inv.unanswered x hx)

/-- The record of a storage without a batching writer, when no call fails. -/
theorem oneByOne_quiet (engine : String) (settings : StorageSettings) (monitored : Bool)
    {d : Database} (free : d.held = none) (quiet : d.faults = []) (cs : List Command) :
    (oneByOne engine settings monitored d cs).record =
        cs.zip ((d.store.obeyAll settings.removeFinished cs).1.map some) ∧
      (oneByOne engine settings monitored d cs).database.store =
        (d.store.obeyAll settings.removeFinished cs).2 := by
  obtain ⟨added, hr⟩ := run_oneByOne engine settings monitored free cs
  obtain ⟨ha, hs⟩ := hr.quiet quiet
  refine ⟨?_, hs⟩
  have he : (oneByOne engine settings monitored d cs).record =
      report (Storage.create engine settings none monitored) added := by
    rw [Writing.record, hr.entries, hr.storage]
    rfl
  have hc : (report (Storage.create engine settings none monitored) added).map (·.1) = cs := by
    rw [← hr.commands, report, List.map_map]
    rfl
  rw [he]
  refine List.zip_of_prod hc ?_
  rw [report, List.map_map]
  exact ha

/-- The store is where the other storage has it after the commands that were answered. -/
theorem Refined.oneByOne (engine : String) {settings : StorageSettings} (monitored : Bool)
    {d : Database} (free : d.held = none) (quiet : d.faults = [])
    (h : Refined d.store settings.removeFinished batch k b settled) {cs : List Command}
    (hc : k.entries.map (·.command) = cs) :
    let one := Writing.oneByOne engine settings monitored d
    ∃ n, k.record = (one (cs.take n)).record ++ (cs.drop n).map (·, none) ∧
      k.database.store = (one (cs.take n)).database.store ∧ cs.drop n = b.inHand.map (·.command) := by
  intro one
  have hfst : (report k.storage settled).map (·.1) = settled.map (·.command) := by
    rw [report, List.map_map]
    rfl
  have hcs : cs = settled.map (·.command) ++ b.inHand.map (·.command) := by
    rw [← hc, h.inv.entries, List.append_nil, List.map_append, List.map_map]
    rfl
  have hlen : (settled.map (·.command)).length = settled.length := List.length_map _
  have htake : cs.take settled.length = settled.map (·.command) := by
    rw [hcs, ← hlen, List.take_left]
  have hdrop : cs.drop settled.length = b.inHand.map (·.command) := by
    rw [hcs, ← hlen, List.drop_left]
  obtain ⟨hrec, hstore⟩ :=
    oneByOne_quiet engine settings monitored free quiet (cs.take settled.length)
  refine ⟨settled.length, ?_, ?_, hdrop⟩
  · rw [h.record, hdrop, hrec, htake, List.map_map]
    congr 1
    refine List.zip_of_prod hfst ?_
    rw [h.answers, hfst]
  · rw [hstore, htake, h.store, hfst]

/-- When every submission has ended, nothing is in hand. -/
theorem Inv.hand_nil (h : k.Inv b settled turned)
    (he : ∀ e ∈ k.entries, ∃ r, e.progress = ending r) : b.inHand = [] := by
  refine List.eq_nil_iff_forall_not_mem.2 fun x hx => ?_
  have hm : Entry.ofSubmitted x ∈ k.entries := by
    rw [h.entries]
    exact List.mem_append_left _ (List.mem_append_right _ (List.mem_map_of_mem hx))
  obtain ⟨r, hr⟩ := he _ hm
  rcases r with e | _ <;> cases hr

/-- When every submission has ended, both storages answered the same and have the same store. -/
theorem Refined.ended {engine : String} {settings : StorageSettings} {monitored : Bool}
    {d : Database} (free : d.held = none) (quiet : d.faults = [])
    (h : Refined d.store settings.removeFinished batch k b settled) {cs : List Command}
    (hc : k.entries.map (·.command) = cs) (he : ∀ e ∈ k.entries, ∃ r, e.progress = ending r) :
    k.record = (Writing.oneByOne engine settings monitored d cs).record ∧
      k.database.store = (Writing.oneByOne engine settings monitored d cs).database.store := by
  obtain ⟨n, hr, hs, hd⟩ := h.oneByOne engine monitored free quiet hc
  rw [h.inv.hand_nil he, List.map_nil] at hd
  have ht : cs.take n = cs := List.take_of_length_le (List.drop_eq_nil_iff.1 hd)
  rw [hd, ht, List.map_nil, List.append_nil] at hr
  rw [ht] at hs
  exact ⟨hr, hs⟩

/-! ## A worker without room for a full batch -/

/-- The worker broke down before anything was brought. -/
structure Dead (before : Store) (k : Writing) : Prop where
  broken : ∃ b, k.storage.batcher = some b ∧ b.phase = .broken
  refused : ∀ e ∈ k.entries, e.progress = .over (.refused .writerClosed)
  store : k.database.store = before

theorem Dead.next (h : k.Dead before) (m : Move) :
    (k.next m).Dead before ∧
      (k.next m).entries.map (·.command) = k.entries.map (·.command) ++ m.brought := by
  obtain ⟨⟨b, hb, hp⟩, hr, hs⟩ := h
  cases m with
  | bring c =>
    have hk : k.next (.bring c) = ⟨{ k.storage with batcher := some b }, k.database,
        k.entries ++ [⟨c, .over (.refused .writerClosed)⟩]⟩ := by
      have hs : (b.closed || b.phase == .broken) = true := by simp [hp]
      simp only [Writing.next, Storage.begin, Storage.beginWrite, Storage.enter, hb, Batcher.submit,
        hs, if_true, Option.map_none, Storage.acknowledge]
    rw [hk]
    refine ⟨⟨⟨b, rfl, hp⟩, fun e he => ?_, hs⟩, by rw [List.map_append]; rfl⟩
    rcases List.mem_append.1 he with he | he
    · exact hr e he
    · rw [List.mem_singleton.1 he]
  | attend place =>
    have hk : k.next (.attend place) = k := by
      cases he : k.entries[place]? with
      | none => simp only [Writing.next, he]
      | some e =>
        obtain ⟨c, p⟩ := e
        obtain rfl : p = .over (.refused .writerClosed) := hr _ (List.mem_of_getElem? he)
        simp only [Writing.next, he]
    rw [hk]
    exact ⟨⟨⟨b, hb, hp⟩, hr, hs⟩, (List.append_nil _).symm⟩
  | work time =>
    have hk : k.next (.work time) = k := by
      simp only [Writing.next, hb, Option.map_some, Option.getD_some, Batcher.ready, hp,
        Bool.false_eq_true, if_false]
    rw [hk]
    exact ⟨⟨⟨b, hb, hp⟩, hr, hs⟩, (List.append_nil _).symm⟩
  | close =>
    exact ⟨⟨⟨b.close, by simp only [Writing.next, Storage.begin, hb, Option.map_some], hp⟩, hr, hs⟩,
      (List.append_nil _).symm⟩
  | configure remove => exact ⟨⟨⟨b, hb, hp⟩, hr, hs⟩, (List.append_nil _).symm⟩
  | weather faults clock => exact ⟨⟨⟨b, hb, hp⟩, hr, hs⟩, (List.append_nil _).symm⟩

theorem Dead.after (ms : List Move) (h : k.Dead before) :
    (k.after ms).Dead before ∧
      (k.after ms).entries.map (·.command) =
        k.entries.map (·.command) ++ ms.flatMap Move.brought := by
  induction ms generalizing k with
  | nil => exact ⟨h, (List.append_nil _).symm⟩
  | cons m ms ih =>
    obtain ⟨h₁, hc₁⟩ := h.next m
    obtain ⟨h₂, hc₂⟩ := ih h₁
    refine ⟨h₂, ?_⟩
    rw [List.flatMap_cons, ← List.append_assoc, ← hc₁]
    exact hc₂

theorem Dead.record (h : k.Dead before) :
    k.record = (k.entries.map (·.command)).map (·, some (.error .writerClosed)) := by
  rw [Writing.record, report, List.map_map]
  refine List.map_congr_left fun e he => Prod.ext rfl ?_
  rw [h.refused e he]
  rfl

/-! ## Both -/

theorem Move.Serving.quiet {m : Move} (h : m.Serving) : m.Quiet := by
  rcases h with ⟨time, rfl⟩ | ⟨place, rfl⟩ <;> trivial

/-- The worker and the submitters can go on until every submission has ended. -/
theorem Refined.ends (h : Refined before remove batch k b settled) :
    ∃ ms b' settled', (∀ m ∈ ms, m.Serving) ∧
      (∀ e ∈ (k.after ms).entries, ∃ r, e.progress = ending r) ∧
      Refined before remove batch (k.after ms) b' settled' ∧
      (k.after ms).entries.map (·.command) = k.entries.map (·.command) := by
  obtain ⟨ms, hserve, he⟩ := h.inv.ends (Database.timely_of_quiet h.quiet)
  have hnone : ms.flatMap Move.brought = [] :=
    List.flatMap_eq_nil_iff.2 fun m hm => (hserve m hm).brings_nothing
  obtain ⟨b', settled', hk, hc⟩ := h.after ms (fun m hm => (hserve m hm).quiet)
    (fun _ m hm => (hserve m hm).brings_nothing)
    (List.pairwise_of_forall_mem_list fun _ _ m hm _ => (hserve m hm).brings_nothing)
  rw [hnone, List.append_nil] at hc
  exact ⟨ms, b', settled', hserve, he, hk, hc⟩

/-- **Refinement.** When no call fails and nothing is brought to a writer that was closed, a storage
with a batching writer answers as one without it does, one command after the other, and has the
same store: for the commands answered so far at every moment, and for all commands when the worker
and the submitters can do no more, to which they can come from everywhere. No batch is larger than
it may be. A writer that has no room for a full batch turns everything away. -/
theorem batching_refines (engine : String) (settings : StorageSettings) (batch : BatchSettings)
    (monitored : Bool) {d : Database} (free : d.held = none) (quiet : d.faults = [])
    {ms : List Move} (calm : ∀ m ∈ ms, m.Quiet)
    (orderly : ms.Pairwise fun m m' => m = .close → m'.brought = []) :
    let k := (create (.create engine settings (some batch) monitored) d).after ms
    let cs := ms.flatMap Move.brought
    let one := oneByOne engine settings monitored d
    if Batcher.tooMany ≤ batch.maxBatch.toNat then
      k.record = cs.map (·, some (.error .writerClosed)) ∧ k.database.store = d.store
    else
      (∃ n, k.record = (one (cs.take n)).record ++ (cs.drop n).map (·, none) ∧
        k.database.store = (one (cs.take n)).database.store) ∧
      (∀ b, k.storage.batcher = some b → b.phase.held.length ≤ max 1 batch.maxBatch.toNat) ∧
      (∀ ms', (∀ m ∈ ms', m.Timely) → Grows k.record (k.after ms').record) ∧
      ((∀ m : Move, m.Serving → k.next m = k) →
        k.record = (one cs).record ∧ k.database.store = (one cs).database.store) ∧
      ∃ ms', (∀ m ∈ ms', m.Serving) ∧ (∀ e ∈ (k.after ms').entries, ∃ r, e.progress = ending r) ∧
        (k.after ms').record = (one cs).record ∧
        (k.after ms').database.store = (one cs).database.store := by
  intro k cs one
  split
  · rename_i hbig
    have start : (create (.create engine settings (some batch) monitored) d).Dead d.store :=
      ⟨⟨_, rfl, by rw [Batcher.create, if_pos hbig]⟩, fun e he => (nomatch he), rfl⟩
    obtain ⟨hk, hc⟩ := start.after ms
    exact ⟨by rw [hk.record, hc]; rfl, hk.store⟩
  · rename_i hroom
    have start : Refined d.store settings.removeFinished batch
        (create (.create engine settings (some batch) monitored) d) (.create batch) [] :=
      ⟨inv_create rfl free, quiet, rfl, by simp [Batcher.create, hroom], rfl, rfl, rfl⟩
    obtain ⟨b, settled, hk, hc⟩ := start.after ms calm (fun h => nomatch h) orderly
    have hc : k.entries.map (·.command) = cs := hc
    have ht : k.database.Timely := Database.timely_of_quiet hk.quiet
    obtain ⟨ms', b₂, settled₂, hserve, he, hk₂, hc₂⟩ := hk.ends
    have hend : (k.after ms').record = (one cs).record ∧
        (k.after ms').database.store = (one cs).database.store :=
      hk₂.ended free quiet (hc₂.trans hc) he
    refine ⟨?_, fun b' hb' => ?_, fun ms' hms' => hk.inv.grows ms' ht hms', fun hstill => ?_,
      ms', hserve, he, hend⟩
    · obtain ⟨n, hr, hs, -⟩ := hk.oneByOne _ _ free quiet hc
      exact ⟨n, hr, hs⟩
    · obtain rfl : b' = b := Option.some.inj (hb'.symm.trans hk.inv.batcher)
      have := hk.inv.sound.fits
      rwa [Batcher.most, hk.settings] at this
    · rwa [after_still hstill ms' hserve] at hend

/-- One instance is stored, and no call fails. -/
def oneStored : Database :=
  ⟨(Store.empty.insert [{ Workflow.create "t" .null with id := some ⟨1⟩ }]).2, none, [], .epoch, []⟩

/-- An instance that is not there is finished, then one that is. The worker takes both, tries them
together and then one by one, and is interrupted before the second. -/
def badThenGood : List Move :=
  [.bring (.finish ⟨2⟩), .bring (.finish ⟨1⟩), .work 0, .work 0, .work 0]

theorem batching_refines_badThenGood :
    let k := (create (.create "engine" .standard (some ⟨2, .zero, 10⟩) false) oneStored).after
      badThenGood
    let cs := badThenGood.flatMap Move.brought
    let one := oneByOne "engine" .standard false oneStored
    oneStored.held = none ∧ oneStored.faults = [] ∧ (∀ m ∈ badThenGood, m.Quiet) ∧
      (badThenGood.Pairwise fun m m' => m = .close → m'.brought = []) ∧
      (∃ n, k.record = (one (cs.take n)).record ++ (cs.drop n).map (·, none) ∧
        k.database.store = (one (cs.take n)).database.store) ∧
      k.record = [(.finish ⟨2⟩, some (.error (.instanceNotFound ⟨2⟩))), (.finish ⟨1⟩, none)] := by
  have calm : ∀ m ∈ badThenGood, m.Quiet := by
    intro m hm
    simp only [badThenGood, List.mem_cons, List.not_mem_nil, or_false] at hm
    rcases hm with rfl | rfl | rfl | rfl | rfl <;> trivial
  have orderly : badThenGood.Pairwise fun m m' => m = .close → m'.brought = [] := by
    simp [badThenGood]
  have h := batching_refines "engine" .standard ⟨2, .zero, 10⟩ false (d := oneStored) rfl rfl calm
    orderly
  rw [if_neg (by decide)] at h
  exact ⟨rfl, rfl, calm, orderly, h.1, by decide +kernel⟩

/-- A full batch of `2 ^ 63` commands leaves no room, and the one instance that is stored is not
finished, as it is without a batching writer. -/
theorem oversized_batch_refuses :
    let batch : BatchSettings := ⟨9223372036854775808, .zero, 10⟩
    let k := (create (.create "engine" .standard (some batch) false) oneStored).after
      [.bring (.finish ⟨1⟩)]
    let one := oneByOne "engine" .standard false oneStored [.finish ⟨1⟩]
    k.record = [(.finish ⟨1⟩, some (.error .writerClosed))] ∧
      one.record = [(.finish ⟨1⟩, some (.ok ()))] ∧
      k.database.store ≠ one.database.store := by
  decide +kernel

end Writing

end Resumption
