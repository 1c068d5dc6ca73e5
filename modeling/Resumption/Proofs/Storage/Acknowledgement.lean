import Resumption.Proofs.Storage.WritingInvariant

/-!
# Answers are truthful

What the submitters of commands are told is what became of their commands, whichever calls fail:
**the store is the one that the granted commands make of the store from before, in the order in
which they came, each executed once and with success** (`Writing.acknowledgements_truthful`). So a
command that was refused had no effect. The hypothesis on the environment is that no commit fails
after it took effect (`Database.Timely`, `Writing.Move.Timely`); begins, commits, rollbacks and store
calls may fail otherwise, before or after their effect, and a batching writer may lose its worker.

Nobody who was answered is answered otherwise later, and every submission comes to an end with an
answer once the worker and the submitters have had enough turns (`Writing.Inv.drain`,
`Writing.Inv.receive_all`).
-/

namespace Resumption

namespace Writing

variable {k : Writing} {b : Batcher} {settled turned : List Entry}

/-- The commands that were granted are among those that were answered. -/
theorem Inv.granted (h : k.Inv b settled turned) :
    k.granted = grantedIn (report k.storage settled) := by
  have hand : grantedIn (report k.storage (b.inHand.map .ofSubmitted)) = [] := by
    refine grantedIn_nil fun x hx => ?_
    obtain ⟨e, he, rfl⟩ := List.mem_map.1 hx
    obtain ⟨y, hy, rfl⟩ := List.mem_map.1 he
    have : told k.storage (Entry.ofSubmitted y).progress = none :=
      (told_held h.batcher rfl).trans (h.unanswered y hy)
    rw [this]
    exact fun h => (nomatch h)
  have away : grantedIn (report k.storage turned) = [] := by
    refine grantedIn_nil fun x hx => ?_
    obtain ⟨e, he, rfl⟩ := List.mem_map.1 hx
    rw [h.refused e he]
    exact fun h => (nomatch h)
  rw [Writing.granted, record, h.entries, report, List.map_append, List.map_append, ← report, ← report,
    ← report, grantedIn_append, grantedIn_append, hand, away, List.append_nil, List.append_nil]

/-! ## Along a run -/

/-- The store is what the granted commands make of the store from before. -/
def Truthful (removal : Bool → Prop) (before : Store) (k : Writing) : Prop :=
  k.database.Timely ∧ removal k.storage.access.removeFinished ∧
    before.Takes removal k.granted k.database.store ∧ ∃ b settled turned, k.Inv b settled turned

variable {removal : Bool → Prop} {before : Store}

theorem Truthful.next (h : k.Truthful removal before) {m : Move} (hm : m.Timely)
    (hr : ∀ remove, m = .configure remove → removal remove) :
    (k.next m).Truthful removal before ∧
      (k.next m).entries.map (·.command) = k.entries.map (·.command) ++ m.brought := by
  obtain ⟨ht, hk, hs, b, settled, turned, hc⟩ := h
  obtain ⟨b', settled', turned', done, r, hc', hm', -⟩ := hc.next ht m
  refine ⟨⟨hm'.timely hm ht, ?_, ?_, b', settled', turned', hc'⟩, hm'.commands⟩
  · rw [hm'.removal]
    cases m with
    | configure remove => exact hr remove rfl
    | _ => exact hk
  · rw [hc'.granted, hm'.report, grantedIn_append, ← hc.granted]
    refine hs.append ?_
    rcases r with e | _
    · have : grantedIn (done.map fun c => (c, some (.error e))) = [] :=
        grantedIn_nil fun x hx => by
          obtain ⟨c, -, rfl⟩ := List.mem_map.1 hx
          exact fun h => (nomatch h)
      rw [this, hm'.denied fun h => (nomatch h)]
      exact .nil _
    · rw [grantedIn_ok]
      exact Store.takes_of_executeAll hk (hm'.granted rfl)

theorem Truthful.after (ms : List Move) (h : k.Truthful removal before)
    (hm : ∀ m ∈ ms, m.Timely) (hr : ∀ remove, .configure remove ∈ ms → removal remove) :
    (k.after ms).Truthful removal before ∧
      (k.after ms).entries.map (·.command) =
        k.entries.map (·.command) ++ ms.flatMap Move.brought := by
  induction ms generalizing k with
  | nil => exact ⟨h, (List.append_nil _).symm⟩
  | cons m ms ih =>
    obtain ⟨h₁, hc₁⟩ := h.next (hm m List.mem_cons_self) fun remove he =>
      hr remove (he ▸ List.mem_cons_self)
    obtain ⟨h₂, hc₂⟩ := ih h₁ (fun m h => hm m (List.mem_cons_of_mem _ h)) fun remove h =>
      hr remove (List.mem_cons_of_mem _ h)
    refine ⟨h₂, ?_⟩
    rw [List.flatMap_cons, ← List.append_assoc, ← hc₁]
    exact hc₂

/-! ## Every submission comes to an end -/

/-- A move of the worker or of a submitter. -/
def Move.Serving (m : Move) : Prop := (∃ time, m = .work time) ∨ ∃ place, m = .attend place

theorem Move.Serving.brings_nothing {m : Move} (h : m.Serving) : m.brought = [] := by
  rcases h with ⟨time, rfl⟩ | ⟨place, rfl⟩ <;> rfl

theorem Inv.drain (h : k.Inv b settled turned) (ht : k.database.Timely) :
    ∃ ms b' settled', (∀ m ∈ ms, m.Serving) ∧ (k.after ms).Inv b' settled' turned ∧
      b'.inHand = [] := by
  induction hn : b.distance using Nat.strongRecOn generalizing k b settled with
  | ind n ih =>
    by_cases hi : b.inHand = []
    · exact ⟨[], b, settled, fun m hm => (nomatch hm), h, hi⟩
    obtain ⟨time, hr, hd⟩ := Batcher.step_distance h.sound hi
    obtain ⟨b₁, settled₁, done, r, hc₁, hm₁⟩ := h.work ht time
    have hb₁ : b₁ = (b.step k.storage.access time k.database).1 := by
      have := hc₁.batcher
      simp only [Writing.next, h.batcher, Option.map_some, Option.getD_some, h.free, Option.isNone_none, hr,
        if_true, Cluster.stepWorker, Option.some.injEq] at this
      exact this.symm
    have hlt : b₁.distance < n := by
      rw [hb₁, ← hn]
      exact hd _ _
    obtain ⟨ms, b₂, settled₂, hms, hc₂, hi₂⟩ := ih _ hlt hc₁ (hm₁.timely trivial ht) rfl
    refine ⟨.work time :: ms, b₂, settled₂, fun m hm => ?_, hc₂, hi₂⟩
    rcases List.mem_cons.1 hm with rfl | hm
    · exact .inl ⟨time, rfl⟩
    · exact hms m hm

/-- When nothing is in hand, every submitter comes to be answered. -/
theorem Inv.receive_all (h : k.Inv b settled turned) (hi : b.inHand = []) :
    ∃ ms, (∀ m ∈ ms, m.Serving) ∧ ∀ e ∈ (k.after ms).entries, ∃ r, e.progress = ending r := by
  induction hn : (tickets settled).length using Nat.strongRecOn generalizing k b settled with
  | ind n ih =>
    cases ht : tickets settled with
    | nil =>
      refine ⟨[], fun m hm => (nomatch hm), fun e he => ?_⟩
      rw [show k.after [] = k from rfl, h.entries, hi, List.map_nil, List.append_nil] at he
      rcases List.mem_append.1 he with he | he
      · obtain ⟨r, hr⟩ := Option.isSome_iff_exists.1 (h.answered e he)
        have hnone : ticket? e.progress = none := List.filterMap_eq_nil_iff.1 ht e he
        obtain ⟨t, hs⟩ | hp := told_some hr
        · cases hnone.symm.trans hs
        · exact ⟨r, hp⟩
      · exact ⟨.error .writerClosed, h.refused e he⟩
    | cons t ts =>
      obtain ⟨⟨c, p⟩, he, hp⟩ := List.mem_filterMap.1 (ht ▸ List.mem_cons_self : t ∈ tickets settled)
      obtain ⟨r, hr⟩ := Option.isSome_iff_exists.1 (h.answered _ he)
      cases progress_of_ticket hp
      have hr : b.answer? t = some r := (told_held h.batcher rfl).symm.trans hr
      obtain ⟨pre, post, rfl⟩ := List.append_of_mem he
      obtain ⟨hc, -⟩ := h.received hr
      have hl : (tickets (pre ++ ⟨c, ending r⟩ :: post)).length < n := by
        rw [← hn, tickets_ended, tickets_held, tickets_append]
        simp
      obtain ⟨ms, hms, hes⟩ := ih _ hl hc hi rfl
      refine ⟨.attend pre.length :: ms, fun m hm => ?_, hes⟩
      rcases List.mem_cons.1 hm with rfl | hm
      · exact .inr ⟨_, rfl⟩
      · exact hms m hm

theorem after_still (h : ∀ m : Move, m.Serving → k.next m = k) (ms : List Move)
    (hm : ∀ m ∈ ms, m.Serving) : k.after ms = k := by
  induction ms with
  | nil => rfl
  | cons m ms ih =>
    show (k.next m).after ms = k
    rw [h m (hm m List.mem_cons_self)]
    exact ih fun m h => hm m (List.mem_cons_of_mem _ h)

/-- The worker and the submitters can go on until every submission has ended. -/
theorem Inv.ends (h : k.Inv b settled turned) (ht : k.database.Timely) :
    ∃ ms, (∀ m ∈ ms, m.Serving) ∧ ∀ e ∈ (k.after ms).entries, ∃ r, e.progress = ending r := by
  obtain ⟨ms₁, b', settled', h₁, hk, hi⟩ := h.drain ht
  obtain ⟨ms₂, h₂, he⟩ := hk.receive_all hi
  rw [← after_append] at he
  exact ⟨ms₁ ++ ms₂, fun m hm => (List.mem_append.1 hm).elim (h₁ m) (h₂ m), he⟩

/-- **Truthful answers.** Whichever calls fail, the store is what the granted commands make of the
store from before, in the order in which they came; nobody is answered twice, and no answer is
missing: when the worker and the submitters can do no more, every submission has ended with one, and
they can come to that from everywhere. This holds of a storage with a batching writer at every
moment of every run, and of one without when commands are brought one after the other. -/
theorem acknowledgements_truthful (engine : String) (settings : StorageSettings)
    (batch : BatchSettings) (monitored : Bool) {d : Database} (free : d.held = none)
    (timely : d.Timely) :
    (∀ ms : List Move, (∀ m ∈ ms, m.Timely) →
      let k₀ := create (.create engine settings (some batch) monitored) d
      let k := k₀.after ms
      k.entries.map (·.command) = ms.flatMap Move.brought ∧
      d.store.Takes (k₀.Removal ms) k.granted k.database.store ∧
      (∀ ms', (∀ m ∈ ms', m.Timely) → Grows k.record (k.after ms').record) ∧
      ((∀ m : Move, m.Serving → k.next m = k) → ∀ e ∈ k.entries, ∃ r, e.progress = ending r) ∧
      ∃ ms', (∀ m ∈ ms', m.Serving) ∧
        ∀ e ∈ (k.after ms').entries, ∃ r, e.progress = ending r) ∧
    (∀ cs : List Command,
      let k := oneByOne engine settings monitored d cs
      k.entries.map (·.command) = cs ∧
      d.store.Takes (· = settings.removeFinished) k.granted k.database.store ∧
      (d.Gentle → ∀ e ∈ k.entries, ∃ r, e.progress = ending r)) := by
  refine ⟨fun ms hms => ?_, fun cs => ?_⟩
  · intro k₀ k
    have start : k₀.Truthful (k₀.Removal ms) d.store :=
      ⟨timely, .inl rfl, .nil _, _, _, _, inv_create rfl free⟩
    obtain ⟨⟨ht, -, hs, b, settled, turned, hk⟩, hc⟩ := start.after ms hms fun remove h => .inr h
    obtain ⟨ms', hms', he⟩ := hk.ends ht
    refine ⟨hc, hs, fun ms' hms' => hk.grows ms' ht hms', fun hstill => ?_, ms', hms', he⟩
    rwa [after_still hstill ms' hms'] at he
  · intro k
    obtain ⟨added, hr⟩ := run_oneByOne engine settings monitored free cs
    have he : k.entries = added := hr.entries
    have hg : k.granted = grantedIn (report k.storage added) := by
      rw [granted, record, he]
    refine ⟨he ▸ hr.commands, ?_, fun hd => he ▸ hr.heard hd⟩
    rw [hg, show k.storage = _ from hr.storage]
    exact hr.truthful timely

/-- Two instances are stored, and the first two commits are refused. -/
def refusedCommits : Database :=
  let w (id : Uuid) : Workflow := { Workflow.create "t" .null with id := some id }
  ⟨(Store.empty.insert [w ⟨1⟩, w ⟨2⟩]).2, none, [⟨.commit, false, 0, 2, .refuse "down"⟩], .epoch, []⟩

/-- Two instances are finished, the worker goes on until it is done, and the first submitter looks
for the answer. -/
def finishTwo : List Move :=
  [.bring (.finish ⟨1⟩), .bring (.finish ⟨2⟩), .work 0, .work 0, .work 0, .work 0, .attend 0]

/-- The commit of the batch is refused, and so is that of its first command when it is tried again.
The second command goes well. -/
theorem acknowledgements_truthful_refused_commits :
    refusedCommits.held = none ∧ refusedCommits.Timely ∧ (∀ m ∈ finishTwo, m.Timely) ∧
      let k₀ := create (.create "engine" .standard (some ⟨2, .zero, 10⟩) false) refusedCommits
      refusedCommits.store.Takes (k₀.Removal finishTwo) (k₀.after finishTwo).granted
          (k₀.after finishTwo).database.store ∧
        (k₀.after finishTwo).record = [(.finish ⟨1⟩, some (.error (.database "down"))),
          (.finish ⟨2⟩, some (.ok ()))] := by
  have timely : refusedCommits.Timely := by
    intro f hf _
    rw [List.mem_singleton.1 hf]
  have hms : ∀ m ∈ finishTwo, m.Timely := by
    intro m hm
    simp only [finishTwo, List.mem_cons, List.not_mem_nil, or_false] at hm
    rcases hm with rfl | rfl | rfl | rfl | rfl | rfl | rfl <;> trivial
  have h := (acknowledgements_truthful "engine" .standard ⟨2, .zero, 10⟩ false rfl timely).1
    finishTwo hms
  exact ⟨rfl, timely, hms, h.2.1, by decide +kernel⟩

end Writing

end Resumption
