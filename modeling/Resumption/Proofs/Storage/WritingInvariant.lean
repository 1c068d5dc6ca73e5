import Mathlib.Data.List.Nodup
import Resumption.Proofs.Storage.Worker

/-!
# The invariant of writing in batches

`Writing.Inv` is the invariant with a batching writer: the entries are those that were answered,
then those in hand, in line under the tickets that their submitters hold, then those that
were turned away. **Every move keeps it and settles commands in the order in which they came**
(`Writing.Inv.next`): it settles some of those in hand from the front, all with one answer, and
nobody who was told something is told anything else later.
-/

namespace Resumption

namespace Writing

def ticket? : Storage.Progress → Option Nat
  | .going (.writing .plain (.inLine ticket)) => some ticket
  | _ => none

def tickets (es : List Entry) : List Nat := es.filterMap fun e => ticket? e.progress

/-- The entry of a command that was put in line. -/
def Entry.ofSubmitted (x : Submitted) : Entry :=
  ⟨x.command, .going (.writing .plain (.inLine x.ticket))⟩

theorem tickets_append (es es' : List Entry) : tickets (es ++ es') = tickets es ++ tickets es' :=
  List.filterMap_append

theorem tickets_ofSubmitted (xs : List Submitted) :
    tickets (xs.map .ofSubmitted) = xs.map (·.ticket) := by
  induction xs with
  | nil => rfl
  | cons x xs ih => exact congrArg (x.ticket :: ·) ih

/-- What is told depends on the answer under the ticket alone. -/
theorem told_congr {s s' : Storage} {p : Storage.Progress}
    (h : ∀ t, ticket? p = some t →
      (s.batcher.bind fun b => b.answer? t) = s'.batcher.bind fun b => b.answer? t) :
    told s p = told s' p := by
  unfold told
  split
  · rfl
  · rfl
  · exact h _ rfl
  · rfl

theorem told_held {s : Storage} {b : Batcher} (hb : s.batcher = some b) {p : Storage.Progress}
    {t : Nat} (h : ticket? p = some t) : told s p = b.answer? t := by
  unfold ticket? at h
  split at h
  · cases h
    simp only [told, hb, Option.bind_some]
  · cases h

theorem progress_of_ticket {p : Storage.Progress} {t : Nat} (h : ticket? p = some t) :
    p = .going (.writing .plain (.inLine t)) := by
  unfold ticket? at h
  split at h <;> cases h
  rfl

/-- Whoever was told something holds a ticket, or the submission is over. -/
theorem told_some {s : Storage} {p : Storage.Progress} {r : Except StoreError Unit}
    (h : told s p = some r) : (∃ t, ticket? p = some t) ∨ p = ending r := by
  unfold told at h
  split at h
  · cases h; exact .inr rfl
  · cases h; exact .inr rfl
  · exact .inl ⟨_, rfl⟩
  · cases h

/-- What was told stays told. -/
def Grows (l l' : List (Command × Option (Except StoreError Unit))) : Prop :=
  ∀ (i : Nat) (c : Command) (r : Except StoreError Unit), l[i]? = some (c, some r) → l'[i]? = some (c, some r)

theorem Grows.refl (l : List (Command × Option (Except StoreError Unit))) : Grows l l :=
  fun _ _ _ h => h

theorem Grows.trans {l₁ l₂ l₃ : List (Command × Option (Except StoreError Unit))}
    (h : Grows l₁ l₂) (h' : Grows l₂ l₃) : Grows l₁ l₃ := fun i c r hi => h' i c r (h i c r hi)

theorem grows_report {s s' : Storage} {es : List Entry} (new : List Entry)
    (h : ∀ e ∈ es, ∀ r, told s e.progress = some r → told s' e.progress = some r) :
    Grows (report s es) (report s' (es ++ new)) := by
  intro i c r hi
  rw [report, List.getElem?_map, Option.map_eq_some_iff] at hi
  obtain ⟨e, he, hc⟩ := hi
  obtain ⟨hl, -⟩ := List.getElem?_eq_some_iff.1 he
  rw [report, List.getElem?_map, List.getElem?_append_left hl, he]
  obtain ⟨rfl, hr⟩ := Prod.mk.inj hc
  exact congrArg some (Prod.ext rfl (h e (List.mem_of_getElem? he) r hr))

/-- With a batching writer, the entries are those that were answered, those in hand, and those that
were turned away. -/
structure Inv (k : Writing) (b : Batcher) (settled turned : List Entry) : Prop where
  batcher : k.storage.batcher = some b
  free : k.database.held = none
  sound : b.Sound
  entries : k.entries = settled ++ b.inHand.map .ofSubmitted ++ turned
  answered : ∀ e ∈ settled, (told k.storage e.progress).isSome
  refused : ∀ e ∈ turned, e.progress = .over (.refused .writerClosed)
  shut : turned ≠ [] → b.closed = true ∨ b.phase = .broken
  nodup : (tickets k.entries).Nodup
  issued : ∀ t ∈ tickets k.entries, t < b.issued
  fresh : ∀ x ∈ b.answers, x.1 < b.issued
  unanswered : ∀ x ∈ b.inHand, b.answer? x.ticket = none

def Move.brought : Move → List Command
  | .bring c => [c]
  | _ => []

def Move.removal (before : Bool) : Move → Bool
  | .configure remove => remove
  | _ => before

/-- No call is planned to fail, and the setting for removal stays. -/
def Move.Quiet : Move → Prop
  | .weather faults _ => faults = []
  | .configure _ => False
  | _ => True

/-- What a move does: it settles some commands, all with the same answer. -/
structure Settles (k : Writing) (b : Batcher) (settled : List Entry) (m : Move) (done : List Command)
    (r : Except StoreError Unit) (k' : Writing) (b' : Batcher) (settled' : List Entry) : Prop where
  report : report k'.storage settled' =
    report k.storage settled ++ done.map fun c => (c, some r)
  granted : r = .ok () → k.database.store.executeAll k.storage.access.removeFinished done =
    (.ok (), k'.database.store)
  denied : r ≠ .ok () → k'.database.store = k.database.store
  alone : k.database.faults = [] → ∀ e, r = .error e →
    ∃ c, done = [c] ∧ (k.database.store.execute k.storage.access.removeFinished c).1 = .error e
  grows : Grows k.record k'.record
  commands : k'.entries.map (·.command) = k.entries.map (·.command) ++ m.brought
  removal : k'.storage.access.removeFinished = m.removal k.storage.access.removeFinished
  timely : m.Timely → k.database.Timely → k'.database.Timely
  quiet : m.Quiet → k.database.faults = [] → k'.database.faults = []
  broken : k.database.faults = [] → b'.phase = .broken → b.phase = .broken
  settings : b'.settings = b.settings
  closed : b'.closed = true → b.closed = true ∨ m = .close

variable {k : Writing} {b : Batcher} {settled turned : List Entry}

/-- A move that settles nothing and leaves the answers and the store alone. -/
theorem Settles.still (new : List Entry) {m : Move} {k' : Writing} {b' : Batcher}
    (told : ∀ p, told k'.storage p = told k.storage p)
    (entries : k'.entries = k.entries ++ new) (commands : new.map (·.command) = m.brought)
    (store : k'.database.store = k.database.store)
    (removal : k'.storage.access.removeFinished = m.removal k.storage.access.removeFinished)
    (timely : m.Timely → k.database.Timely → k'.database.Timely)
    (quiet : m.Quiet → k.database.faults = [] → k'.database.faults = [])
    (phase : b'.phase = b.phase) (settings : b'.settings = b.settings)
    (closed : b'.closed = true → b.closed = true ∨ m = .close) :
    Settles k b settled m [] (.ok ()) k' b' settled := by
  refine ⟨?_, fun _ => by rw [store]; rfl, fun h => absurd rfl h, fun _ _ h => (nomatch h), ?_, ?_,
    removal, timely, quiet, fun _ h => phase ▸ h, settings, closed⟩
  · simp only [Writing.report, told, List.map_nil, List.append_nil]
  · rw [record, record, entries]
    exact grows_report new fun e _ r hr => (told e.progress).trans hr
  · rw [entries, List.map_append, commands]

theorem Inv.configure (h : k.Inv b settled turned) (remove : Bool) :
    (k.next (.configure remove)).Inv b settled turned ∧
      Settles k b settled (.configure remove) [] (.ok ()) (k.next (.configure remove)) b
        settled := by
  have ht : ∀ p, told (k.next (.configure remove)).storage p = told k.storage p :=
    fun p => told_congr fun _ _ => rfl
  exact ⟨⟨h.batcher, h.free, h.sound, h.entries, fun e he => ht _ ▸ h.answered e he, h.refused,
    h.shut, h.nodup, h.issued, h.fresh, h.unanswered⟩,
    .still [] ht (List.append_nil _).symm rfl rfl rfl (fun _ => id) (fun _ => id) rfl rfl
      .inl⟩

theorem Inv.weather (h : k.Inv b settled turned) (faults : List Fault) (clock : Instant) :
    (k.next (.weather faults clock)).Inv b settled turned ∧
      Settles k b settled (.weather faults clock) [] (.ok ()) (k.next (.weather faults clock)) b
        settled :=
  ⟨⟨h.batcher, h.free, h.sound, h.entries, h.answered, h.refused, h.shut, h.nodup, h.issued, h.fresh,
    h.unanswered⟩,
    .still [] (fun _ => rfl) (List.append_nil _).symm rfl rfl rfl (fun hm _ => hm)
      (fun hm _ => hm) rfl rfl .inl⟩

/-- A writer that is closed has the same commands in hand. -/
theorem Inv.close (h : k.Inv b settled turned) :
    (k.next .close).Inv b.close settled turned ∧
      Settles k b settled .close [] (.ok ()) (k.next .close) b.close settled := by
  have ht : ∀ p, told (k.next .close).storage p = told k.storage p :=
    fun p => told_congr fun t _ => by simp [next, Storage.begin, h.batcher, Batcher.close, Batcher.answer?]
  have hb : (k.next .close).storage.batcher = some b.close := by
    simp only [next, Storage.begin, h.batcher, Option.map_some]
  exact ⟨⟨hb, h.free, ⟨h.sound.drained, fun _ => rfl, h.sound.fits, h.sound.room⟩, h.entries,
    fun e he => ht _ ▸ h.answered e he, h.refused, fun _ => .inl rfl, h.nodup, h.issued, h.fresh,
    h.unanswered⟩,
    .still [] ht (List.append_nil _).symm rfl rfl rfl (fun _ => id) (fun _ => id) rfl rfl
      fun _ => .inr rfl⟩

/-- A writer that takes no more turns a command away on the spot. -/
theorem Inv.turnAway (h : k.Inv b settled turned)
    (hs : b.closed = true ∨ b.phase = .broken) (c : Command) :
    ∃ b' turned', (k.next (.bring c)).Inv b' settled turned' ∧
      Settles k b settled (.bring c) [] (.ok ()) (k.next (.bring c)) b' settled := by
  have hk : k.next (.bring c) = ⟨{ k.storage with batcher := some b }, k.database,
      k.entries ++ [⟨c, .over (.refused .writerClosed)⟩]⟩ := by
    have hs : (b.closed || b.phase == .broken) = true := by simpa using hs
    simp only [next, Storage.begin, Storage.beginWrite, Storage.enter, h.batcher, Batcher.submit,
      hs, if_true, Option.map_none, Storage.acknowledge]
  have ht : ∀ p, told (k.next (.bring c)).storage p = told k.storage p :=
    fun p => told_congr fun t _ => by rw [hk, h.batcher]
  have hn : tickets (k.entries ++ [⟨c, .over (.refused .writerClosed)⟩]) = tickets k.entries := by
    rw [tickets_append]
    exact List.append_nil _
  rw [hk] at ht ⊢
  refine ⟨b, turned ++ [⟨c, .over (.refused .writerClosed)⟩],
    ⟨rfl, h.free, h.sound, ?_, fun e he => ht _ ▸ h.answered e he, ?_, fun _ => hs, hn ▸ h.nodup,
      hn ▸ h.issued, h.fresh, h.unanswered⟩,
    .still _ ht rfl rfl rfl rfl (fun _ => id) (fun _ => id) rfl rfl .inl⟩
  · simp only [h.entries, List.append_assoc]
  · intro e he
    rcases List.mem_append.1 he with he | he
    · exact h.refused e he
    · rw [List.mem_singleton.1 he]

/-- An open writer puts a command in line under a fresh ticket. -/
theorem Inv.admit (h : k.Inv b settled turned)
    (hs : ¬ (b.closed = true ∨ b.phase = .broken)) (c : Command) :
    ∃ b' turned', (k.next (.bring c)).Inv b' settled turned' ∧
      Settles k b settled (.bring c) [] (.ok ()) (k.next (.bring c)) b' settled := by
  have hc : b.closed = false := by simpa using fun hc => hs (.inl hc)
  have hp : b.phase ≠ .broken := fun hp => hs (.inr hp)
  have hu : turned = [] := Classical.byContradiction fun hu => hs (h.shut hu)
  let x : Submitted := ⟨b.issued, c⟩
  let b' : Batcher := { b with issued := b.issued + 1, queue := b.queue ++ [x] }
  have hk : k.next (.bring c) = ⟨{ k.storage with batcher := some b' }, k.database,
      k.entries ++ [.ofSubmitted x]⟩ := by
    have hs : (b.closed || b.phase == .broken) = false := by simp [hc, hp]
    simp only [next, Storage.begin, Storage.beginWrite, Storage.enter, h.batcher, Batcher.submit,
      hs, Bool.false_eq_true, if_false, Option.map_some]
    rfl
  have ht : ∀ p, told (k.next (.bring c)).storage p = told k.storage p :=
    fun p => told_congr fun t _ => by rw [hk, h.batcher]; rfl
  have hn : tickets (k.entries ++ [.ofSubmitted x]) = tickets k.entries ++ [b.issued] := by
    rw [tickets_append]
    rfl
  have hi : b'.inHand = b.inHand ++ [x] := (List.append_assoc _ _ _).symm
  have ho : b'.isOver = false := by
    have he : b.phase ≠ .ended := fun he => by rw [h.sound.ended he] at hc; cases hc
    show (b.phase == .ended || b.phase == .broken) = false
    simp [he, hp]
  rw [hk] at ht ⊢
  refine ⟨b', [], ⟨rfl, h.free, ⟨fun hb => absurd (ho.symm.trans hb) Bool.false_ne_true, h.sound.ended, h.sound.fits,
      h.sound.room⟩, ?_, fun e he => ht _ ▸ h.answered e he,
      List.forall_mem_nil _, fun hu => absurd rfl hu, ?_, ?_, fun y hy => Nat.lt_succ_of_lt (h.fresh y hy), ?_⟩,
    .still _ ht rfl rfl rfl rfl (fun _ => id) (fun _ => id) rfl rfl .inl⟩
  · simp only [h.entries, hu, hi, List.map_append, List.append_nil, List.append_assoc]
    rfl
  · rw [hn]
    refine List.nodup_append.2 ⟨h.nodup, by simp, ?_⟩
    rintro t hm _ hb rfl
    rw [List.mem_singleton.1 hb] at hm
    exact Nat.lt_irrefl _ (h.issued _ hm)
  · intro t hm
    rw [hn] at hm
    rcases List.mem_append.1 hm with hm | hm
    · exact Nat.lt_succ_of_lt (h.issued t hm)
    · rw [List.mem_singleton.1 hm]
      exact Nat.lt_succ_self _
  · intro y hy
    rw [hi] at hy
    rcases List.mem_append.1 hy with hy | hy
    · exact h.unanswered y hy
    · rw [List.mem_singleton.1 hy]
      refine List.lookup_eq_none_iff.2 fun a ha => ?_
      exact bne_iff_ne.2 (Nat.ne_of_gt (h.fresh a ha))

theorem lookup_ticket {xs : List Submitted} {x : Submitted} (h : x ∈ xs)
    (r : Except StoreError Unit) :
    (xs.map fun y => (y.ticket, r)).lookup x.ticket = some r := by
  induction xs with
  | nil => cases h
  | cons y ys ih =>
    rw [List.map_cons, List.lookup_cons]
    split
    · rfl
    · rename_i hn
      rcases List.mem_cons.1 h with rfl | h
      · simp at hn
      · exact ih h

theorem Inv.hand_nodup (h : k.Inv b settled turned) : (b.inHand.map (·.ticket)).Nodup := by
  have := h.nodup
  rw [h.entries, tickets_append, tickets_append, tickets_ofSubmitted] at this
  exact (List.nodup_append.1 (List.nodup_append.1 this).1).2.1

theorem Inv.hand_issued (h : k.Inv b settled turned) {x : Submitted} (hx : x ∈ b.inHand) :
    x.ticket < b.issued := by
  refine h.issued _ ?_
  rw [h.entries, tickets_append, tickets_append, tickets_ofSubmitted]
  exact List.mem_append_left _ (List.mem_append_right _ (List.mem_map_of_mem hx))

/-- What the worker settles is answered, and what it keeps in hand is not. -/
theorem Inv.served (h : k.Inv b settled turned) {a : Access} {d d' : Database}
    {done : List Submitted} {r : Except StoreError Unit} {b' : Batcher}
    (hs : Batcher.Served a b d done r b' d') :
    (∀ t v, b.answer? t = some v → b'.answer? t = some v) ∧
      (∀ x ∈ done, b'.answer? x.ticket = some r) ∧
      ∀ x ∈ b'.inHand, b'.answer? x.ticket = none := by
  have ha : ∀ t, b'.answer? t =
      (b.answer? t).or ((done.map fun x => (x.ticket, r)).lookup t) := by
    intro t
    rw [Batcher.answer?, hs.answers, List.lookup_append]
    rfl
  have hu : ∀ x ∈ b.inHand, b.answer? x.ticket = none := h.unanswered
  rw [hs.hand] at hu
  refine ⟨fun t v hv => by rw [ha, hv, Option.some_or], fun x hx => ?_, fun x hx => ?_⟩
  · rw [ha, hu x (List.mem_append_left _ hx), Option.none_or, lookup_ticket hx]
  · rw [ha, hu x (List.mem_append_right _ hx), Option.none_or, List.lookup_eq_none_iff]
    have hn := h.hand_nodup
    rw [hs.hand, List.map_append] at hn
    intro y hy
    obtain ⟨z, hz, rfl⟩ := List.mem_map.1 hy
    have := (List.nodup_append.1 hn).2.2 _ (List.mem_map_of_mem hz) _ (List.mem_map_of_mem hx)
    simpa using Ne.symm this

section
variable {d d' : Database} {done : List Submitted} {r : Except StoreError Unit} {b' : Batcher}

/-- Whoever was told something is told the same when the worker has settled commands, and those who
submitted them are told its answer. -/
theorem Inv.told_served (h : k.Inv b settled turned) {a : Access}
    (hs : Batcher.Served a b d done r b' d') :
    (∀ p v, told k.storage p = some v →
        told { k.storage with batcher := some b' } p = some v) ∧
      ∀ x ∈ done,
        told { k.storage with batcher := some b' } (Entry.ofSubmitted x).progress = some r := by
  obtain ⟨hkeep, hdone, -⟩ := h.served hs
  refine ⟨fun p v hv => ?_, fun x hx => (told_held rfl rfl).trans (hdone x hx)⟩
  cases hp : ticket? p with
  | none => exact (told_congr fun t ht => by rw [hp] at ht; cases ht).trans hv
  | some t =>
    rw [told_held rfl hp]
    exact hkeep t v ((told_held h.batcher hp) ▸ hv)

theorem Inv.same_served (h : k.Inv b settled turned) {a : Access}
    (hs : Batcher.Served a b d done r b' d') {e : Entry} (he : e ∈ settled) :
    told { k.storage with batcher := some b' } e.progress = told k.storage e.progress := by
  obtain ⟨v, hv⟩ := Option.isSome_iff_exists.1 (h.answered e he)
  rw [hv, (h.told_served hs).1 _ v hv]

theorem Inv.worked (h : k.Inv b settled turned)
    (hs : Batcher.Served k.storage.access b k.database done r b' d') (hb : b'.Sound)
    (hp : b.phase ≠ .broken) :
    Inv ⟨{ k.storage with batcher := some b' }, d', k.entries⟩ b'
      (settled ++ done.map .ofSubmitted) turned := by
  refine ⟨rfl, hs.aside.held.trans h.free, hb, ?_, fun e he => ?_, h.refused, fun hu => ?_, h.nodup,
    fun t hm => ?_, fun y hy => ?_, (h.served hs).2.2⟩
  · rw [h.entries, hs.hand, List.map_append]
    simp only [List.append_assoc]
  · rcases List.mem_append.1 he with he | he
    · exact h.same_served hs he ▸ h.answered e he
    · obtain ⟨x, hx, rfl⟩ := List.mem_map.1 he
      rw [(h.told_served hs).2 x hx]
      rfl
  · exact .inl (hs.closed.trans ((h.shut hu).resolve_right hp))
  · rw [hs.issued]
    exact h.issued t hm
  · rw [hs.issued]
    rw [hs.answers] at hy
    rcases List.mem_append.1 hy with hy | hy
    · exact h.fresh y hy
    · obtain ⟨x, hx, rfl⟩ := List.mem_map.1 hy
      exact h.hand_issued (hs.hand ▸ List.mem_append_left _ hx)

theorem Inv.settles (h : k.Inv b settled turned)
    (hs : Batcher.Served k.storage.access b k.database done r b' d') (time : Nat) :
    Settles k b settled (.work time) (done.map (·.command)) r
      ⟨{ k.storage with batcher := some b' }, d', k.entries⟩ b'
      (settled ++ done.map .ofSubmitted) := by
  obtain ⟨hgrow, htold⟩ := h.told_served hs
  refine ⟨?_, hs.granted, hs.denied, fun hf e he => ?_, ?_, (List.append_nil _).symm, rfl,
    fun _ => hs.aside.timely, fun _ => hs.aside.quiet, hs.broken, hs.settings,
    fun hc => .inl (hs.closed ▸ hc)⟩
  · simp only [Writing.report, List.map_append, List.map_map]
    congr 1
    · exact List.map_congr_left fun e he => Prod.ext rfl (h.same_served hs he)
    · exact List.map_congr_left fun x hx => Prod.ext rfl (htold x hx)
  · obtain ⟨x, hx, hc⟩ := hs.alone hf e he
    exact ⟨x.command, by rw [hx]; rfl, hc⟩
  · have : Grows (Writing.report k.storage k.entries)
        (Writing.report { k.storage with batcher := some b' } (k.entries ++ [])) :=
      grows_report [] fun e _ => hgrow e.progress
    rwa [List.append_nil] at this

end

/-- The worker settles commands in the order in which they stand in line. -/
theorem Inv.work (h : k.Inv b settled turned) (ht : k.database.Timely) (time : Nat) :
    ∃ b' settled' done r, (k.next (.work time)).Inv b' settled' turned ∧
      Settles k b settled (.work time) done r (k.next (.work time)) b' settled' := by
  by_cases hr : b.ready time k.database.held.isNone = true
  · obtain ⟨done, r, hs, hb⟩ := Batcher.step_served (a := k.storage.access) h.sound hr ht
    rcases hx : b.step k.storage.access time k.database with ⟨b', d'⟩
    rw [hx] at hs hb
    have hk : k.next (.work time) = ⟨{ k.storage with batcher := some b' }, d', k.entries⟩ := by
      simp only [next, h.batcher, Option.map_some, Option.getD_some, hr, if_true,
        Cluster.stepWorker, hx]
    have hp : b.phase ≠ .broken := fun hp => by rw [Batcher.ready, hp] at hr; cases hr
    rw [hk]
    exact ⟨b', _, _, r, h.worked hs hb hp, h.settles hs time⟩
  · have hk : k.next (.work time) = k := by
      simp only [next, h.batcher, Option.map_some, Option.getD_some, hr, Bool.false_eq_true,
        if_false]
    rw [hk]
    exact ⟨b, settled, [], .ok (), h, .still [] (fun _ => rfl) (List.append_nil _).symm rfl
      rfl rfl (fun _ => id) (fun _ => id) rfl rfl .inl⟩

/-! ### Receiving an answer -/

theorem ticket?_ending (r : Except StoreError Unit) : ticket? (ending r) = none := by
  rcases r with e | _ <;> rfl

theorem tickets_ended (pre post : List Entry) (c : Command) (r : Except StoreError Unit) :
    tickets (pre ++ ⟨c, ending r⟩ :: post) = tickets (pre ++ post) := by
  rw [tickets_append, tickets_append]
  simp only [tickets, List.filterMap_cons, ticket?_ending]

theorem tickets_held (pre post : List Entry) (c : Command) (t : Nat) :
    tickets (pre ++ ⟨c, .going (.writing .plain (.inLine t))⟩ :: post) =
      tickets pre ++ t :: tickets post := tickets_append _ _

theorem answer?_forget {b : Batcher} {t u : Nat} (h : u ≠ t) :
    (b.forget t).answer? u = b.answer? u := by
  unfold Batcher.answer? Batcher.forget
  induction b.answers with
  | nil => rfl
  | cons a as ih =>
    rw [List.filter_cons]
    split
    · rw [List.lookup_cons, List.lookup_cons, ih]
    · rename_i ha
      have ha : (u == a.1) = false := by
        have ha : a.1 = t := by simpa using ha
        simp [ha, h]
      rw [List.lookup_cons, ih, ha]

/-- A submission without an answer in line cannot go on. -/
theorem Inv.idle (h : k.Inv b settled turned) {place : Nat} {e : Entry}
    (he : e ∈ b.inHand.map .ofSubmitted ++ turned) (hk : k.entries[place]? = some e) :
    k.next (.attend place) = k := by
  rcases List.mem_append.1 he with he | he
  · obtain ⟨x, hx, rfl⟩ := List.mem_map.1 he
    have hr : k.storage.ready k.database.held.isNone (.writing .plain (.inLine x.ticket)) =
        false := by
      simp only [Storage.ready, h.batcher, Option.bind_some, h.unanswered x hx, Option.isSome_none]
    simp only [next, hk, Entry.ofSubmitted, hr, Bool.false_eq_true, if_false]
  · obtain ⟨c, p⟩ := e
    obtain rfl : p = .over (.refused .writerClosed) := h.refused _ he
    simp only [next, hk]

theorem Inv.receive {pre post : List Entry} {c : Command} {t : Nat} {r : Except StoreError Unit}
    (h : k.Inv b (pre ++ ⟨c, .going (.writing .plain (.inLine t))⟩ :: post) turned)
    (hr : b.answer? t = some r) :
    k.next (.attend pre.length) = ⟨{ k.storage with batcher := some (b.forget t) }, k.database,
      pre ++ ⟨c, ending r⟩ :: (post ++ (b.inHand.map .ofSubmitted ++ turned))⟩ := by
  have he : k.entries = pre ++ ⟨c, .going (.writing .plain (.inLine t))⟩ ::
      (post ++ (b.inHand.map .ofSubmitted ++ turned)) := by
    simp only [h.entries, List.append_assoc, List.cons_append]
  have hk : k.entries[pre.length]? = some ⟨c, .going (.writing .plain (.inLine t))⟩ := by
    simp [he]
  have hready : k.storage.ready k.database.held.isNone (.writing .plain (.inLine t)) = true := by
    simp only [Storage.ready, h.batcher, Option.bind_some, hr, Option.isSome_some]
  have hset : k.entries.set pre.length ⟨c, ending r⟩ =
      pre ++ ⟨c, ending r⟩ :: (post ++ (b.inHand.map .ofSubmitted ++ turned)) := by
    simp [he]
  simp only [next, hk, hready, if_true, Storage.advance, Storage.write, h.batcher, Option.bind_some,
    hr, Option.map_some, ← hset]
  rcases r with e | _ <;> rfl

/-- Receiving an answer changes nothing in what everybody is told. -/
theorem report_received {s : Storage} (pre post : List Entry) (c : Command) {t : Nat}
    {r : Except StoreError Unit} (hb : s.batcher = some b) (hr : b.answer? t = some r)
    (hn : ∀ e ∈ pre ++ post, ticket? e.progress ≠ some t) :
    report { s with batcher := some (b.forget t) } (pre ++ ⟨c, ending r⟩ :: post) =
      report s (pre ++ ⟨c, .going (.writing .plain (.inLine t))⟩ :: post) := by
  have same : ∀ e ∈ pre ++ post,
      told { s with batcher := some (b.forget t) } e.progress = told s e.progress := by
    refine fun e he => told_congr fun u hu => ?_
    have : u ≠ t := fun h => hn e he (h ▸ hu)
    simp only [hb, Option.bind_some, answer?_forget this]
  have here : told s (.going (.writing .plain (.inLine t))) = some r := (told_held hb rfl).trans hr
  simp only [report, List.map_append, List.map_cons]
  congr 1
  · exact List.map_congr_left fun e he => Prod.ext rfl (same e (List.mem_append_left _ he))
  · congr 1
    · exact Prod.ext rfl ((told_ending _ r).trans here.symm)
    · exact List.map_congr_left fun e he => Prod.ext rfl (same e (List.mem_append_right _ he))

theorem Inv.sole_ticket {pre post : List Entry} {c : Command} {t : Nat}
    (h : k.Inv b (pre ++ ⟨c, .going (.writing .plain (.inLine t))⟩ :: post) turned) :
    (t :: tickets (pre ++ (post ++ (b.inHand.map .ofSubmitted ++ turned)))).Nodup := by
  have := h.nodup
  rw [h.entries, List.append_assoc, List.append_assoc, List.cons_append, tickets_held] at this
  rw [tickets_append]
  exact List.nodup_middle.1 this

theorem Inv.received {pre post : List Entry} {c : Command} {t : Nat}
    {r : Except StoreError Unit}
    (h : k.Inv b (pre ++ ⟨c, .going (.writing .plain (.inLine t))⟩ :: post) turned)
    (hr : b.answer? t = some r) :
    (k.next (.attend pre.length)).Inv (b.forget t) (pre ++ ⟨c, ending r⟩ :: post) turned ∧
      Settles k b (pre ++ ⟨c, .going (.writing .plain (.inLine t))⟩ :: post) (.attend pre.length) []
        (.ok ()) (k.next (.attend pre.length)) (b.forget t) (pre ++ ⟨c, ending r⟩ :: post) := by
  have hk := h.receive hr
  generalize k.next (.attend pre.length) = k' at hk
  have he : k.entries = pre ++ ⟨c, .going (.writing .plain (.inLine t))⟩ ::
      (post ++ (b.inHand.map .ofSubmitted ++ turned)) := by
    simp only [h.entries, List.append_assoc, List.cons_append]
  have hn := h.sole_ticket
  have ht : tickets k'.entries =
      tickets (pre ++ (post ++ (b.inHand.map .ofSubmitted ++ turned))) := by
    rw [hk, tickets_ended]
  have other : ∀ e ∈ pre ++ (post ++ (b.inHand.map .ofSubmitted ++ turned)),
      ticket? e.progress ≠ some t := fun e he ht =>
    (List.nodup_cons.1 hn).1 (List.mem_filterMap.2 ⟨e, he, ht⟩)
  have hrec := report_received pre _ c h.batcher hr other
  have hset := report_received pre post c h.batcher hr fun e he =>
    other e (by
      rcases List.mem_append.1 he with he | he
      · exact List.mem_append_left _ he
      · exact List.mem_append_right _ (List.mem_append_left _ he))
  have hs : k'.storage = { k.storage with batcher := some (b.forget t) } := by rw [hk]
  rw [← hs] at hrec hset
  have hd : k'.database = k.database := by rw [hk]
  have hes : k'.entries = pre ++ ⟨c, ending r⟩ ::
      (post ++ (b.inHand.map .ofSubmitted ++ turned)) := by rw [hk]
  have hsame : k'.record = k.record := by
    rw [record, record, he, hes]
    exact hrec
  refine ⟨⟨by rw [hs], by rw [hd]; exact h.free,
    ⟨h.sound.drained, h.sound.ended, h.sound.fits, h.sound.room⟩, ?_, fun e hm => ?_, h.refused, h.shut,
    ?_, fun u hu => ?_, fun y hy => h.fresh y (List.mem_of_mem_filter hy), fun y hy => ?_⟩,
    ⟨?_, fun _ => by rw [hd]; rfl, fun h => absurd rfl h, fun _ _ h => (nomatch h),
      hsame ▸ .refl _, ?_, by rw [hs]; rfl, fun _ => hd ▸ id, fun _ => hd ▸ id, fun _ => id, rfl,
      .inl⟩⟩
  · rw [hk]
    simp only [List.append_assoc, List.cons_append]
    rfl
  · have : (e.command, told k'.storage e.progress) ∈ report k'.storage (pre ++ ⟨c, ending r⟩ :: post) :=
      List.mem_map_of_mem hm
    rw [hset] at this
    obtain ⟨e', he', hx⟩ := List.mem_map.1 this
    rw [← (Prod.mk.inj hx).2]
    exact h.answered e' he'
  · rw [ht]
    exact (List.nodup_cons.1 hn).2
  · refine h.issued u ?_
    rw [ht, tickets_append] at hu
    rw [he, tickets_append]
    rcases List.mem_append.1 hu with hu | hu
    · exact List.mem_append_left _ hu
    · exact List.mem_append_right _ (List.mem_cons_of_mem _ hu)
  · have hm : Entry.ofSubmitted y ∈ b.inHand.map .ofSubmitted := List.mem_map_of_mem hy
    have hne := other _ (List.mem_append_right _ (List.mem_append_right _
      (List.mem_append_left _ hm)))
    rw [answer?_forget fun hu => hne (congrArg some hu)]
    exact h.unanswered y hy
  · rw [hset, List.map_nil, List.append_nil]
  · simp [he, hes, Move.brought]

theorem Inv.attend (h : k.Inv b settled turned) (place : Nat) :
    ∃ b' settled', (k.next (.attend place)).Inv b' settled' turned ∧
      Settles k b settled (.attend place) [] (.ok ()) (k.next (.attend place)) b' settled' := by
  have idle : k.next (.attend place) = k → ∃ b' settled',
      (k.next (.attend place)).Inv b' settled' turned ∧
        Settles k b settled (.attend place) [] (.ok ()) (k.next (.attend place)) b' settled' := by
    intro hk
    rw [hk]
    exact ⟨b, settled, h, .still [] (fun _ => rfl) (List.append_nil _).symm rfl rfl rfl
      (fun _ => id) (fun _ => id) rfl rfl .inl⟩
  cases hp : k.entries[place]? with
  | none => exact idle (by simp only [next, hp])
  | some e =>
    obtain ⟨c, p⟩ := e
    have hes := hp
    rw [h.entries, List.append_assoc] at hes
    by_cases hl : place < settled.length
    · rw [List.getElem?_append_left hl, List.getElem?_eq_getElem hl, Option.some.injEq] at hes
      rcases p with q | r
      · obtain ⟨r, hr⟩ := Option.isSome_iff_exists.1
          (h.answered ⟨c, .going q⟩ (hes ▸ List.getElem_mem hl))
        obtain ⟨t, ht⟩ | hq := told_some hr
        · cases progress_of_ticket ht
          have hr : b.answer? t = some r := (told_held h.batcher rfl).symm.trans hr
          obtain ⟨pre, post, hpre, rfl, -⟩ := @List.exists_of_set _ place ⟨c, ending r⟩ settled hl
          rw [hes] at hpre
          subst hpre
          obtain ⟨hc, hm⟩ := h.received hr
          exact ⟨_, _, hc, hm⟩
        · rcases r with e | _ <;> cases hq
      · exact idle (by simp only [next, hp])
    · rw [List.getElem?_append_right (Nat.le_of_not_lt hl)] at hes
      exact idle (h.idle (List.mem_of_getElem? hes) hp)

/-- **Step.** Every move keeps the invariant and settles commands in the order in which they came.
Only a command that is brought is turned away. -/
theorem Inv.next (h : k.Inv b settled turned) (ht : k.database.Timely) (m : Move) :
    ∃ b' settled' turned' done r, (k.next m).Inv b' settled' turned' ∧
      Settles k b settled m done r (k.next m) b' settled' ∧ (m.brought = [] → turned' = turned) := by
  cases m with
  | bring c =>
    by_cases hs : b.closed = true ∨ b.phase = .broken
    · obtain ⟨b', turned', hc, hm⟩ := h.turnAway hs c
      exact ⟨b', settled, turned', [], .ok (), hc, hm, fun h => (nomatch h)⟩
    · obtain ⟨b', turned', hc, hm⟩ := h.admit hs c
      exact ⟨b', settled, turned', [], .ok (), hc, hm, fun h => (nomatch h)⟩
  | attend place =>
    obtain ⟨b', settled', hc, hm⟩ := h.attend place
    exact ⟨b', settled', turned, [], .ok (), hc, hm, fun _ => rfl⟩
  | work time =>
    obtain ⟨b', settled', done, r, hc, hm⟩ := h.work ht time
    exact ⟨b', settled', turned, done, r, hc, hm, fun _ => rfl⟩
  | close =>
    obtain ⟨hc, hm⟩ := h.close
    exact ⟨_, _, turned, _, _, hc, hm, fun _ => rfl⟩
  | configure remove =>
    obtain ⟨hc, hm⟩ := h.configure remove
    exact ⟨_, _, turned, _, _, hc, hm, fun _ => rfl⟩
  | weather faults clock =>
    obtain ⟨hc, hm⟩ := h.weather faults clock
    exact ⟨_, _, turned, _, _, hc, hm, fun _ => rfl⟩

/-- Whoever was told something is not told anything else later. -/
theorem Inv.grows (ms : List Move) (h : k.Inv b settled turned) (ht : k.database.Timely)
    (hm : ∀ m ∈ ms, m.Timely) : Grows k.record (k.after ms).record := by
  induction ms generalizing k b settled turned with
  | nil => exact .refl _
  | cons m ms ih =>
    obtain ⟨b', settled', turned', done, r, hc, hs, -⟩ := h.next ht m
    exact hs.grows.trans (ih hc (hs.timely (hm m List.mem_cons_self) ht) fun m h =>
      hm m (List.mem_cons_of_mem _ h))

/-- Nothing was brought to a storage with a batching writer yet. -/
theorem inv_create {s : Storage} {d : Database} {settings : BatchSettings}
    (hs : s.batcher = some (.create settings)) (hd : d.held = none) :
    (create s d).Inv (.create settings) [] [] := by
  have hi : (Batcher.create settings).inHand = [] := by
    unfold Batcher.create Batcher.inHand
    split <;> rfl
  refine ⟨hs, hd, Batcher.sound_create settings, by rw [hi]; rfl, fun e he => (nomatch he),
    fun e he => (nomatch he), fun hu => absurd rfl hu, List.nodup_nil, fun t ht => (nomatch ht),
    fun x hx => (nomatch hx), fun x hx => ?_⟩
  rw [hi] at hx
  cases hx

end Writing

end Resumption
