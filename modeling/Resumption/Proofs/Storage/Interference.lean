import Resumption.Proofs.Database.Job
import Resumption.Proofs.Database.Notes
import Resumption.Proofs.Storage.WritingInvariant
import Resumption.Proofs.Storage.Turns

/-!
# What others do while a caller waits

A caller of a storage is seldom alone. Others hand commands to the same writer and take their
answers, its worker goes on, and whoever shares the store does to it what they want. Here is what
others may do (`Interference`) while one caller waits with at most one command of its own, and what
it means for the caller:

* `Store.Amid` says that the store came about by the caller's own actions, with those of others in
  between. With nobody else it is the caller's actions alone (`Amid.alone`).
* `Storage.Post` is where the caller's command is, and `Command.Carried` what became of it: it is
  granted if and only if it was executed, once and with success.
* **Others leave a caller's command where it is, or carry it out** (`Interference.step`), and they take
  no notes.
-/

namespace Resumption

/-! ## Others in between -/

namespace Store

/-- The caller's own actions lead from one store to another, each with success, with foreign actions
in between. -/
inductive Amid (foreign : Action → Prop) : Store → List Action → Store → Prop where
  | nil (s : Store) : Amid foreign s [] s
  | other {s s₁ s₂ : Store} {a : Action} {o : Outcome} {as : List Action} (hf : foreign a)
      (ha : s.act a = (.ok o, s₁)) (hs : Amid foreign s₁ as s₂) : Amid foreign s as s₂
  | own {s s₁ s₂ : Store} {a : Action} {o : Outcome} {as : List Action}
      (ha : s.act a = (.ok o, s₁)) (hs : Amid foreign s₁ as s₂) : Amid foreign s (a :: as) s₂

variable {foreign : Action → Prop} {s s₁ s₂ : Store} {a : Action} {as bs : List Action}

theorem Amid.append (h : Amid foreign s as s₁) (h' : Amid foreign s₁ bs s₂) :
    Amid foreign s (as ++ bs) s₂ := by
  induction h with
  | nil s => exact h'
  | other hf ha _ ih => exact .other hf ha (ih h')
  | own ha _ ih => exact .own ha (ih h')

/-- With nobody else, the store came about by the caller's actions. -/
theorem Amid.alone (nobody : ∀ a, ¬ foreign a) (h : Amid foreign s as s₁) : s.Performs as s₁ := by
  induction h with
  | nil s => exact .nil s
  | other hf _ _ _ => exact absurd hf (nobody _)
  | own ha _ ih => exact .cons ha ih

/-- The one action of the caller was done at some moment. -/
theorem Amid.moment (h : Amid foreign s [a] s₂) :
    ∃ s₀ o s₁, Amid foreign s [] s₀ ∧ s₀.act a = (.ok o, s₁) ∧ Amid foreign s₁ [] s₂ := by
  generalize hl : [a] = l at h
  induction h with
  | nil s => cases hl
  | other hf ha _ ih =>
    obtain ⟨s₀, o, s₁, h₀, hx, h₁⟩ := ih hl
    exact ⟨s₀, o, s₁, .other hf ha h₀, hx, h₁⟩
  | own ha hs _ =>
    cases hl
    exact ⟨_, _, _, .nil _, ha, hs⟩

/-- The one command of the caller was executed at some moment. -/
theorem Amid.moment_command (c : Command) (remove : Bool)
    (h : Amid foreign s [c.action remove] s₂) :
    ∃ s₀ s₁, Amid foreign s [] s₀ ∧ s₀.execute remove c = (.ok (), s₁) ∧
      Amid foreign s₁ [] s₂ := by
  obtain ⟨s₀, o, s₁, h₀, ha, h₁⟩ := h.moment
  refine ⟨s₀, s₁, h₀, ?_, h₁⟩
  rw [act_action] at ha
  rcases he : s₀.execute remove c with ⟨e | u, s'⟩ <;> rw [he] at ha <;> cases ha
  rfl

/-- Commands of several callers that were executed together. -/
theorem amid_of_executeAll {remove : Bool} {own : Option Nat} {done : List Submitted}
    (others : ∀ x ∈ done, own ≠ some x.ticket → foreign (x.command.action remove))
    (h : s.executeAll remove (done.map (·.command)) = (.ok (), s₁)) :
    Amid foreign s
      ((done.filter fun x => own = some x.ticket).map fun x => x.command.action remove) s₁ := by
  induction done generalizing s with
  | nil => cases h; exact .nil _
  | cons x xs ih =>
    rw [List.map_cons, executeAll] at h
    split at h
    · rename_i s' hx
      have ha : s.act (x.command.action remove) = (.ok .done, s') := by
        rw [act_action, hx]
        rfl
      have rest := ih (fun y hy => others y (List.mem_cons_of_mem _ hy)) h
      by_cases hown : own = some x.ticket
      · rw [List.filter_cons_of_pos (by simpa using hown), List.map_cons]
        exact .own ha rest
      · rw [List.filter_cons_of_neg (by simpa using hown)]
        exact .other (others x List.mem_cons_self hown) ha rest
    · cases h

end Store

/-! ## Tidy writers -/

namespace Batcher

/-- The tickets in hand are distinct and were issued, and there is no answer under them. -/
structure Tidy (b : Batcher) : Prop where
  sound : b.Sound
  nodup : (b.inHand.map (·.ticket)).Nodup
  issued : ∀ x ∈ b.inHand, x.ticket < b.issued
  fresh : ∀ a ∈ b.answers, a.1 < b.issued
  unanswered : ∀ x ∈ b.inHand, b.answer? x.ticket = none

variable {b b' : Batcher}

theorem inHand_create (settings : BatchSettings) : (create settings).inHand = [] := by
  unfold create inHand
  split <;> rfl

theorem tidy_create (settings : BatchSettings) : (create settings).Tidy := by
  refine ⟨sound_create settings, ?_, ?_, fun _ h => (by cases h), ?_⟩ <;> rw [inHand_create]
  · exact List.nodup_nil
  · exact fun _ h => (by cases h)
  · exact fun _ h => (by cases h)

theorem Tidy.queued (h : b.Tidy) (not_closed : b.closed = false) (whole : b.phase ≠ .broken)
    (c : Command) : (b.queued c).Tidy := by
  refine ⟨queued_sound h.sound not_closed whole c, ?_, ?_,
    fun a ha => Nat.lt_succ_of_lt (h.fresh a ha), ?_⟩ <;> rw [queued_inHand]
  · rw [List.map_append, List.nodup_append]
    refine ⟨h.nodup, List.nodup_singleton _, ?_⟩
    rintro t ht _ hn rfl
    obtain ⟨x, hx, rfl⟩ := List.mem_map.1 ht
    exact Nat.lt_irrefl _ (List.mem_singleton.1 hn ▸ h.issued x hx)
  · intro x hx
    rcases List.mem_append.1 hx with hx | hx
    · exact Nat.lt_succ_of_lt (h.issued x hx)
    · rw [List.mem_singleton.1 hx]
      exact Nat.lt_succ_self _
  · intro x hx
    rcases List.mem_append.1 hx with hx | hx
    · exact h.unanswered x hx
    · rw [List.mem_singleton.1 hx]
      refine List.lookup_eq_none_iff.2 fun a ha => ?_
      exact bne_iff_ne.2 (Nat.ne_of_gt (h.fresh a ha))

theorem Tidy.close (h : b.Tidy) : b.close.Tidy :=
  ⟨⟨h.sound.drained, fun _ => rfl, h.sound.fits, h.sound.room⟩, h.nodup, h.issued, h.fresh,
    h.unanswered⟩

theorem Tidy.forget (h : b.Tidy) (t : Nat) : (b.forget t).Tidy := by
  refine ⟨⟨h.sound.drained, h.sound.ended, h.sound.fits, h.sound.room⟩, h.nodup, h.issued,
    fun a ha => h.fresh a (List.mem_of_mem_filter ha), fun x hx => ?_⟩
  by_cases hx' : x.ticket = t
  · refine List.lookup_eq_none_iff.2 fun a ha => bne_iff_ne.2 fun he => ?_
    have := (List.mem_filter.1 ha).2
    simp [← he, hx'] at this
  · rw [Writing.answer?_forget hx']
    exact h.unanswered x hx

/-- The worker has settled some commands. -/
structure Tidied (b : Batcher) (done : List Submitted) (r : Except StoreError Unit)
    (b' : Batcher) : Prop where
  tidy : b'.Tidy
  kept : ∀ t v, b.answer? t = some v → b'.answer? t = some v
  settled : ∀ x ∈ done, b'.answer? x.ticket = some r

theorem Tidy.served (h : b.Tidy) {a : Access} {d d' : Database} {done : List Submitted}
    {r : Except StoreError Unit} (hs : Served a b d done r b' d') (sound : b'.Sound) :
    b.Tidied done r b' := by
  have hand : ∀ {x}, x ∈ b'.inHand → x ∈ b.inHand := fun hx =>
    hs.hand ▸ List.mem_append_right _ hx
  have done_hand : ∀ {x}, x ∈ done → x ∈ b.inHand := fun hx =>
    hs.hand ▸ List.mem_append_left _ hx
  have hn := h.nodup
  rw [hs.hand, List.map_append] at hn
  obtain ⟨-, hnodup, hapart⟩ := List.nodup_append.1 hn
  have ha : ∀ t, b'.answer? t =
      (b.answer? t).or ((done.map fun x => (x.ticket, r)).lookup t) := by
    intro t
    rw [answer?, hs.answers, List.lookup_append]
    rfl
  refine ⟨⟨sound, hnodup, fun x hx => hs.issued ▸ h.issued x (hand hx), fun a ha => ?_,
    fun x hx => ?_⟩, fun t v hv => by rw [ha, hv, Option.some_or], fun x hx => ?_⟩
  · rw [hs.issued]
    rw [hs.answers] at ha
    rcases List.mem_append.1 ha with ha | ha
    · exact h.fresh a ha
    · obtain ⟨x, hx, rfl⟩ := List.mem_map.1 ha
      exact h.issued x (done_hand hx)
  · rw [ha, h.unanswered x (hand hx), Option.none_or, List.lookup_eq_none_iff]
    intro y hy
    obtain ⟨z, hz, rfl⟩ := List.mem_map.1 hy
    have := hapart _ (List.mem_map_of_mem hz) _ (List.mem_map_of_mem hx)
    simpa using Ne.symm this
  · rw [ha, h.unanswered x (done_hand hx), Option.none_or, Writing.lookup_ticket hx]

theorem step_notes (a : Access) (time : Nat) (w : Batcher) (d : Database) :
    (w.step a time d).2.notes = d.notes := by
  unfold step
  have all := fun cs => Work.mute_transactAll a cs d
  split
  · split <;> rfl
  · split <;> rfl
  · next batch _ =>
    have mute := all (batch.map (·.command))
    split <;> rename_i hx <;> rw [hx] at mute
    · exact mute
    · rw [Database.notes_tell_other _ rfl]
      exact mute
    · exact mute
  · rfl
  · next x _ _ =>
    have mute := all [x.command]
    split <;> rename_i hx <;> rw [hx] at mute <;> exact mute
  · rfl
  · rfl

end Batcher

/-- Through the same kind of writer, and with a monitor or without one. -/
structure Storage.Akin (s s' : Storage) : Prop where
  monitored : s'.monitored = s.monitored
  batched : s'.batcher.isSome = s.batcher.isSome

theorem Storage.Akin.refl (s : Storage) : s.Akin s := ⟨rfl, rfl⟩

theorem Storage.Akin.trans {s₁ s₂ s₃ : Storage} (h : s₁.Akin s₂) (h' : s₂.Akin s₃) : s₁.Akin s₃ :=
  ⟨h'.monitored.trans h.monitored, h'.batched.trans h.batched⟩

theorem Storage.akin_writer {s : Storage} {w : Batcher} (hw : s.batcher = some w) (w' : Batcher) :
    s.Akin { s with batcher := some w' } := ⟨rfl, by rw [hw]; rfl⟩

/-! ## Interference -/

/-- What others may do: their actions on the store, the settings for removal, and whether they are
`calm`, so that no crash is planned. -/
structure Bounds where
  foreign : Action → Prop
  removal : Bool → Prop
  calm : Prop

/-- Something that others do at a storage or to its store. What somebody does in a transaction that
stays open over several calls is done when it is committed, for nobody else can begin one before. -/
inductive Interference where
  /-- Another caller hands a command to the writer. -/
  | submits (c : Command)
  /-- Another caller takes its answer. -/
  | receives (ticket : Nat)
  /-- The worker of the writer goes on if it can. -/
  | works (time : Nat)
  /-- Somebody does something to the store in a transaction of its own. -/
  | acts (a : Action)
  /-- The writer is closed. -/
  | closes
  /-- Finished instances are removed from now on, or are not. -/
  | configures (remove : Bool)
  /-- The clock is set, and other faults are planned. -/
  | weather (faults : List Fault) (clock : Instant)

namespace Interference

/-- It is within the bounds, and no commit is planned to fail after it took effect. -/
def Within (b : Bounds) : Interference → Prop
  | .submits c => ∀ remove, b.foreign (c.action remove)
  | .acts a => b.foreign a
  | .configures remove => b.removal remove
  | .weather faults _ => (∀ f ∈ faults, f.method = .commit → f.after = false) ∧
      (b.calm → ∀ f ∈ faults, ∃ reason, f.blow = .refuse reason)
  | _ => True

/-- The storage and the database after something was done, while a caller waits with its own
ticket or without one. -/
def next (own : Option Nat) (s : Storage) (d : Database) : Interference → Storage × Database
  | .submits c => ((s.enter c).2, d)
  | .receives ticket =>
    if own = some ticket then (s, d)
    else ({ s with batcher := s.batcher.map fun w => w.forget ticket }, d)
  | .works time =>
    if (s.batcher.map fun w => w.ready time d.held.isNone).getD false then
      Cluster.stepWorker time s d
    else (s, d)
  | .acts a =>
    match d.store.act a with
    | (.ok _, store) => (s, { d with store })
    | (.error _, _) => (s, d)
  | .closes => (s.begin d .closeWriter).2
  | .configures remove => (s.setRemove remove, d)
  | .weather faults clock => (s, { d with faults, clock })

/-- The storage and the database after several things were done. -/
def all (own : Option Nat) (ms : List Interference) (s : Storage) (d : Database) : Storage × Database :=
  ms.foldl (fun k m => m.next own k.1 k.2) (s, d)

end Interference

namespace Storage

/-- The ticket that a caller holds. -/
def Passage.ticket? : Passage → Option Nat
  | .alone _ => none
  | .inLine ticket => some ticket

/-- Where a caller's command is: it is to be executed in a transaction of its own, it is in hand of
the writer, or it was answered. -/
inductive Post (s : Storage) (c : Command) : Passage → Option (Except StoreError Unit) → Prop where
  | alone (hs : s.batcher = none) : Post s c (.alone c) none
  | inHand {w : Batcher} {x : Submitted} (hs : s.batcher = some w) (hx : x ∈ w.inHand)
      (hc : x.command = c) : Post s c (.inLine x.ticket) none
  | answered {w : Batcher} {t : Nat} {r : Except StoreError Unit} (hs : s.batcher = some w)
      (ha : w.answer? t = some r) : Post s c (.inLine t) (some r)

end Storage

/-- What became of a command: it was executed if and only if it was granted. -/
inductive Command.Carried (removal : Bool → Prop) (c : Command) :
    Option (Except StoreError Unit) → List Action → Prop where
  | waits : Carried removal c none []
  | granted {remove : Bool} (hr : removal remove) :
      Carried removal c (some (.ok ())) [c.action remove]
  | denied (e : StoreError) : Carried removal c (some (.error e)) []

namespace Interference

/-- Besides a caller with its own ticket or without one, others may have anything in line that is
within the bounds. -/
structure Room (b : Bounds) (own : Option Nat) (s : Storage) (d : Database) : Prop where
  free : d.held = none
  timely : d.Timely
  gentle : b.calm → d.Gentle
  removal : b.removal s.access.removeFinished
  tidy : ∀ w, s.batcher = some w → w.Tidy
  strangers : ∀ w, s.batcher = some w → ∀ x ∈ w.inHand, own ≠ some x.ticket →
    ∀ remove, b.foreign (x.command.action remove)

variable {b : Bounds} {own : Option Nat} {s s' : Storage} {d d' : Database} {c : Command}
  {p : Storage.Passage} {answer : Option (Except StoreError Unit)}

/-- The caller's command is where it was. -/
structure Spares (own : Option Nat) (s s' : Storage) : Prop where
  direct : s.batcher = none → s'.batcher = none
  writer : ∀ w, s.batcher = some w → ∃ w', s'.batcher = some w' ∧
    (∀ x ∈ w.inHand, own = some x.ticket → x ∈ w'.inHand) ∧
    ∀ t r, own = some t → w.answer? t = some r → w'.answer? t = some r

theorem Spares.of_batcher (h : s'.batcher = s.batcher) : Spares own s s' :=
  ⟨fun hn => h.trans hn, fun w hw => ⟨w, h.trans hw, fun _ hx _ => hx, fun _ _ _ ha => ha⟩⟩

/-- Another state of the writer in which the caller's command is where it was. -/
theorem Spares.of_some {w w' : Batcher} (hw : s.batcher = some w)
    (hand : ∀ x ∈ w.inHand, own = some x.ticket → x ∈ w'.inHand)
    (answers : ∀ t r, own = some t → w.answer? t = some r → w'.answer? t = some r) :
    Spares own s { s with batcher := some w' } := by
  refine ⟨fun hn => ?_, fun v hv => ?_⟩
  · rw [hw] at hn
    cases hn
  · cases hw.symm.trans hv
    exact ⟨w', rfl, hand, answers⟩

theorem Spares.post (h : Spares own s s') (hp : s.Post c p answer) (ho : own = p.ticket?) :
    s'.Post c p answer := by
  cases hp with
  | alone hs => exact .alone (h.direct hs)
  | inHand hs hx hc =>
    obtain ⟨w', hw', hand, -⟩ := h.writer _ hs
    exact .inHand hw' (hand _ hx ho) hc
  | answered hs ha =>
    obtain ⟨w', hw', -, answers⟩ := h.writer _ hs
    exact .answered hw' (answers _ _ ho ha)

/-- What something that others do comes to, for a caller with its own ticket or without one. -/
inductive Toll (b : Bounds) (own : Option Nat) (s : Storage) (before : Store) (s' : Storage)
    (after : Store) : Prop where
  | spares (hs : Spares own s s') (ha : before.Amid b.foreign [] after)
  /-- The worker has settled the caller's command. -/
  | settles {w w' : Batcher} {x : Submitted} {r : Except StoreError Unit} {acts : List Action}
      (hs : s.batcher = some w) (hx : x ∈ w.inHand) (hown : own = some x.ticket)
      (hs' : s'.batcher = some w') (ha : w'.answer? x.ticket = some r)
      (hr : x.command.Carried b.removal (some r) acts)
      (hc : before.Amid b.foreign acts after)

/-- A step that others take. -/
structure Interfered (b : Bounds) (own : Option Nat) (s : Storage) (d : Database) (s' : Storage)
    (d' : Database) : Prop where
  room : Room b own s' d'
  notes : d'.notes = d.notes
  akin : s.Akin s'
  toll : Toll b own s d.store s' d'.store

/-- A step after which the writer and the store are as before. -/
theorem Interfered.of_same (h : Room b own s d) (batcher : s'.batcher = s.batcher)
    (removal : b.removal s'.access.removeFinished) (monitored : s'.monitored = s.monitored)
    (store : d'.store = d.store) (held : d'.held = d.held) (notes : d'.notes = d.notes)
    (timely : d'.Timely) (gentle : b.calm → d'.Gentle) : Interfered b own s d s' d' where
  room := ⟨held.trans h.free, timely, gentle, removal, batcher ▸ h.tidy, batcher ▸ h.strangers⟩
  notes := notes
  akin := ⟨monitored, by rw [batcher]⟩
  toll := .spares (.of_batcher batcher) (store ▸ .nil _)

theorem Interfered.of_writer (h : Room b own s d) {w w' : Batcher} (hw : s.batcher = some w)
    (tidy : w'.Tidy) (strangers : ∀ x ∈ w'.inHand, own ≠ some x.ticket →
      ∀ remove, b.foreign (x.command.action remove))
    (hand : ∀ x ∈ w.inHand, own = some x.ticket → x ∈ w'.inHand)
    (answers : ∀ t r, own = some t → w.answer? t = some r → w'.answer? t = some r) :
    Interfered b own s d { s with batcher := some w' } d where
  room :=
    ⟨h.free, h.timely, h.gentle, h.removal, fun _ hv => Option.some.inj hv ▸ tidy,
      fun _ hv => Option.some.inj hv ▸ strangers⟩
  notes := rfl
  akin := Storage.akin_writer hw w'
  toll := .spares (.of_some hw hand answers) (.nil _)

/-- The worker settles the caller's command, or leaves it where it is. -/
theorem Room.served (h : Room b own s d) {w w' : Batcher} {done : List Submitted}
    {r : Except StoreError Unit} (hw : s.batcher = some w)
    (hs : Batcher.Served s.access w d done r w' d') (ht : w.Tidied done r w') :
    Toll b own s d.store { s with batcher := some w' } d'.store := by
  -- what was executed for others is foreign
  have others : r = .ok () → d.store.Amid b.foreign ((done.filter fun x => own = some x.ticket).map
      fun x => x.command.action s.access.removeFinished) d'.store := by
    intro hr
    refine Store.amid_of_executeAll (fun x hx hown => ?_) (hs.granted hr)
    exact h.strangers w hw x (hs.hand ▸ List.mem_append_left _ hx) hown _
  have hd : r ≠ .ok () → d'.store = d.store := hs.denied
  by_cases hmine : ∃ x ∈ done, own = some x.ticket
  · obtain ⟨x, hx, hown⟩ := hmine
    have hand : x ∈ w.inHand := hs.hand ▸ List.mem_append_left _ hx
    have sole : done.filter (fun y => own = some y.ticket) = [x] := by
      have hn : (done.map (·.ticket)).Nodup := by
        have hn := (h.tidy w hw).nodup
        rw [hs.hand, List.map_append] at hn
        exact (List.nodup_append.1 hn).1
      obtain ⟨pre, post, rfl⟩ := List.append_of_mem hx
      rw [List.map_append, List.map_cons, List.nodup_middle, List.nodup_cons, List.mem_append,
        not_or] at hn
      have apart : ∀ ys : List Submitted, x.ticket ∉ ys.map (·.ticket) →
          ys.filter (fun y => own = some y.ticket) = [] := by
        refine fun ys hy => List.filter_eq_nil_iff.2 fun y hm => ?_
        rw [hown]
        simp only [Option.some.injEq, decide_eq_true_eq]
        exact fun he => hy (he ▸ List.mem_map_of_mem hm)
      rw [List.filter_append, List.filter_cons_of_pos (by simpa using hown), apart pre hn.1.1,
        apart post hn.1.2, List.nil_append]
    rcases r with e | u
    · exact .settles hw hand hown rfl (ht.settled x hx) (.denied e)
        (hd (fun h => nomatch h) ▸ .nil _)
    · have hc := others rfl
      rw [sole] at hc
      exact .settles hw hand hown rfl (ht.settled x hx) (.granted h.removal) hc
  · have none_mine : done.filter (fun x => own = some x.ticket) = [] :=
      List.filter_eq_nil_iff.2 fun x hx hown => hmine ⟨x, hx, by simpa using hown⟩
    refine .spares (.of_some hw (fun x hx hown => ?_) fun t v _ => ht.kept t v) ?_
    · rw [hs.hand] at hx
      exact (List.mem_append.1 hx).resolve_left fun hx => hmine ⟨x, hx, hown⟩
    · rcases r with e | u
      · exact hd (fun h => nomatch h) ▸ .nil _
      · have hc := others rfl
        rwa [none_mine] at hc

theorem Room.works (h : Room b own s d) (time : Nat) :
    Interfered b own s d ((works time).next own s d).1
      ((works time).next own s d).2 := by
  have idle : Interfered b own s d s d :=
    .of_same h rfl h.removal rfl rfl rfl rfl h.timely h.gentle
  cases hw : s.batcher with
  | none => simpa only [next, hw, Option.map_none, Option.getD_none, Bool.false_eq_true,
      if_false] using idle
  | some w =>
    simp only [next, hw, Option.map_some, Option.getD_some]
    split
    · rename_i hr
      obtain ⟨done, r, hs, sound⟩ := Batcher.step_served (a := s.access) (h.tidy w hw).sound hr
        h.timely
      have ht := (h.tidy w hw).served hs sound
      have notes := Batcher.step_notes s.access time w d
      simp only [Cluster.stepWorker, hw]
      exact ⟨⟨hs.aside.held.trans h.free, hs.aside.timely h.timely,
        fun hc => hs.aside.gentle (h.gentle hc), h.removal,
        fun v hv => Option.some.inj hv ▸ ht.tidy, fun v hv x hx => by
          cases hv
          exact h.strangers w hw x (hs.hand ▸ List.mem_append_right _ hx)⟩,
        notes, Storage.akin_writer hw _, h.served hw hs ht⟩
    · exact idle

/-- **Step.** Whatever others do, the caller's command is where it was, or it was settled, and
then it was executed if and only if it was granted. They take no notes. -/
theorem step (h : Room b own s d) {m : Interference} (hm : m.Within b) :
    Interfered b own s d (m.next own s d).1 (m.next own s d).2 := by
  have idle : Interfered b own s d s d :=
    .of_same h rfl h.removal rfl rfl rfl rfl h.timely h.gentle
  cases m with
  | submits c =>
    cases hw : s.batcher with
    | none => simpa only [next, Storage.enter, hw] using idle
    | some w =>
      have tidy := h.tidy w hw
      rcases w.submit_cases c with ⟨hc, hb, he⟩ | ⟨-, he⟩
      · simp only [next, Storage.enter, hw, he]
        refine .of_writer h hw (tidy.queued hc hb c) (fun x hx hown => ?_)
          (fun x hx _ => ?_) fun _ _ _ ha => ha
        · rw [Batcher.queued_inHand] at hx
          rcases List.mem_append.1 hx with hx | hx
          · exact h.strangers w hw x hx hown
          · rw [List.mem_singleton.1 hx]
            exact hm
        · rw [Batcher.queued_inHand]
          exact List.mem_append_left _ hx
      · have hs : ({ s with batcher := some w } : Storage) = s := by rw [← hw]
        simpa only [next, Storage.enter, hw, he, hs] using idle
  | receives ticket =>
    by_cases hown : own = some ticket
    · simpa only [next, if_pos hown] using idle
    · cases hw : s.batcher with
      | none =>
        have hs : ({ s with batcher := none } : Storage) = s := by rw [← hw]
        simpa only [next, if_neg hown, hw, Option.map_none, hs] using idle
      | some w =>
        simp only [next, if_neg hown, hw, Option.map_some]
        refine .of_writer h hw ((h.tidy w hw).forget ticket) (h.strangers w hw)
          (fun _ hx _ => hx) fun t r ht ha => ?_
        have other : t ≠ ticket := fun he => hown (ht.trans (congrArg some he))
        rwa [Writing.answer?_forget other]
  | works time => exact h.works time
  | acts a =>
    rcases ha : d.store.act a with ⟨e | o, store⟩
    · simpa only [next, ha] using idle
    · simp only [next, ha]
      exact ⟨⟨h.free, h.timely, h.gentle, h.removal, h.tidy, h.strangers⟩, rfl, .refl s,
        .spares (.of_batcher rfl) (.other hm ha (.nil _))⟩
  | closes =>
    cases hw : s.batcher with
    | none =>
      have hs : ({ s with batcher := none } : Storage) = s := by rw [← hw]
      simpa only [next, Storage.begin, hw, Option.map_none, hs] using idle
    | some w =>
      simp only [next, Storage.begin, hw, Option.map_some]
      exact .of_writer h hw (h.tidy w hw).close (h.strangers w hw) (fun _ hx _ => hx)
        fun _ _ _ ha => ha
  | configures remove => exact .of_same h rfl hm rfl rfl rfl rfl h.timely h.gentle
  | weather faults clock => exact .of_same h rfl h.removal rfl rfl rfl rfl hm.1 hm.2

/-- What others do while the caller has no command of its own. -/
theorem step_none (h : Room b none s d) {m : Interference} (hm : m.Within b) :
    Room b none (m.next none s d).1 (m.next none s d).2 ∧
      d.store.Amid b.foreign [] (m.next none s d).2.store ∧
      (m.next none s d).2.notes = d.notes ∧ s.Akin (m.next none s d).1 := by
  have a := step h hm
  refine ⟨a.room, ?_, a.notes, a.akin⟩
  cases a.toll with
  | spares _ ha => exact ha
  | settles _ _ hown => cases hown

theorem all_none {ms : List Interference} (hm : ∀ m ∈ ms, m.Within b) (h : Room b none s d) :
    Room b none (all none ms s d).1 (all none ms s d).2 ∧
      s.Akin (all none ms s d).1 := by
  induction ms generalizing s d with
  | nil => exact ⟨h, .refl s⟩
  | cons m ms ih =>
    obtain ⟨room, -, -, akin⟩ := step_none h (hm m List.mem_cons_self)
    obtain ⟨room', akin'⟩ := ih (fun m h => hm m (List.mem_cons_of_mem _ h)) room
    exact ⟨room', akin.trans akin'⟩

/-! ## A command under way -/

/-- A caller's command is under way: it stands somewhere, and since the store was `before`, the
caller's actions are the one that the command was granted for, or none. -/
structure Underway (b : Bounds) (before : Store) (c : Command) (p : Storage.Passage) (s : Storage)
    (d : Database) : Prop where
  room : Room b p.ticket? s d
  stands : ∃ answer acts, s.Post c p answer ∧ c.Carried b.removal answer acts ∧
    before.Amid b.foreign acts d.store

variable {before : Store}

/-- Whatever others do, a command that is under way stays so. -/
theorem Underway.step (h : Underway b before c p s d) {m : Interference} (hm : m.Within b) :
    Underway b before c p (m.next p.ticket? s d).1 (m.next p.ticket? s d).2 ∧
      (m.next p.ticket? s d).2.notes = d.notes ∧
      s.Akin (m.next p.ticket? s d).1 := by
  have a := Interference.step h.room hm
  obtain ⟨answer, acts, hp, hr, hc⟩ := h.stands
  refine ⟨⟨a.room, ?_⟩, a.notes, a.akin⟩
  cases a.toll with
  | spares hs ha =>
    have hc := hc.append ha
    rw [List.append_nil] at hc
    exact ⟨answer, acts, hs.post hp rfl, hr, hc⟩
  | @settles w w' x r done hs hx hown hs' ha hr' hc' =>
    cases hp with
    | alone hn => cases hown
    | @inHand v y hv hy hyc =>
      -- only one command in hand has this ticket
      cases hs.symm.trans hv
      obtain rfl : y = x := List.inj_on_of_nodup_map (h.room.tidy w hs).nodup hy hx
        (Option.some.inj hown)
      cases hr
      subst hyc
      exact ⟨some r, done, .answered hs' ha, hr', hc.append hc'⟩
    | @answered v t r' hv ha' =>
      cases hs.symm.trans hv
      cases Option.some.inj hown
      rw [(h.room.tidy w hs).unanswered x hx] at ha'
      cases ha'

end Interference

/-- The writer takes no more commands. -/
def Storage.turnsAway (s : Storage) : Bool :=
  match s.batcher with
  | none => false
  | some w => w.closed || w.phase == .broken

namespace Interference

/-- A command that is brought to the writer is under way, or was turned away. -/
theorem Room.enters (h : Room b none s d) (c : Command) :
    (∃ p s', s.enter c = (some p, s') ∧ s.turnsAway = false ∧ s.Akin s' ∧
      Room b p.ticket? s' d ∧ s'.Post c p none) ∨
      (s.enter c = (none, s) ∧ s.turnsAway = true) := by
  cases hw : s.batcher with
  | none =>
    refine .inl ⟨.alone c, s, ?_, ?_, .refl s, h, .alone hw⟩
    · simp only [Storage.enter, hw]
    · simp only [Storage.turnsAway, hw]
  | some w =>
    have tidy := h.tidy w hw
    rcases w.submit_cases c with ⟨hc, hb, he⟩ | ⟨away, he⟩
    · refine .inl ⟨.inLine w.issued, { s with batcher := some (w.queued c) }, ?_, ?_,
        Storage.akin_writer hw _, ?_, ?_⟩
      · simp only [Storage.enter, hw, he, Option.map_some]
      · simp [Storage.turnsAway, hw, hc, hb]
      · refine ⟨h.free, h.timely, h.gentle, h.removal,
          fun _ hv => Option.some.inj hv ▸ tidy.queued hc hb c, fun v hv x hx hown => ?_⟩
        cases hv
        rw [Batcher.queued_inHand] at hx
        rcases List.mem_append.1 hx with hx | hx
        · exact h.strangers w hw x hx (Option.some_ne_none _).symm
        · rw [List.mem_singleton.1 hx] at hown
          exact absurd rfl hown
      · have hx : (⟨w.issued, c⟩ : Submitted) ∈ (w.queued c).inHand := by
          rw [Batcher.queued_inHand]
          exact List.mem_append_right _ List.mem_cons_self
        exact .inHand (x := ⟨w.issued, c⟩) rfl hx rfl
    · have hs : ({ s with batcher := some w } : Storage) = s := by rw [← hw]
      refine .inr ⟨?_, ?_⟩
      · simp only [Storage.enter, hw, he, Option.map_none, hs]
      · simpa [Storage.turnsAway, hw] using away

theorem Room.taken {w : Batcher} {t : Nat} {r : Except StoreError Unit} (h : Room b (some t) s d)
    (hw : s.batcher = some w) (ha : w.answer? t = some r) :
    Room b none { s with batcher := some (w.forget t) } d := by
  have tidy := h.tidy w hw
  refine ⟨h.free, h.timely, h.gentle, h.removal, fun _ hv => Option.some.inj hv ▸ tidy.forget t,
    fun v hv x hx _ => ?_⟩
  cases hv
  refine h.strangers w hw x hx fun he => ?_
  rw [Option.some.inj he, tidy.unanswered x hx] at ha
  cases ha

end Interference

end Resumption
