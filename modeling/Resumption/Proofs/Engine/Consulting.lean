import Resumption.Proofs.Engine.Asking
import Resumption.Proofs.Storage.Actions
import Resumption.Proofs.Storage.Faultless

/-!
# Asking while others write

A runner may ask its engine for things while others use the same storage. What it asks for is done
to the store like what others do, and a command that it hands to the writer is one of many there: so
an ask within the bounds leads the storage and the store where others could have led them
(`Interference.Drift`), through either writer and whichever calls fail. `advanceAsk_consults` says so of
each step of an ask, and that the ask is answered as it may be.
-/

namespace Resumption

namespace Interference

variable {b : Bounds} {own : Option Nat} {s s' s'' : Storage} {d d' d'' : Database} {m : Interference}

/-- The storage and the store are where others may have led them. -/
structure Drift (b : Bounds) (s : Storage) (d : Database) (s' : Storage) (d' : Database) :
    Prop where
  room : Room b none s' d'
  chain : d.store.Amid b.foreign [] d'.store
  batched : s'.batcher.isSome = s.batcher.isSome

theorem Room.led (h : Room b none s d) : Drift b s d s d := ⟨h, .nil _, rfl⟩

theorem Drift.trans (h : Drift b s d s' d') (h' : Drift b s' d' s'' d'') : Drift b s d s'' d'' :=
  ⟨h'.room, h.chain.append h'.chain, h'.batched.trans h.batched⟩

theorem Drift.told (h : Drift b s d s' d') (ht : d'.Told d'') : Drift b s d s' d'' :=
  ⟨h.room.told ht, ht.store ▸ h.chain, h.batched⟩

theorem Room.led_next (h : Room b none s d) (hm : m.Within b) :
    Drift b s d (m.next none s d).1 (m.next none s d).2 := by
  obtain ⟨room, chain, -, akin⟩ := step_none h hm
  exact ⟨room, chain, akin.batched⟩

/-- Without a command on the way, a caller's ticket only keeps others from taking its answer. -/
theorem next_own (own : Option Nat) (m : Interference) (s : Storage) (d : Database) :
    m.next own s d = m.next none s d ∨ m.next own s d = (s, d) := by
  cases m with
  | receives ticket =>
    simp only [Interference.next]
    split
    · exact .inr rfl
    · exact .inl rfl
  | _ => exact .inl rfl

theorem amid_of_performs {foreign : Action → Prop} {t t' : Store} {xs : List Action}
    (h : t.Performs xs t') (hx : ∀ a ∈ xs, foreign a) : t.Amid foreign [] t' := by
  induction h with
  | nil t => exact .nil t
  | cons ha _ ih =>
    exact .other (hx _ List.mem_cons_self) ha (ih fun a h => hx a (List.mem_cons_of_mem _ h))

theorem Room.led_does (h : Room b none s d) {xs : List Action} (hx : ∀ a ∈ xs, b.foreign a)
    (aside : d.Aside d') (does : d.Does xs d') (alike : s.Alike s') : Drift b s d s' d' := by
  refine ⟨⟨aside.held.trans h.free, aside.timely h.timely, fun hc => aside.gentle (h.gentle hc),
    alike.access ▸ h.removal, alike.batcher ▸ h.tidy, alike.batcher ▸ h.strangers⟩, ?_,
    by rw [alike.batcher]⟩
  rcases does.store with same | performs
  · exact same ▸ .nil _
  · exact amid_of_performs performs hx

/-- What leaves the writer and the faults alone leaves it clear. -/
theorem Clear.aside (h : Clear s d) (aside : d.Aside d') (alike : s.Alike s') : Clear s' d' :=
  ⟨aside.quiet h.faults, by rw [Storage.turnsAway, alike.batcher]; exact h.door⟩

end Interference

/-! ## What may be asked for -/

/-- What is asked for is up to others. -/
def Ask.Within (b : Bounds) : Ask → Prop
  | .submit _ | .submitOne _ | .submitHeld _ => ∀ w, b.foreign (.insert w)
  | .register _ _ _ _ => True
  | .notify _ | .notifyAll _ => ∀ r, b.foreign (.deliver r)
  | .restart id => b.foreign (.restart id) ∧ b.foreign (.load id)
  | .restartAll => b.foreign .restartAll

/-- Whatever the runner asks for in this run is up to others. -/
def Run.Within (b : Bounds) : Run → Prop
  | .pause _ next => next.Within b
  | .ask a next => a.Within b ∧ ∀ x, (next x).Within b
  | .visit next => ∀ n, (next n).Within b
  | _ => True

namespace Storage

/-- An ask that is up to others goes through this phase. -/
def Phase.Within (b : Bounds) : Phase → Prop
  | .stating q => (Phase.stating q).Gentle ∧ ∀ s, ∀ a ∈ q.actions s, b.foreign a
  | .writing .plain (.alone c) => ∀ remove, b.foreign (c.action remove)
  | .writing .plain (.inLine _) => True
  | _ => False

/-- A step of a call that is up to others. -/
structure Serves (b : Bounds) (s : Storage) (d : Database) (step : Progress × Storage × Database) :
    Prop where
  led : Interference.Drift b s d step.2.1 step.2.2
  clear : Interference.Clear s d → Interference.Clear step.2.1 step.2.2
  within : ∀ p, step.1 = .going p → p.Within b

variable {b : Bounds} {s : Storage} {d : Database}

theorem serves_going (room : Interference.Room b none s d) {p : Phase} (hp : p.Within b) :
    s.Serves b d (.going p, s, d) :=
  ⟨room.led, id, fun q h => by cases h; exact hp⟩

theorem serves_stating (room : Interference.Room b none s d) {q : Statement}
    (hq : (Phase.stating q).Within b) (time : Nat) :
    s.Serves b d (s.advance time d (.stating q)) := by
  obtain ⟨mild, alike⟩ := s.state_gentle d hq.1
  exact ⟨room.led_does (hq.2 s) mild.aside (state_does q) alike, (·.aside mild.aside alike),
    fun _ h => nomatch h⟩

/-- A command that is up to others comes to the writer. -/
theorem serves_notify (room : Interference.Room b none s d) (hr : ∀ x, b.foreign (.deliver x))
    (r : Response) : s.Serves b d (s.begin d (.notify r)) := by
  have within : (Interference.submits (.notify (s.settle r))).Within b := fun _ => hr _
  have led := room.led_next within
  have clear := fun h : Interference.Clear s d =>
    h.next room (m := .submits (.notify (s.settle r))) trivial
  rw [Storage.begin, beginWrite]
  simp only [Interference.next] at led clear
  rcases he : s.enter (.notify (s.settle r)) with ⟨_ | p, s'⟩ <;> rw [he] at led clear
  · exact ⟨led, clear, fun _ h => by cases h⟩
  · refine ⟨led, clear, fun q h => ?_⟩
    cases h
    cases p with
    | alone c =>
      unfold enter at he
      split at he
      · cases he
        exact fun _ => hr _
      · obtain ⟨t, -, ht⟩ := Option.map_eq_some_iff.1 (congrArg Prod.fst he)
        cases ht
    | inLine ticket => trivial

/-- A command that is up to others goes on through the writer. -/
theorem serves_writing (room : Interference.Room b none s d) {c : Passage}
    (hc : (Phase.writing .plain c).Within b) (time : Nat) :
    s.Serves b d (s.advance time d (.writing .plain c)) := by
  have acknowledged : ∀ s' d' r, (acknowledge s' d' .plain r).2 = (s', d') ∧
      ∀ p, (acknowledge s' d' .plain r).1 ≠ .going p := by
    intro s' d' r
    rcases r with e | u <;> exact ⟨rfl, fun _ h => nomatch h⟩
  rw [advance]
  cases c with
  | alone c =>
    have aside := s.write_aside d .plain (.alone c)
    have does : d.Does [c.action s.access.removeFinished] (s.write d .plain (.alone c)).2.2 :=
      advance_does time (.writing .plain (.alone c))
    have same : (s.write d .plain (.alone c)).2.1 = s := by
      rw [write]
      split
      · rfl
      · rw [(acknowledged _ _ _).1]
      · rw [(acknowledged _ _ _).1]
    refine ⟨?_, fun h => ?_, fun p h => ?_⟩
    · rw [same]
      refine room.led_does (fun a ha => ?_) aside does (.refl s)
      rw [List.mem_singleton.1 ha]
      exact hc _
    · rw [same]
      exact h.aside aside (.refl s)
    · rw [write] at h
      split at h
      · cases h
      · exact absurd h ((acknowledged _ _ _).2 p)
      · exact absurd h ((acknowledged _ _ _).2 p)
  | inLine ticket =>
    rw [write]
    split
    · rename_i w r hw
      obtain ⟨v, hv, hr⟩ := Option.bind_eq_some_iff.1 hw
      obtain ⟨r', -, he⟩ := Option.map_eq_some_iff.1 hr
      cases he
      have led := room.led_next (m := .receives ticket) trivial
      have clear := fun h : Interference.Clear s d => h.next room (m := .receives ticket) trivial
      simp only [Interference.next, if_neg (Option.some_ne_none ticket).symm, hv, Option.map_some]
        at led clear
      refine ⟨?_, fun h => ?_, fun p h => absurd h ((acknowledged _ _ _).2 p)⟩
      · rw [(acknowledged _ _ _).1]
        exact led
      · rw [(acknowledged _ _ _).1]
        exact clear h
    · exact serves_going room hc

theorem advance_serves (room : Interference.Room b none s d) {p : Phase} (hp : p.Within b) (time : Nat) :
    s.Serves b d (s.advance time d p) := by
  cases p with
  | stating q => exact serves_stating room hp time
  | writing q c =>
    cases q with
    | plain => exact serves_writing room hp time
    | _ => exact hp.elim
  | _ => exact hp.elim

/-- Stores workflows outside a transaction, one after the other up to the first that is refused. -/
theorem insertHeld_serves (room : Interference.Room b none s d) (hw : ∀ w, b.foreign (.insert w))
    (ws : List Workflow) : Interference.Drift b s d (s.insertHeld d ws).2.1 (s.insertHeld d ws).2.2 ∧
      (Interference.Clear s d → Interference.Clear (s.insertHeld d ws).2.1 (s.insertHeld d ws).2.2) := by
  obtain ⟨alike, mild⟩ := s.insertHeld_gentle d ws
  have chain : (s.insertHeld d ws).2.2.Both (d.store.Amid b.foreign []) := by
    refine insertHeld_both ws (fun w _ t ht => ?_) ⟨.nil _, fun t h => ?_⟩
    · rcases ha : t.act (.insert w) with ⟨e | o, t'⟩
      · have : t' = t := by
          rcases Store.insert_one t w with same | ⟨id, hid, hf, hs⟩
          · exact (congrArg Prod.snd ha).symm.trans same
          · simp only [Store.act, Store.plainly, Store.insert, hid, hf] at ha
            cases congrArg Prod.fst ha
        exact this ▸ ht
      · have := ht.append (.other (hw w) ha (.nil _))
        rwa [List.append_nil] at this
    · cases room.free.symm.trans h
  refine ⟨⟨?_, chain.1, by rw [alike.batcher]⟩, (·.aside mild.aside alike)⟩
  exact ⟨mild.aside.held.trans room.free, mild.aside.timely room.timely,
    fun hc => mild.aside.gentle (room.gentle hc), alike.access ▸ room.removal,
    alike.batcher ▸ room.tidy, alike.batcher ▸ room.strangers⟩

end Storage

/-! ## The way of an ask -/

/-- What is asked for in this phase is up to others. -/
def AskPhase.Within (b : Bounds) : AskPhase → Prop
  | .arriving a => a.Within b
  | .storing p errand => p.Within b ∧ ∀ id, errand = .restart id → b.foreign (.load id)
  | .waking a _ => a.Plain

namespace Engine

open Interference (Clear Drift Room)

/-- A step of an ask that is up to others and whose answers satisfy `P`. -/
structure Consults (b : Bounds) (e : Engine) (x : Site) (P : Answer → Prop)
    (step : AskProgress × Engine × Site) : Prop where
  led : Drift b e.storage x.db step.2.1.storage step.2.2.db
  clear : Clear e.storage x.db → Clear step.2.1.storage step.2.2.db
  going : ∀ q, step.1 = .going q → q.Within b ∧ ∀ a, q.MayGive a → P a
  ends : ∀ a, step.1 = .over a → P a

variable {b : Bounds} {e : Engine} {x : Site} {P : Answer → Prop}

theorem Consults.imp {Q : Answer → Prop} {step : AskProgress × Engine × Site}
    (h : e.Consults b x P step) (hpq : ∀ a, P a → Q a) : e.Consults b x Q step :=
  ⟨h.led, h.clear, fun q hq => ⟨(h.going q hq).1, fun a ha => hpq a ((h.going q hq).2 a ha)⟩,
    fun a ha => hpq a (h.ends a ha)⟩

theorem Consults.after {f : Engine} {y : Site} {step : AskProgress × Engine × Site}
    (led : Drift b e.storage x.db f.storage y.db)
    (clear : Clear e.storage x.db → Clear f.storage y.db) (h : f.Consults b y P step) :
    e.Consults b x P step :=
  ⟨led.trans h.led, h.clear ∘ clear, h.going, h.ends⟩

theorem Consults.told {y : Site} {step : AskProgress × Engine × Site}
    (room : Room b none e.storage x.db) (ht : x.db.Told y.db)
    (h : Room b none e.storage y.db → e.Consults b y P step) : e.Consults b x P step :=
  .after (room.led.told ht) (·.aside ht.mild.aside (.refl _)) (h (room.told ht))

theorem consults_over (room : Room b none e.storage x.db) {a : Answer} (h : P a) :
    e.Consults b x P (.over a, e, x) :=
  ⟨room.led, fun h => h, fun _ h => (nomatch h), fun c hc => by cases hc; exact h⟩

theorem consults_going (room : Room b none e.storage x.db) {q : AskPhase} (h : q.Within b)
    (ha : ∀ a, q.MayGive a → P a) : e.Consults b x P (.going q, e, x) :=
  ⟨room.led, fun h => h, fun r hr => by cases hr; exact ⟨h, ha⟩, fun _ h => (nomatch h)⟩

theorem conclude_consults (room : Room b none e.storage x.db) {errand : Errand}
    (he : ∀ id, errand = .restart id → b.foreign (.load id)) (r : Storage.Reply) :
    e.Consults b x Answer.Plain (e.conclude x errand r) := by
  unfold conclude
  split
  · exact consults_over room fun _ h => nomatch h
  · exact consults_over room fun _ h => nomatch h
  · exact consults_going room (submittedAnswer_plain _ _) fun _ h => h
  · exact consults_over room fun _ h => nomatch h
  · rename_i id _ _
    refine consults_going room ⟨⟨trivial, fun _ a ha => ?_⟩, fun _ h => nomatch h⟩ fun _ h => h
    rw [List.mem_singleton.1 ha]
    exact he id rfl
  · exact consults_going room (fun _ h => nomatch h) fun _ h => h
  · exact consults_going room (fun _ h => nomatch h) fun _ h => h
  · exact consults_over room fun _ h => nomatch h

theorem stored_goes {p : Storage.Phase} {s : Storage} {d : Database}
    (h : e.storage.Serves b x.db (.going p, s, d)) {errand : Errand}
    (he : ∀ id, errand = .restart id → b.foreign (.load id)) :
    e.Consults b x Answer.Plain
      (.going (.storing p errand), { e with storage := s }, { x with db := d }) :=
  .after (f := { e with storage := s }) (y := { x with db := d }) h.led h.clear
    (consults_going h.led.room ⟨h.within p rfl, he⟩ fun _ h => h)

theorem stored_ends {r : Storage.Reply} {s : Storage} {d : Database}
    (h : e.storage.Serves b x.db (.over r, s, d)) {errand : Errand}
    (he : ∀ id, errand = .restart id → b.foreign (.load id)) :
    e.Consults b x Answer.Plain (conclude { e with storage := s } { x with db := d } errand r) :=
  .after (f := { e with storage := s }) (y := { x with db := d }) h.led h.clear
    (conclude_consults h.led.room he r)

theorem send_consults {c : Storage.Call} (h : e.storage.Serves b x.db (e.storage.begin x.db c))
    {errand : Errand} (he : ∀ id, errand = .restart id → b.foreign (.load id)) :
    e.Consults b x Answer.Plain (e.send x c errand) := by
  unfold send
  split <;> rename_i hb <;> rw [hb] at h
  · exact stored_goes h he
  · exact stored_ends h he

theorem send_stating (room : Room b none e.storage x.db) {c : Storage.Call} {q : Storage.Statement}
    (hc : e.storage.begin x.db c = (.going (.stating q), e.storage, x.db))
    (hq : (Storage.Phase.stating q).Within b) {errand : Errand}
    (he : ∀ id, errand = .restart id → b.foreign (.load id)) :
    e.Consults b x Answer.Plain (e.send x c errand) :=
  send_consults (hc ▸ Storage.serves_going room hq) he

theorem sendWork_consults (room : Room b none e.storage x.db) (hw : ∀ w, b.foreign (.insert w))
    (single : Bool) (batch : List Submission) :
    e.Consults b x Answer.Plain (e.sendWork x single batch) := by
  have ht := e.prepare_told batch x
  unfold sendWork
  split <;> rename_i hp <;> rw [hp] at ht
  · exact .told room ht fun room => consults_over room fun _ h => nomatch h
  · rename_i work x₁
    refine .told room ht fun room => ?_
    split
    · exact consults_over room fun _ h => nomatch h
    · rename_i some
      obtain ⟨first, rest, rfl⟩ :=
        List.exists_cons_of_ne_nil fun h : work = [] => some (by rw [h]; rfl)
      refine send_stating room (q := .insert _) rfl ⟨trivial, fun _ a ha => ?_⟩
        fun _ h => nomatch h
      obtain ⟨w, -, rfl⟩ := List.mem_map.1 ha
      exact hw w

theorem storeHeld_consults (room : Room b none e.storage x.db) (hw : ∀ w, b.foreign (.insert w))
    (batch : List Submission) : e.Consults b x Answer.Plain (e.storeHeld x batch) := by
  have ht := e.prepare_told batch x
  unfold storeHeld
  split <;> rename_i hp <;> rw [hp] at ht
  · exact .told room ht fun room => consults_over room fun _ h => nomatch h
  · rename_i work x₁
    refine .told room ht fun room => ?_
    obtain ⟨led, clear⟩ := Storage.insertHeld_serves room hw (work.map (·.2))
    dsimp only
    split <;> rename_i he <;> rw [he] at led clear
    · rename_i cause s d
      exact .after (f := { e with storage := s }) (y := { x₁ with db := d }) led clear
        (consults_over led.room fun _ h => nomatch h)
    · rename_i m s d
      exact .after (f := { e with storage := s }) (y := { x₁ with db := d }) led clear
        (consults_over led.room fun _ h => nomatch h)
    · rename_i s d _ _
      exact .after (f := { e with storage := s }) (y := { x₁ with db := d }) led clear
        (consults_going led.room (fun _ h => nomatch h) fun _ h => h)

theorem accept_consults (room : Room b none e.storage x.db) {a : Ask} (ha : a.Within b) :
    e.Consults b x a.MayGive (e.accept x a) := by
  have plain : ∀ {step}, e.Consults b x Answer.Plain step → e.Consults b x a.MayGive step :=
    fun h => h.imp fun _ hp => hp.mayGive a
  cases a with
  | register w quorum timeout correlations =>
    obtain ⟨ht, hr⟩ := e.register_told x.db w quorum timeout correlations
    exact .told (y := { x with db := _ }) room ht fun room => consults_over room hr
  | submit batch => exact plain (sendWork_consults room ha false batch)
  | submitOne one => exact plain (sendWork_consults room ha true [one])
  | submitHeld batch => exact plain (storeHeld_consults room ha batch)
  | notify r =>
    exact plain (send_consults (Storage.serves_notify room ha r) fun _ h => nomatch h)
  | notifyAll rs =>
    refine plain (send_stating room (c := .notifyAll rs) rfl ⟨trivial, fun _ a hm => ?_⟩
      fun _ h => nomatch h)
    obtain ⟨r, -, rfl⟩ := List.mem_map.1 hm
    exact ha r
  | restart id =>
    refine plain (send_stating room (c := .restart id) rfl ⟨trivial, fun _ a hm => ?_⟩
      fun _ h => by cases h; exact ha.2)
    rw [List.mem_singleton.1 hm]
    exact ha.1
  | restartAll =>
    refine plain (send_stating room (c := .restartAll) rfl ⟨trivial, fun _ a hm => ?_⟩
      fun _ h => nomatch h)
    rw [List.mem_singleton.1 hm]
    exact ha

/-- **Each step of an ask** that is up to others leads where others could have led, and the ask is
answered as it may be. -/
theorem advanceAsk_consults (room : Room b none e.storage x.db) {p : AskPhase} (hp : p.Within b) :
    e.Consults b x p.MayGive (e.advanceAsk x p) := by
  cases p with
  | arriving a =>
    rw [advanceAsk]
    split
    · split
      · exact accept_consults room hp
      · exact consults_over room (Answer.Plain.mayGive (fun w h => by cases h) a)
    · exact accept_consults room hp
  | storing p errand =>
    have h := Storage.advance_serves room hp.1 x.time
    rw [advanceAsk]
    split <;> rename_i he <;> rw [he] at h
    · exact stored_goes h hp.2
    · exact stored_ends h hp.2
  | waking a pools =>
    cases pools with
    | nil => exact consults_over room hp
    | cons pool pools =>
      obtain ⟨calm, ht⟩ := e.wakePool_calm x.db pool
      have alike := calm.alike.storage
      have led : Drift b e.storage x.db (e.wakePool x.db pool).1.storage (e.wakePool x.db pool).2 :=
        room.led_does (List.forall_mem_nil _) ht.mild.aside (ht.does []) alike
      exact .after (y := { x with db := (e.wakePool x.db pool).2 }) led
        (·.aside ht.mild.aside alike) (consults_going led.room hp fun _ h => h)

end Engine

end Resumption
