import Resumption.Proofs.Engine.Preparation
import Resumption.Proofs.Engine.Ruling
import Resumption.Proofs.Storage.Actions

/-!
# The pools of what is submitted

An ask stores instances for pools that its engine knows and for no others, in whatever phase it is and
whatever happens between its steps (`Engine.advanceAsk_pooling`). So where instances are stored by asks
alone, any number of them at a time, in transactions of their own or in those that callers hold, every
stored instance has a known pool (`Filled.pooled`).
-/

namespace Resumption

/-- An engine and the site at some time. -/
structure Moment where
  engine : Engine
  site : Site

/-- The move stores no instance. -/
def Move.StoresNothing : Move → Prop
  | .perform _ (.insert _) => False
  | _ => True

/-- The phases of asks that go on at engines that know these pools. -/
inductive Engine.Reaches (known : String → Bool) : AskPhase → Prop where
  | arriving (a : Ask) : Reaches known (.arriving a)
  | goes {p q : AskPhase} (m : Moment) : Reaches known p → m.engine.processors.knows = known →
      (m.engine.advanceAsk m.site p).1 = .going q → Reaches known q

/-- The databases that come about by asks of engines that know these pools, any number of them at a
time, and by whatever else stores no instance. -/
inductive Filled (known : String → Bool) : Database → Prop where
  | empty (clock : Instant) : Filled known (.create clock)
  | asks {p : AskPhase} (m : Moment) : Filled known m.site.db → m.engine.processors.knows = known →
      Engine.Reaches known p → Filled known (m.engine.advanceAsk m.site p).2.2.db
  | moves {d : Database} (m : Move) : Filled known d → m.StoresNothing → Filled known (d.next m)

/-- Ids are told apart, and every stored instance has a pool that is known. -/
def Store.Pooled (known : String → Bool) (s : Store) : Prop :=
  s.Unique ∧ ∀ r ∈ s.records, known r.pool = true

section
variable {known : String → Bool}

/-- The action stores no instance but for a pool that is known. -/
def Action.Pooled (known : String → Bool) : Action → Prop
  | .insert w => known w.effectivePool = true
  | _ => True

/-- An action that stores no instance but for a known pool keeps the pools known. -/
theorem Store.Pooled.act {s : Store} (h : s.Pooled known) {a : Action} (ha : a.Pooled known) :
    (s.act a).2.Pooled known := by
  refine ⟨act_unique s a h.1, fun r hr => ?_⟩
  rcases act_records h.1 a hr with ⟨t, ht, hc⟩ | ⟨w, id, rfl, -, -, rfl⟩
  · rw [hc.pool]
    exact h.2 t ht
  · exact ha

/-- The phase stores no instance but for a pool that is known. -/
def Storage.Phase.Pooled (known : String → Bool) : Storage.Phase → Prop
  | .stating (.insert ws) => ∀ w ∈ ws, known w.effectivePool = true
  | _ => True

theorem Storage.Phase.Pooled.actions {p : Storage.Phase} (hp : p.Pooled known) (s : Storage)
    (now : Instant) : ∀ a ∈ p.actions s now, a.Pooled known := by
  have one : ∀ {a b : Action}, b ∈ [a] → a.Pooled known → b.Pooled known := fun hb ha => by
    rw [List.mem_singleton.1 hb]
    exact ha
  intro a ha
  cases p with
  | stating q =>
    cases q with
    | insert ws =>
      obtain ⟨w, hw, rfl⟩ := List.mem_map.1 ha
      exact hp w hw
    | notify rs =>
      obtain ⟨r, -, rfl⟩ := List.mem_map.1 ha
      trivial
    | _ => exact one ha trivial
  | writing purpose passage =>
    cases passage with
    | alone c => cases c <;> exact one ha trivial
    | inLine ticket => cases ha
  | sweeping => exact one ha trivial
  | recovering => exact one ha trivial
  | _ => cases ha

namespace Storage

variable {s : Storage} {d : Database}

theorem beginFail_going {w : Workflow} {cause : String} {p : Phase}
    (h : (s.beginFail d w cause).1 = .going p) : p.Pooled known := by
  unfold beginFail at h
  split at h
  · cases h
  · split at h <;> cases h
    trivial

theorem acknowledge_going {purpose : Purpose} {r : Except StoreError Unit} {p : Phase}
    (h : (s.acknowledge d purpose r).1 = .going p) : p.Pooled known := by
  unfold acknowledge at h
  split at h
  · cases h
  · cases h
  · cases h
  · cases h
  · cases h
  · cases h
  · exact beginFail_going h

theorem beginWrite_going {purpose : Purpose} {c : Command} {p : Phase}
    (h : (s.beginWrite d purpose c).1 = .going p) : p.Pooled known := by
  unfold beginWrite at h
  split at h
  · cases h
    trivial
  · exact acknowledge_going h

/-- The calls that an engine makes for an ask; those that store instances store them for pools that
are known. -/
def Call.Pooled (known : String → Bool) : Call → Prop
  | .insert ws => ∀ w ∈ ws, known w.effectivePool = true
  | .notify _ | .notifyAll _ | .restart _ | .restartAll => True
  | _ => False

theorem begin_pooled {c : Call} (hc : c.Pooled known) {p : Phase}
    (h : (s.begin d c).1 = .going p) : p.Pooled known := by
  cases c with
  | insert ws =>
    cases ws with
    | nil => cases h
    | cons w ws =>
      cases h
      exact hc
  | notify r => exact beginWrite_going h
  | notifyAll rs => cases h; trivial
  | restart id => cases h; trivial
  | restartAll => cases h; trivial
  | _ => exact hc.elim

theorem advance_going {time : Nat} {p q : Phase} (h : (s.advance time d p).1 = .going q) :
    q.Pooled known := by
  cases p with
  | stating st => cases h
  | writing purpose passage =>
    rw [advance] at h
    cases passage with
    | alone c =>
      rw [write] at h
      split at h
      · cases h
      · exact acknowledge_going h
      · exact acknowledge_going h
    | inLine ticket =>
      rw [write] at h
      split at h
      · exact acknowledge_going h
      · cases h
        trivial
  | sweeping =>
    rw [advance] at h
    split at h <;> cases h <;> trivial
  | recovering =>
    rw [advance] at h
    split at h <;> cases h
  | draining stopping =>
    rw [advance] at h
    cases stopping <;> split at h <;> cases h <;> trivial
  | joining => cases h

end Storage

/-- What the phase of an ask stores is for pools that are known. -/
def AskPhase.Pooled (known : String → Bool) : AskPhase → Prop
  | .storing p _ => p.Pooled known
  | _ => True

namespace Engine

variable {e : Engine} {x : Site}

/-- A step of an ask that keeps the pools in the store known, and goes on like this. -/
structure Pooling (known : String → Bool) (d : Database) (step : AskProgress × Engine × Site) :
    Prop where
  both : d.Both (Store.Pooled known) → step.2.2.db.Both (Store.Pooled known)
  next : ∀ q, step.1 = .going q → q.Pooled known

variable {d : Database}

theorem pooling_over {a : Answer} (h : d.Told x.db) : Pooling known d (.over a, e, x) :=
  ⟨h.both, fun _ hq => nomatch hq⟩

theorem conclude_pooling (h : d.Both (Store.Pooled known) → x.db.Both (Store.Pooled known))
    (errand : Errand) (r : Storage.Reply) : Pooling known d (e.conclude x errand r) := by
  refine ⟨by rw [conclude_site]; exact h, fun q hq => ?_⟩
  unfold conclude at hq
  split at hq <;> cases hq <;> trivial

theorem send_pooling (h : d.Told x.db) {c : Storage.Call} (hc : c.Pooled known) (errand : Errand) :
    Pooling known d (e.send x c errand) := by
  have ht := h.trans (e.storage.begin_told x.db c)
  unfold send
  split <;> rename_i he <;> rw [he] at ht
  · exact ⟨ht.both, fun q hq => by
      cases hq
      exact Storage.begin_pooled hc (congrArg Prod.fst he)⟩
  · exact conclude_pooling ht.both _ _

variable (hk : e.processors.knows Workflow.defaultPool = true)
include hk

theorem sendWork_pooling (x : Site) (single : Bool) (batch : List Submission) :
    Pooling e.processors.knows x.db (e.sendWork x single batch) := by
  have ht := e.prepare_told batch x
  unfold sendWork
  split <;> rename_i he <;> rw [he] at ht
  · exact pooling_over ht
  · split
    · exact pooling_over ht
    · exact send_pooling (c := .insert _) ht (prepare_known hk he) _

theorem storeHeld_pooling (x : Site) (batch : List Submission) :
    Pooling e.processors.knows x.db (e.storeHeld x batch) := by
  have ht := e.prepare_told batch x
  unfold storeHeld
  split <;> rename_i he <;> rw [he] at ht
  · exact pooling_over ht
  · rename_i work x₁
    have hw : ∀ w ∈ work.map (·.2), ∀ t : Store, t.Pooled e.processors.knows →
        (t.act (.insert w)).2.Pooled e.processors.knows :=
      fun w hw t hp => hp.act (prepare_known hk he w hw)
    have hb := fun h => Storage.insertHeld_both (s := e.storage) _ hw (ht.both h)
    dsimp only
    split <;> rename_i he' <;> rw [he'] at hb
    · exact ⟨hb, fun _ hq => nomatch hq⟩
    · exact ⟨hb, fun _ hq => nomatch hq⟩
    · exact ⟨hb, fun q hq => by cases hq; trivial⟩

theorem accept_pooling (x : Site) (a : Ask) :
    Pooling e.processors.knows x.db (e.accept x a) := by
  cases a with
  | submit batch => exact sendWork_pooling hk x false batch
  | submitOne one => exact sendWork_pooling hk x true [one]
  | submitHeld batch => exact storeHeld_pooling hk x batch
  | register w quorum timeout correlations =>
    exact pooling_over (x := { x with db := _ })
      (e.register_told x.db w quorum timeout correlations).1
  | notify r => exact send_pooling (c := .notify r) (.refl x.db) trivial _
  | notifyAll rs => exact send_pooling (c := .notifyAll rs) (.refl x.db) trivial _
  | restart id => exact send_pooling (c := .restart id) (.refl x.db) trivial _
  | restartAll => exact send_pooling (c := .restartAll) (.refl x.db) trivial _

/-- **Each step of an ask** keeps the pools known. -/
theorem advanceAsk_pooling (x : Site) {p : AskPhase} (hp : p.Pooled e.processors.knows) :
    Pooling e.processors.knows x.db (e.advanceAsk x p) := by
  cases p with
  | arriving a =>
    rw [advanceAsk]
    split
    · split
      · exact accept_pooling hk x a
      · exact pooling_over (.refl x.db)
    · exact accept_pooling hk x a
  | storing p errand =>
    have hb := Storage.advance_both (P := Store.Pooled e.processors.knows) (s := e.storage)
      (d := x.db) x.time
      fun a ha t ht => ht.act (Storage.Phase.Pooled.actions hp e.storage x.db.clock a ha)
    rw [advanceAsk]
    split <;> rename_i he <;> rw [he] at hb
    · exact ⟨hb, fun q hq => by
        cases hq
        exact Storage.advance_going (congrArg Prod.fst he)⟩
    · exact conclude_pooling hb _ _
  | waking a pools =>
    cases pools with
    | nil => exact pooling_over (.refl x.db)
    | cons pool pools =>
      exact ⟨(e.wakePool_calm x.db pool).2.both, fun q hq => by cases hq; trivial⟩

end Engine

theorem Store.Request.actions_pooled {a : Access} {op : Operation} (now : Instant)
    (h : (Move.perform a op).StoresNothing) :
    ∀ x ∈ Store.Request.actions ⟨a, now, op⟩, x.Pooled known := by
  intro x hx
  cases op with
  | insert ws => exact h.elim
  | notify rs =>
    obtain ⟨r, -, rfl⟩ := List.mem_map.1 hx
    trivial
  | execute cs =>
    obtain ⟨c, -, rfl⟩ := List.mem_map.1 hx
    cases c <;> trivial
  | _ =>
    rw [List.mem_singleton.1 hx]
    trivial

theorem Engine.Reaches.pooled (hk : known Workflow.defaultPool = true) {p : AskPhase}
    (h : Engine.Reaches known p) : p.Pooled known := by
  induction h with
  | arriving a => trivial
  | goes m _ hm hq ih =>
    subst hm
    exact (Engine.advanceAsk_pooling hk m.site ih).next _ hq

/-- What comes about by submissions has known pools only. -/
theorem Filled.pooled (hk : known Workflow.defaultPool = true) {d : Database}
    (h : Filled known d) : d.Both (Store.Pooled known) := by
  induction h with
  | empty clock => exact ⟨⟨Store.unique_empty, fun _ h => nomatch h⟩, fun _ h => nomatch h⟩
  | asks m _ hm hp ih =>
    subst hm
    exact (Engine.advanceAsk_pooling hk m.site (hp.pooled hk)).both ih
  | moves m _ hs ih =>
    refine Database.next_both ih fun a op he now s x hx ht => ht.act ?_
    subst he
    exact Store.Request.actions_pooled now hs x hx

end

end Resumption
