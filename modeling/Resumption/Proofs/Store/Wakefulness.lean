import Resumption.Proofs.Database.Session
import Resumption.Proofs.Store.Change

/-!
# No lost wake-up

A response and the wait that wants it can come in either order, and waits are dropped or replaced
in half a dozen ways. Still no instance sleeps on a wait that is already satisfied.

**Invariant.** `Store.Wakeful`: no record wants an unclaimed response, and a suspension that lasts
is a sound one on a callback of the run. The two sides of the matching keep it for different
reasons: a delivery stays unclaimed only when no record wants it, and a new suspension collects
until it wants nothing of what is left (`Store.suspended_sated`). Every other action only makes
records want less (`Store.Change.wants`).

**Result.** `no_lost_wakeup`: in every session, whatever transactions are committed, rolled back or
forgotten and whichever calls fail, a waiting instance waits on a callback of the session that the
responses at hand do not satisfy.
-/

namespace Resumption

/-! ## Callbacks of a session -/

/-- The callback that a command suspends an instance on. -/
def Command.callback? : Command → Option Callback
  | .suspend c _ => some c
  | _ => none

/-- The callbacks that an operation suspends instances on. -/
def Operation.callbacks : Operation → List Callback
  | .suspend c _ => [c]
  | .execute cs => cs.filterMap Command.callback?
  | _ => []

/-- The callbacks that a move suspends instances on. -/
def Move.callbacks : Move → List Callback
  | .perform _ op => op.callbacks
  | _ => []

theorem Command.callback?_action (remove : Bool) (c : Command) :
    (c.action remove).callback? = c.callback? := by cases c <;> rfl

theorem Store.Request.callback_mem {q : Store.Request} {x : Action} (hx : x ∈ q.actions)
    {c : Callback} (hc : x.callback? = some c) : c ∈ q.operation.callbacks := by
  obtain ⟨a, now, op⟩ := q
  cases op with
  | insert ws => obtain ⟨w, -, rfl⟩ := List.mem_map.1 hx; cases hc
  | notify rs => obtain ⟨r, -, rfl⟩ := List.mem_map.1 hx; cases hc
  | execute cs =>
    obtain ⟨k, hk, rfl⟩ := List.mem_map.1 hx
    rw [Command.callback?_action] at hc
    exact List.mem_filterMap.2 ⟨k, hk, hc⟩
  | suspend c' payload =>
    cases List.mem_singleton.1 hx
    cases hc
    exact List.mem_singleton_self c
  | _ => cases List.mem_singleton.1 hx; cases hc

namespace Store

/-! ## The invariant -/

/-- No record wants an unclaimed response, and each suspension is a sound one on a callback of
`cs`. -/
structure Wakeful (cs : List Callback) (s : Store) : Prop where
  unique : s.Unique
  sated : ∀ r ∈ s.records, ∀ u ∈ s.unclaimed, r.wants u.response.correlation = false
  sound : ∀ r ∈ s.records, ∀ z, r.status = .waiting z →
    ∃ c ∈ cs, c.instanceId = r.id ∧ z.Sound c

theorem wakeful_empty (cs : List Callback) : Wakeful cs .empty :=
  ⟨unique_empty, fun _ h => (by cases h), fun _ h => (by cases h)⟩

/-- A record wants no more after a change than before, unless it is suspended. -/
theorem Change.wants {s : Store} {a : Action} {r r' : Record} (h : s.Change a r r') {d : String}
    (hd : r'.wants d = true) :
    r.wants d = true ∨
      ∃ c payload, a = .suspend c payload ∧ r.id = c.instanceId ∧
        r' = (s.suspended c payload r).1 := by
  cases h with
  | same _ => exact Or.inl hd
  | deliver hw => exact Or.inl (Record.wants_of_answer hw hd)
  | suspend hid => exact Or.inr ⟨_, _, rfl, hid, rfl⟩
  | promote _ =>
    unfold Record.promote at hd
    split at hd <;> cases hd
  | _ => cases hd

/-- What is left unclaimed when a stored instance is suspended. -/
theorem suspend_unclaimed {s : Store} (hu : s.Unique) {c : Callback} {r : Record}
    (hr : r ∈ s.records) (hid : r.id = c.instanceId) (payload : Json) :
    (s.act (.suspend c payload)).2.unclaimed = (s.suspended c payload r).2 := by
  have hf : s.find? c.instanceId = some r := hid ▸ hu.find? hr
  rw [act, plainly, suspend_present hf]

theorem sated_act {cs : List Callback} {s : Store} (h : s.Wakeful cs) (a : Action) :
    ∀ r' ∈ (s.act a).2.records, ∀ u ∈ (s.act a).2.unclaimed,
      r'.wants u.response.correlation = false := by
  intro r' hr' u hu
  rw [Bool.eq_false_iff]
  intro hw
  rcases act_records h.unique a hr' with ⟨r, hr, hc⟩ | ⟨w, id, -, -, -, rfl⟩
  · rcases hc.wants hw with hw' | ⟨c, payload, rfl, hid, rfl⟩
    · rcases act_unclaimed s a hu with hu' | ⟨x, -, rfl, hn⟩
      · rw [h.sated r hr u hu'] at hw'; cases hw'
      · rw [hn r hr] at hw'; cases hw'
    · rw [suspend_unclaimed h.unique hr hid] at hu
      rw [suspended_sated s c payload r u hu] at hw
      cases hw
  · cases hw

theorem wakeful_act {cs : List Callback} {s : Store} (h : s.Wakeful cs) {a : Action}
    (ha : ∀ c, a.callback? = some c → c ∈ cs) : (s.act a).2.Wakeful cs := by
  refine ⟨act_unique s a h.unique, sated_act h a, ?_⟩
  intro r' hr' z' hz'
  rcases act_records h.unique a hr' with ⟨r, hr, hc⟩ | ⟨w, id, -, -, -, rfl⟩
  · rcases hc.sound hz' with ⟨z, hz, hk⟩ | ⟨c, payload, rfl, hid, hs⟩
    · obtain ⟨c, hmem, hid, hs⟩ := h.sound r hr z hz
      exact ⟨c, hmem, hid.trans hc.id.symm, hk c hs⟩
    · exact ⟨c, ha c rfl, (hc.id.trans hid).symm, hs⟩
  · cases hz'

end Store

theorem after_wakeful (clock : Instant) (ms : List Move) :
    ((Database.create clock).after ms).store.Wakeful (ms.flatMap Move.callbacks) := by
  refine (Database.after_holds ms (fun a op hm now s x hx hs => ?_) _
    ⟨Store.wakeful_empty _, fun _ h => by cases h⟩).1
  refine Store.wakeful_act hs fun c hc => ?_
  exact List.mem_flatMap.2 ⟨_, hm, Store.Request.callback_mem hx hc⟩

/-- **No lost wake-up.** After every session a waiting instance waits on a callback of the session,
one wait for each of its ids, such that no unclaimed response is one to an id with an open wait;
with the quorum `first` all waits are open, and with the quorum `all` some wait is open unless the
callback names no id. -/
theorem no_lost_wakeup (clock : Instant) (ms : List Move) {r : Record} {z : Suspension}
    (hr : r ∈ ((Database.create clock).after ms).store.records) (hz : r.status = .waiting z) :
    ∃ c ∈ ms.flatMap Move.callbacks, c.instanceId = r.id ∧ z.quorum = c.quorum ∧
      z.waits.map (·.correlation) = c.correlations ∧
      (∀ w ∈ z.waits, w.answer = none →
        ∀ u ∈ ((Database.create clock).after ms).store.unclaimed,
          u.response.correlation ≠ w.correlation) ∧
      (c.quorum = .first → ∀ w ∈ z.waits, w.answer = none) ∧
      (c.quorum = .all → c.correlations ≠ [] → ∃ w ∈ z.waits, w.answer = none) := by
  have h := after_wakeful clock ms
  obtain ⟨c, hc, hid, hs⟩ := h.sound r hr z hz
  refine ⟨c, hc, hid, hs.asks.quorum, hs.asks.correlations, ?_, ?_, ?_⟩
  · intro w hw hn u hu he
    have hwant : r.wants u.response.correlation = true := by
      refine Record.wants_iff.2 ⟨z, hz, (Suspension.any_opens_iff _ _).1 ?_⟩
      exact List.any_eq_true.2 ⟨w, hw, Suspension.opens_iff.2 ⟨hn, he.symm⟩⟩
    rw [h.sated r hr u hu] at hwant
    cases hwant
  · rw [← hs.asks.quorum]
    exact hs.unresolved.first
  · rw [← hs.asks.quorum, ← hs.asks.correlations]
    exact fun hq hne => hs.unresolved.all hq fun e => hne (by rw [e]; rfl)

/-- Two answers to the first of two ids arrive before the instance is suspended on both. -/
def earlyAnswers : List Move :=
  let a : Access := ⟨"engine", false⟩
  let x : Response := ⟨"a", .ok .null, .epoch, none⟩
  [.perform a (.insert [{ Workflow.create "t" .null with id := some ⟨1⟩ }]), .hold,
    .perform a (.notify [x, x]), .perform a (.suspend ⟨⟨1⟩, .all, none, ["a", "b"]⟩ .null), .commit]

/-- The instance takes one of the two answers and waits on. -/
theorem no_lost_wakeup_early :
    ∃ r ∈ ((Database.create .epoch).after earlyAnswers).store.records, ∃ z,
      r.status = .waiting z ∧ ∀ w ∈ z.waits, w.answer = none →
        ∀ u ∈ ((Database.create .epoch).after earlyAnswers).store.unclaimed,
          u.response.correlation ≠ w.correlation := by
  let z : Suspension :=
    ⟨.all, none, 2, [⟨"a", some ⟨"a", .ok .null, .epoch, none⟩⟩, ⟨"b", none⟩]⟩
  let r : Record := ⟨⟨1⟩, 1, "t", "P#DEFAULT", 0, .null, .waiting z, none, [], false⟩
  have hr : r ∈ ((Database.create .epoch).after earlyAnswers).store.records := by decide
  obtain ⟨c, -, -, -, -, h, -⟩ := no_lost_wakeup .epoch earlyAnswers hr rfl
  exact ⟨r, hr, z, rfl, h⟩

end Resumption
