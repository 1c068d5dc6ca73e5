import Resumption.Proofs.Engine.Stage

/-!
# The life of an engine

What the stages of an engine say of its orders, its gate and its components (`Engine.Lawful`): the
orders bring it up and then down, the gate is closed until the start is over, an engine that is started
runs all its pools, and one whose start has failed or that is stopped is shut down (`Engine.Shut`).
-/

namespace Resumption

/-- What one processor has become that is shut down: a pool does not run, and a probe was stopped once. -/
def Standing.Down : Standing → Standing → Prop
  | pool _, pool status => status = .idle ∨ status = .stopped
  | probe _ before, probe _ stops => stops = before + 1
  | _, _ => False

namespace Order

/-- What is brought up at most and then brought down is stopped once. -/
theorem count_stopProcessors {given : List Order} (h : given <+: up) :
    (given ++ down).count stopProcessors = 1 := by
  rw [List.count_append, List.count_eq_zero.2 fun hm => absurd (h.subset hm) (by decide)]
  rfl

/-- A processor that is brought down and not draining is down. -/
theorem down_onProcessor {given : List Order} (h : given <+: up) {s s' : Standing}
    (hs : s' = (given ++ down).foldl onProcessor s.settled) (hd : s' ≠ .pool .draining) :
    s.Down s' := by
  cases s with
  | probe starts stops =>
    rw [show Standing.settled (.probe starts stops) = .probe starts stops from rfl,
      onProcessor_probe, count_stopProcessors h] at hs
    subst hs
    rfl
  | pool status =>
    obtain ⟨status', hst⟩ : ∃ status', given.foldl onProcessor (Standing.settled (.pool status)) =
        .pool status' := by
      cases status <;> exact onProcessor_pool given _
    rw [List.foldl_append, hst] at hs
    subst hs
    cases status' with
    | idle => exact .inl rfl
    | running => exact .inr rfl
    | draining => exact absurd rfl hd
    | stopped => exact .inr rfl

end Order

namespace Engine

/-- An engine of which nothing was asked, whose storage was never started, and no pool of which is
draining. -/
structure Unborn (e : Engine) : Prop where
  pose : e.Posed .raw false false
  settled : e.Settled
  started : e.storage.started = false
  stopped : e.storage.stopped = false

theorem create_unborn {id : String} {registry : Registry Runner} {inject : Workflow → Workflow}
    {storage : Storage} {processors : Processors} (hs : storage.started = false)
    (ht : storage.stopped = false)
    (hp : ∀ p ∈ processors, p.standing ≠ .pool .draining) :
    (create id registry inject storage processors).Unborn := by
  refine ⟨⟨rfl, rfl, rfl⟩, fun hm => ?_, hs, ht⟩
  obtain ⟨p, hmem, hst⟩ := List.mem_map.1 hm
  exact hp p hmem hst

/-- **An engine is shut down**: after what was brought up of it, all processors and then the storage
were stopped, each once. All processors are down, and the worker of the storage was waited for. -/
structure Shut (e₀ e : Engine) (log : List Order) : Prop where
  orders : ∃ given, given <+: Order.up ∧ log = given ++ Order.down
  processors : List.Forall₂ Standing.Down e₀.standings e.standings
  storage : e.storage.stopped = true
  joined : e.storage.Joined

/-- What holds of an engine that stands here in its life. -/
def Bears (e₀ e : Engine) (log : List Order) : Lifecycle → Prop
  | .raw => e.gate.isOpen = false ∧ log <+: Order.up
  | .started => e.gate.isOpen = true ∧ log = Order.up ∧
      ∀ status, .pool status ∈ e.standings → status = .running
  | .shuttingDown => e.gate.isOpen = true ∧ Order.up <+: log
  | .stopped => e.gate.isOpen = true ∧ e₀.Shut e log
  | .failed => e.gate.isOpen = true → e₀.Shut e log

/-- **What holds of an engine at every moment**, with the orders that it has given since it was made:
they bring it up and then down, each at most once and in this order, the components are as the orders
leave them, and the engine is as one is that stands where it does in its life. -/
structure Lawful (e₀ e : Engine) (log : List Order) : Prop where
  orders : ∃ given taken, log = given ++ taken ∧ given <+: Order.up ∧ taken <+: Order.down
  components : e.components = log.foldl Order.carry e₀.components
  bears : e₀.Bears e log e.lifecycle

variable {e₀ e : Engine} {log : List Order} {t : Option Task}

theorem Settled.standings_eq (hs : e.Settled)
    (hc : e.components = log.foldl Order.carry e₀.components) :
    e.standings = e₀.standings.map fun s => log.foldl Order.onProcessor s.settled := by
  have h := congrArg Components.processors hc
  rw [Order.carry_processors] at h
  rw [← hs.standings_settled]
  exact h.trans (List.map_map ..)

theorem Settled.running (hs : e.Settled)
    (hc : e.components = Order.up.foldl Order.carry e₀.components) {status : PoolStatus}
    (hm : .pool status ∈ e.standings) : status = .running := by
  rw [hs.standings_eq hc] at hm
  obtain ⟨s, -, h⟩ := List.mem_map.1 hm
  change s.settled.start = _ at h
  cases hset : s.settled <;> rw [hset] at h <;> cases h
  rfl

theorem Settled.shut (hs : e.Settled) (hj : e.storage.Joined) {given : List Order}
    (hb : given <+: Order.up)
    (hc : e.components = (given ++ Order.down).foldl Order.carry e₀.components) :
    e₀.Shut e (given ++ Order.down) := by
  have hst := (Order.carry_storage (given ++ Order.down) e₀.components).2
  rw [← hc, decide_eq_true (List.mem_append_right _ (by decide)), Bool.or_true] at hst
  refine ⟨⟨given, hb, rfl⟩, ?_, hst, hj⟩
  have hp := hs.standings_eq hc
  rw [Settled, hp] at hs
  rw [hp]
  refine List.forall₂_map_right_iff.2 (List.forall₂_same.2 fun s hm => ?_)
  exact Order.down_onProcessor hb rfl fun hd => hs (hd ▸ List.mem_map_of_mem hm)

theorem Posed.lawful {l : Lifecycle} {isOpen changing : Bool} {given taken : List Order}
    (hp : e.Posed l isOpen changing)
    (hc : e.components = (given ++ taken).foldl Order.carry e₀.components)
    (hg : given <+: Order.up) (ht : taken <+: Order.down) (hb : e₀.Bears e (given ++ taken) l) :
    e₀.Lawful e (given ++ taken) :=
  ⟨⟨given, taken, rfl, hg, ht⟩, hc, hp.lifecycle ▸ hb⟩

/-- **A stage is lawful.** -/
theorem Stage.lawful (h : e.Stage log t)
    (hc : e.components = log.foldl Order.carry e₀.components) : e₀.Lawful e log := by
  have up := List.prefix_refl Order.up
  have down := List.prefix_refl Order.down
  have half : [Order.stopProcessors] <+: Order.down := ⟨[.stopStorage], rfl⟩
  have shut : ∀ {P : Prop}, e.gate.isOpen = false → e.gate.isOpen = true → P := fun h h' => by
    rw [h] at h'
    cases h'
  cases h with
  | raw hp => exact hp.lawful hc List.nil_prefix List.nil_prefix ⟨hp.gate, List.nil_prefix⟩
  | opening hp =>
    have hb : [Order.startRegistry, .startStorage] <+: Order.up := ⟨[.startProcessors], rfl⟩
    exact hp.lawful hc hb List.nil_prefix ⟨hp.gate, hb⟩
  | started hp hs => exact hp.lawful hc up List.nil_prefix ⟨hp.gate, rfl, fun _ => hs.running hc⟩
  | failing hp hb => exact hp.lawful hc hb half (shut hp.gate)
  | clearing hp hb => exact hp.lawful hc hb down (shut hp.gate)
  | failed hp hb hs hj => exact hp.lawful hc hb down fun _ => hs.shut hj hb hc
  | stopping hp => exact hp.lawful hc up half ⟨hp.gate, List.prefix_append ..⟩
  | shutting hp => exact hp.lawful hc up down ⟨hp.gate, List.prefix_append ..⟩
  | stopped hp hs hj => exact hp.lawful hc up down ⟨hp.gate, hs.shut hj up hc⟩

end Engine

end Resumption
