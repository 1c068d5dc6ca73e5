import Resumption.Engine.Control
import Resumption.Proofs.Storage.Conduct

/-!
# The rolls of an engine

Which dispatches an engine has under way is on the rolls of its pools: the number of dispatches that
a pool has begun, and those that have not ended (`Engine.rolls`). Most steps of an engine leave the
rolls alone (`Engine.Alike`), and many besides leave alone where the engine stands in its life
(`Engine.Calm`).

A roll only moves forward (`Roll.Later`): what is on it later was on it before or is new, and new
dispatches have new numbers. A dispatch that has ended is gone for good (`Engine.Spent`,
`Engine.Later.spent`).
-/

namespace Resumption

/-- How many dispatches a pool has begun, and those that have not ended. -/
structure Roll where
  issued : Nat
  dispatches : List Dispatch

def Pool.roll (p : Pool) : Roll := ⟨p.issued, p.dispatches⟩

/-- Nothing goes on in the pool: its loop is over and no dispatch is under way. -/
def Pool.isOver (p : Pool) : Bool :=
  (p.poll == .absent || p.poll == .ended || p.poll == .broken) && p.dispatches.isEmpty

namespace Processor

def roll? (p : Processor) : Option Roll := p.pool?.map Pool.roll

def dispatches (p : Processor) : List Dispatch := (p.pool?.map Pool.dispatches).getD []

/-- Nothing goes on in the processor. -/
def isOver (p : Processor) : Bool := (p.pool?.map Pool.isOver).getD true

end Processor

namespace Engine

/-- The rolls of the pools, at the places of the pools among the processors. -/
def rolls (e : Engine) : List (Option Roll) := e.processors.map Processor.roll?

def dispatches (e : Engine) : List Dispatch := e.processors.flatMap Processor.dispatches

/-- The name that the engine claims instances with. -/
def claimant (e : Engine) : String := e.storage.access.engine

/-- Nothing goes on in the pools. -/
def isOver (e : Engine) : Bool := e.processors.all Processor.isOver

/-- Nothing goes on in the pools, and no start is under way. -/
def atRest (e : Engine) : Bool := e.isOver && !(e.lifecycle == .raw && e.changing)

variable {e e' e'' : Engine}

/-! ## Rolls and dispatches -/

theorem dispatches_rolls (e : Engine) :
    e.dispatches = e.rolls.flatMap fun r => (r.map Roll.dispatches).getD [] := by
  rw [dispatches, rolls, List.flatMap_map]
  congr 1
  funext p
  cases p <;> rfl

theorem roll_of_pool {place : Nat} {p : Pool} (h : e.pool? place = some p) :
    e.rolls[place]? = some (some p.roll) := by
  obtain ⟨q, hq, hp⟩ := Option.bind_eq_some_iff.1 h
  rw [rolls, List.getElem?_map, hq, Option.map_some, Processor.roll?, hp]
  rfl

theorem pool_of_roll {place : Nat} {r : Roll} (h : e.rolls[place]? = some (some r)) :
    ∃ p, e.pool? place = some p ∧ p.roll = r := by
  rw [rolls, List.getElem?_map] at h
  obtain ⟨q, hq, hr⟩ := Option.map_eq_some_iff.1 h
  obtain ⟨p, hp, rfl⟩ := Option.map_eq_some_iff.1 hr
  exact ⟨p, by rw [pool?, hq, Option.bind_some, hp], rfl⟩

theorem setPool_rolls (e : Engine) (place : Nat) (p : Pool) :
    (e.setPool place p).rolls = e.rolls.set place (some p.roll) := List.map_set

theorem dispatches_set {place : Nat} {r r' : Roll} (h : e.rolls[place]? = some (some r))
    (h' : e'.rolls = e.rolls.set place (some r')) :
    ∃ l₁ l₂, e.dispatches = l₁ ++ r.dispatches ++ l₂ ∧
      e'.dispatches = l₁ ++ r'.dispatches ++ l₂ := by
  obtain ⟨hlt, he⟩ := List.getElem?_eq_some_iff.1 h
  refine ⟨(e.rolls.take place).flatMap fun r => (r.map Roll.dispatches).getD [],
    (e.rolls.drop (place + 1)).flatMap fun r => (r.map Roll.dispatches).getD [], ?_, ?_⟩
  · have hs : e.rolls = e.rolls.take place ++ some r :: e.rolls.drop (place + 1) := by
      rw [← he, ← List.drop_eq_getElem_cons hlt, List.take_append_drop]
    rw [dispatches_rolls]
    conv => lhs; rw [hs]
    simp
  · rw [dispatches_rolls, h', List.set_eq_take_append_cons_drop, if_pos hlt]
    simp

theorem isOver_dispatches (h : e.isOver = true) : e.dispatches = [] := by
  rw [dispatches, List.flatMap_eq_nil_iff]
  intro p hp
  have := List.all_eq_true.1 h p hp
  cases p with
  | pool p =>
    simp only [Processor.isOver, Processor.pool?, Option.map_some, Option.getD_some, Pool.isOver,
      Bool.and_eq_true, List.isEmpty_iff] at this
    exact this.2
  | probe p => rfl

theorem isOver_pool (h : e.isOver = true) {place : Nat} {p : Pool} (hp : e.pool? place = some p) :
    p.isOver = true := by
  obtain ⟨q, hq, hp⟩ := Option.bind_eq_some_iff.1 hp
  have := List.all_eq_true.1 h q (List.mem_of_getElem? hq)
  rwa [Processor.isOver, hp] at this

theorem isOver_set (h : e.isOver = true) {place : Nat} {p : Processor} (hp : p.isOver = true) :
    isOver { e with processors := e.processors.set place p } = true := by
  refine List.all_eq_true.2 fun q hq => ?_
  rcases List.mem_or_eq_of_mem_set hq with hq | rfl
  · exact List.all_eq_true.1 h q hq
  · exact hp

theorem isOver_setPool (h : e.isOver = true) {place : Nat} {p : Pool} (hp : p.isOver = true) :
    (e.setPool place p).isOver = true := isOver_set (p := .pool p) h hp

/-! ## Steps that leave the rolls alone -/

/-- With the same runners and rolls, and with storages that work alike. -/
structure Alike (e e' : Engine) : Prop where
  storage : e.storage.Alike e'.storage
  runner : ∀ type, e'.registry.runner? type = e.registry.runner? type
  inject : e'.inject = e.inject
  rolls : e'.rolls = e.rolls

theorem Alike.refl (e : Engine) : e.Alike e := ⟨.refl _, fun _ => rfl, rfl, rfl⟩

theorem Alike.trans (h : e.Alike e') (h' : e'.Alike e'') : e.Alike e'' :=
  ⟨h.storage.trans h'.storage, fun t => (h'.runner t).trans (h.runner t),
    h'.inject.trans h.inject, h'.rolls.trans h.rolls⟩

theorem Alike.claimant (h : e.Alike e') : e'.claimant = e.claimant :=
  congrArg Access.engine h.storage.access

theorem Alike.dispatches (h : e.Alike e') : e'.dispatches = e.dispatches := by
  rw [dispatches_rolls, dispatches_rolls, h.rolls]

theorem alike_storage {s : Storage} (h : e.storage.Alike s) : e.Alike { e with storage := s } :=
  ⟨h, fun _ => rfl, rfl, rfl⟩

/-- Alike and at the same point of their lives; nothing goes on in one when nothing goes on in the
other. -/
structure Calm (e e' : Engine) : Prop where
  alike : e.Alike e'
  lifecycle : e'.lifecycle = e.lifecycle
  changing : e'.changing = e.changing
  quiet : e.isOver = true → e'.isOver = true

theorem Calm.refl (e : Engine) : e.Calm e := ⟨.refl e, rfl, rfl, fun h => h⟩

theorem Calm.trans (h : e.Calm e') (h' : e'.Calm e'') : e.Calm e'' :=
  ⟨h.alike.trans h'.alike, h'.lifecycle.trans h.lifecycle, h'.changing.trans h.changing,
    h'.quiet ∘ h.quiet⟩

theorem calm_storage {s : Storage} (h : e.storage.Alike s) : e.Calm { e with storage := s } :=
  ⟨alike_storage h, rfl, rfl, fun h => h⟩

/-- Processors that are changed one by one, each keeping its roll, and none of them begins
anything. -/
theorem calm_map (e : Engine) {f : Processor → Processor} (hr : ∀ p, (f p).roll? = p.roll?)
    (ho : ∀ p, p.isOver = true → (f p).isOver = true) :
    e.Calm { e with processors := e.processors.map f } := by
  refine ⟨⟨.refl _, fun _ => rfl, rfl, ?_⟩, rfl, rfl, fun h => ?_⟩
  · simp only [rolls, List.map_map]
    exact List.map_congr_left fun p _ => hr p
  · refine List.all_eq_true.2 fun q hq => ?_
    obtain ⟨p, hp, rfl⟩ := List.mem_map.1 hq
    exact ho p (List.all_eq_true.1 h p hp)

/-- A processor that is put back with the same roll and begins nothing. -/
theorem calm_set {place : Nat} {p p' : Processor} (h : e.processors[place]? = some p)
    (hr : p'.roll? = p.roll?) (ho : p.isOver = true → p'.isOver = true) :
    e.Calm { e with processors := e.processors.set place p' } := by
  refine ⟨⟨.refl _, fun _ => rfl, rfl, ?_⟩, rfl, rfl, fun hover => ?_⟩
  · obtain ⟨hlt, he⟩ := List.getElem?_eq_some_iff.1 h
    rw [rolls, List.map_set, hr, ← he]
    conv => rhs; rw [rolls, ← List.set_getElem_self hlt, List.map_set]
  · exact isOver_set hover (ho (List.all_eq_true.1 hover p (List.mem_of_getElem? h)))

theorem calm_setPool {place : Nat} {p p' : Pool} (h : e.pool? place = some p)
    (hr : p'.roll = p.roll) (ho : p.isOver = true → p'.isOver = true) :
    e.Calm (e.setPool place p') := by
  obtain ⟨q, hq, hp⟩ := Option.bind_eq_some_iff.1 h
  cases q with
  | probe q => cases hp
  | pool q =>
    cases hp
    exact calm_set hq (congrArg some hr) ho

end Engine

/-! ## Rolls move forward -/

/-- What is on the roll later was on it before, or it is new and has a new number. -/
structure Roll.Later (r r' : Roll) : Prop where
  issued : r.issued ≤ r'.issued
  fresh : ∀ d' ∈ r'.dispatches,
    (∃ d ∈ r.dispatches, d.serial = d'.serial) ∨ r.issued ≤ d'.serial

theorem Roll.Later.refl (r : Roll) : r.Later r := ⟨Nat.le_refl _, fun d h => .inl ⟨d, h, rfl⟩⟩

theorem Roll.Later.trans {r₁ r₂ r₃ : Roll} (h : r₁.Later r₂) (h' : r₂.Later r₃) : r₁.Later r₃ := by
  refine ⟨Nat.le_trans h.issued h'.issued, fun d₃ h₃ => ?_⟩
  rcases h'.fresh d₃ h₃ with ⟨d₂, h₂, he⟩ | hle
  · rw [← he]
    exact h.fresh d₂ h₂
  · exact .inr (Nat.le_trans h.issued hle)

namespace Engine

variable {e e' e'' : Engine}

/-- All rolls have moved forward or are gone. -/
def Later (e e' : Engine) : Prop :=
  ∀ (place : Nat) (r' : Roll), e'.rolls[place]? = some (some r') →
    ∃ r : Roll, e.rolls[place]? = some (some r) ∧ r.Later r'

theorem later_of_rolls (h : e'.rolls = e.rolls) : e.Later e' :=
  fun _ r' hr => ⟨r', h ▸ hr, .refl r'⟩

theorem Later.refl (e : Engine) : e.Later e := later_of_rolls rfl

theorem Later.trans (h : e.Later e') (h' : e'.Later e'') : e.Later e'' := by
  intro place r'' hr''
  obtain ⟨r', hr', hl'⟩ := h' place r'' hr''
  obtain ⟨r, hr, hl⟩ := h place r' hr'
  exact ⟨r, hr, hl.trans hl'⟩

theorem later_set {place : Nat} {r r' : Roll} (h : e.rolls[place]? = some (some r))
    (h' : e'.rolls = e.rolls.set place (some r')) (hr : r.Later r') : e.Later e' := by
  intro q t ht
  rw [h', List.getElem?_set] at ht
  split at ht
  · rename_i hq
    subst hq
    split at ht
    · cases ht
      exact ⟨r, h, hr⟩
    · cases ht
  · exact ⟨t, ht, .refl t⟩

/-- The dispatch with this number has begun and ended. -/
def Spent (e : Engine) (place serial : Nat) : Prop :=
  ∀ r : Roll, e.rolls[place]? = some (some r) →
    serial < r.issued ∧ ∀ d ∈ r.dispatches, d.serial ≠ serial

theorem Later.spent (h : e.Later e') {place serial : Nat} (hs : e.Spent place serial) :
    e'.Spent place serial := by
  intro r' hr'
  obtain ⟨r, hr, hl⟩ := h place r' hr'
  obtain ⟨hlt, hne⟩ := hs r hr
  refine ⟨Nat.lt_of_lt_of_le hlt hl.issued, fun d' hd' he => ?_⟩
  rcases hl.fresh d' hd' with ⟨d, hd, hds⟩ | hle
  · exact hne d hd (hds.trans he)
  · omega

end Engine

end Resumption
