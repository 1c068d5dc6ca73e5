import Resumption.Proofs.Store.Change

/-!
# The discipline of dispatch

A store suspends, finishes and fails an instance in whatever stage it is. Dispatch does so only with
an instance that it runs. `Turn.OnRunning` is this discipline, and `Store.Tidy` is what it is worth:
answers that were delivered and the mark that a deadline passed are on ready instances only, so a
wait starts without leftovers of the one before.
-/

namespace Resumption

/-- The instance whose run an action settles. -/
def Action.settles : Action → Option Uuid
  | .suspend c _ => some c.instanceId
  | .finish _ id => some id
  | .fail id _ => some id
  | _ => none

/-- If the action settles the run of a stored instance, then that instance runs. -/
def Turn.OnRunning (t : Turn) : Prop :=
  ∀ r ∈ t.before.records, t.action.settles = some r.id → r.stage = .running

instance (t : Turn) : Decidable t.OnRunning := by unfold Turn.OnRunning; exact inferInstance

/-- An instance is claimed, waits for one response, is claimed with it and finishes. -/
def Store.oneWait : List (List Store.Request) :=
  let tx (op : Operation) : List Store.Request := [⟨⟨"engine", true⟩, .epoch, op⟩]
  [tx (.insert [{ Workflow.create "t" .null with id := some ⟨1⟩ }]), tx (.promote 1),
    tx (.claim Workflow.defaultPool 1), tx (.suspend ⟨⟨1⟩, .all, none, ["a"]⟩ .null),
    tx (.notify [⟨"a", .ok .null, .epoch, none⟩]), tx (.claim Workflow.defaultPool 1),
    tx (.finish ⟨1⟩)]

example : ∀ t ∈ Store.empty.trail Store.oneWait.flatten, t.OnRunning := by decide +kernel

namespace Record

theorem status_of_running {r : Record} (h : r.stage = .running) : ∃ e, r.status = .running e := by
  unfold stage at h
  cases hs : r.status with
  | running e => exact ⟨e, rfl⟩
  | _ => rw [hs] at h; cases h

/-- Nothing is left on the record of an earlier wait. -/
def Clear (r : Record) : Prop := r.delivered = [] ∧ r.waitExpired = false

/-- What an earlier wait left is on the record only while it is ready. -/
def Tidy (r : Record) : Prop := r.status ≠ .ready → r.Clear

end Record

namespace Store

/-- Every record is tidy. -/
def Tidy (s : Store) : Prop := ∀ r ∈ s.records, r.Tidy

/-- An instance whose run is settled under the discipline is clear. -/
theorem Tidy.clear {s : Store} (h : s.Tidy) {a : Action} (ho : Turn.OnRunning ⟨s, a⟩) {r : Record}
    (hr : r ∈ s.records) (ha : a.settles = some r.id) : r.Clear := by
  obtain ⟨e, he⟩ := Record.status_of_running (ho r hr ha)
  exact h r hr (by rw [he]; intro h; cases h)

theorem Change.tidy {s : Store} {a : Action} {r r' : Record} (hs : s.Tidy)
    (ho : Turn.OnRunning ⟨s, a⟩) (hr : r ∈ s.records) (h : s.Change a r r') : r'.Tidy := by
  cases h with
  | same _ => exact hs r hr
  | claim _ => exact fun _ => ⟨rfl, rfl⟩
  | deliver hw =>
    obtain ⟨z, hz, -⟩ := Record.wants_iff.1 hw
    have hc : r.Clear := hs r hr (by rw [hz]; intro h; cases h)
    rw [Record.answer_waiting hz]
    split
    · exact fun h => absurd rfl h
    · exact fun _ => hc
  | @suspend c payload r hid =>
    have hc := hs.clear ho hr (congrArg some hid.symm)
    rcases s.suspended_outcome c payload r with ⟨z, he, -⟩ | ⟨z, x, -, -, -, he⟩
    · rw [he]; exact fun _ => hc
    · rw [he]; exact fun h => absurd rfl h
  | finish hid =>
    have hc := hs.clear ho hr (congrArg some hid.symm)
    exact fun _ => hc
  | fail hid =>
    have hc := hs.clear ho hr (congrArg some hid.symm)
    exact fun _ => hc
  | promote _ =>
    unfold Record.promote
    split <;> exact fun h => absurd rfl h
  | _ => exact fun h => absurd rfl h

/-- Under the discipline every action keeps the records tidy. -/
theorem tidy_act {s : Store} (hu : s.Unique) (hs : s.Tidy) {a : Action}
    (ho : Turn.OnRunning ⟨s, a⟩) : (s.act a).2.Tidy := by
  intro r' hr'
  rcases act_records hu a hr' with ⟨r, hr, hc⟩ | ⟨w, id, -, -, -, rfl⟩
  · exact hc.tidy hs ho hr
  · exact fun _ => ⟨rfl, rfl⟩

end Store

end Resumption
