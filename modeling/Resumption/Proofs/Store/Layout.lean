import Mathlib.Data.List.MinMax
import Resumption.Proofs.Store.Numbering

/-!
# A store laid out in memory

A store in memory is a hash map from ids to slots, and a slot has a field for each thing that is kept
of an instance: who claimed it, what it waits for and until when, and so on, whatever the stage of
its workflow. Operations write the fields they are about, one instance after the other, and look
each instance up by its id. Nothing in the types ties the fields to each other.

`Layout` is this map as a list of entries, in the order in which an iteration happens to come by
them, and `Layout.act` does the actions on it field by field. `Layout.store` reads a layout as a
`Store`: the fields of a slot that belong to its stage make its status (`Slot.record`).

`Slot.Sound` is what ties the fields of a slot to its stage and to its id. The lemmas on slots here say
that each write keeps a slot sound and is read as what `Record` does.
-/

namespace Resumption

/-- What is kept of an instance, field by field. -/
structure Slot where
  workflow : Workflow
  number : Nat
  claimedBy : Option String
  lastError : Option String
  mode : Option Quorum
  deadline : Option Instant
  waitNumber : Nat
  waits : List Wait
  delivered : List Response
  expired : Bool

namespace Slot

def create (w : Workflow) (number : Nat) : Slot :=
  ⟨w, number, none, none, none, none, 0, [], [], false⟩

def stage (i : Slot) : Stage := i.workflow.stage

def enter (i : Slot) (stage : Stage) : Slot := { i with workflow := { i.workflow with stage } }

def hasOpenWait (i : Slot) (correlation : String) : Bool :=
  i.stage == .waiting && i.waits.any fun w => w.opens correlation

/-- Ends a wait: its answers are kept for the next claim. -/
def release (i : Slot) (expired : Bool) : Slot :=
  { i.enter .ready with
    delivered := i.delivered ++ i.waits.filterMap (·.answer)
    waits := [], mode := none, deadline := none, expired }

/-- The answers that are there end a wait of this mode. -/
def resolved (i : Slot) : Bool :=
  match i.mode with
  | some .first => true
  | some .all => i.waits.all fun w => !w.isOpen
  | none => false

/-- Attaches a response to its wait, which may end it. -/
def matchResponse (i : Slot) (x : Response) : Slot :=
  let i := { i with waits := Suspension.answerFirst x i.waits }
  if i.resolved then i.release false else i

def clearWait (i : Slot) : Slot := { i with waits := [], mode := none, deadline := none }

def handOut (i : Slot) : Workflow :=
  { i.workflow with stage := .running, responses := i.delivered, waitExpired := i.expired }

def claim (engine : String) (i : Slot) : Slot :=
  { i.enter .running with claimedBy := some engine, delivered := [], expired := false }

def suspend (c : Callback) (payload : Json) (number : Nat) (i : Slot) : Slot :=
  { i with
    workflow := { i.workflow with stage := .waiting, payload }
    claimedBy := none, mode := some c.quorum, deadline := c.deadline, waitNumber := number
    waits := c.correlations.map fun id => ⟨id, none⟩ }

/-- Gives a waiting slot the earliest unclaimed response to each id, until its wait is over. -/
def collect (i : Slot) (unclaimed : List Unclaimed) : List String → Slot × List Unclaimed
  | [] => (i, unclaimed)
  | c :: cs =>
    if i.stage = .waiting then
      match Store.takeFirst c unclaimed with
      | some (x, rest) => collect (i.matchResponse x) rest cs
      | none => collect i unclaimed cs
    else (i, unclaimed)

def finish (i : Slot) : Slot := { i.enter .finished with claimedBy := none }.clearWait

def fail (cause : String) (i : Slot) : Slot :=
  { i.enter .error with claimedBy := none, lastError := some cause }.clearWait

def restart (i : Slot) : Slot := { i.enter .ready with lastError := none }

def recover (i : Slot) : Slot := { i.enter .ready with claimedBy := none }

def isDue (now : Instant) (i : Slot) : Bool :=
  match i.stage with
  | .enqueued => true
  | .waiting => i.deadline.any fun t => t ≤ now
  | _ => false

def promote (i : Slot) : Slot := if i.stage = .waiting then i.release true else i.enter .ready

def view (i : Slot) : Workflow :=
  { i.workflow with responses := i.delivered, waitExpired := i.expired }

end Slot

/-- A store in memory: entries in the order of an iteration. -/
structure Layout where
  slots : List (Uuid × Slot)
  unclaimed : List Unclaimed
  drawn : Nat

namespace Layout

def empty : Layout := ⟨[], [], 0⟩

def get? (L : Layout) (id : Uuid) : Option Slot := (L.slots.find? fun e => e.1 == id).map (·.2)

def set (L : Layout) (id : Uuid) (f : Slot → Slot) : Layout :=
  { L with slots := L.slots.map fun e => if e.1 = id then (e.1, f e.2) else e }

/-- Writes every slot that satisfies `p`, and counts them. -/
def setWhere (L : Layout) (p : Slot → Bool) (f : Slot → Slot) : Nat × Layout :=
  (L.slots.countP fun e => p e.2,
    { L with slots := L.slots.map fun e => if p e.2 then (e.1, f e.2) else e })

/-- Writes the slot under an id, which must be there. -/
def modify (L : Layout) (id : Uuid) (f : Slot → Slot) : Except StoreError Unit × Layout :=
  match L.get? id with
  | none => (.error (.instanceNotFound id), L)
  | some _ => (.ok (), L.set id f)

/-- Writes the slots under some ids one after the other, each of which must be there, and gives what
they were. -/
def modifyEach (f : Slot → Slot) : List Uuid → Layout → Except StoreError (List Slot) × Layout
  | [], L => (.ok [], L)
  | id :: ids, L =>
    match L.get? id with
    | none => (.error (.instanceNotFound id), L)
    | some i =>
      match modifyEach f ids (L.set id f) with
      | (.ok is, L) => (.ok (i :: is), L)
      | (.error e, L) => (.error e, L)

def insert (L : Layout) (w : Workflow) : Except StoreError Unit × Layout :=
  match w.id with
  | none => (.error (.invalidArgument "instance has no id"), L)
  | some id =>
    match L.get? id with
    | some _ => (.error (.invalidArgument ("duplicate instance id " ++ id.text)), L)
    | none =>
      let w := { w with
        pool := some w.effectivePool, stage := .enqueued, callback := none, responses := []
        waitExpired := false }
      (.ok (), { L with
        slots := L.slots ++ [(id, .create w (L.drawn + 1))], drawn := L.drawn + 1 })

/-- A higher priority comes first, and among equals the smaller number. -/
def claimedBefore (a b : Uuid × Slot) : Bool :=
  b.2.workflow.priority < a.2.workflow.priority ||
    (a.2.workflow.priority == b.2.workflow.priority && a.2.number ≤ b.2.number)

def ready (L : Layout) (pool : String) (most : Nat) : List Uuid :=
  (((L.slots.filter fun e => e.2.stage == .ready && e.2.workflow.effectivePool == pool).mergeSort
    claimedBefore).take most).map (·.1)

/-- The smaller number comes first, and among equals the smaller id. -/
def promotedBefore (a b : Uuid × Slot) : Bool :=
  a.2.number < b.2.number || (a.2.number == b.2.number && a.1.bits ≤ b.1.bits)

/-- The ids that a promotion makes ready, in order. -/
def due (L : Layout) (now : Instant) (most : Nat) : List Uuid :=
  (((L.slots.filter fun e => e.2.isDue now).mergeSort promotedBefore).take most).map (·.1)

/-- The id that a response goes to: the first of those with the smallest number of their wait. -/
def target? (L : Layout) (correlation : String) : Option Uuid :=
  ((L.slots.filter fun e => e.2.hasOpenWait correlation).argmin (·.2.waitNumber)).map (·.1)

def deliver (L : Layout) (x : Response) : Except StoreError Unit × Layout :=
  match L.target? x.correlation with
  | some id => L.modify id fun i => i.matchResponse x
  | none => (.ok (), { L with unclaimed := L.unclaimed ++ [⟨x, x.expiry .zero⟩] })

def suspend (L : Layout) (c : Callback) (payload : Json) : Except StoreError Unit × Layout :=
  let L := { L with drawn := L.drawn + 1 }
  match L.get? c.instanceId with
  | none => (.error (.instanceNotFound c.instanceId), L)
  | some i =>
    let (i, rest) := (i.suspend c payload L.drawn).collect L.unclaimed c.correlations
    (.ok (), { L.set c.instanceId fun _ => i with unclaimed := rest })

def finish (L : Layout) (remove : Bool) (id : Uuid) : Except StoreError Unit × Layout :=
  if remove then
    match L.get? id with
    | none => (.error (.instanceNotFound id), L)
    | some _ => (.ok (), { L with slots := L.slots.filter fun e => e.1 ≠ id })
  else L.modify id .finish

def restart (L : Layout) (id : Uuid) : Except StoreError Unit × Layout :=
  match L.get? id with
  | none => (.error (.instanceNotFound id), L)
  | some i =>
    if i.stage = .error then (.ok (), L.set id .restart) else (.error (.notRestartable id), L)

/-- An answer that says no more than that it went well. -/
def plainly (p : Except StoreError Unit × Layout) : Except StoreError Outcome × Layout :=
  (p.1.map fun _ => .done, p.2)

def act (L : Layout) : Action → Except StoreError Outcome × Layout
  | .insert w => plainly (L.insert w)
  | .claim engine pool most =>
    let (is, L) := modifyEach (.claim engine) (L.ready pool most) L
    (is.map fun is => .claimed (is.map Slot.handOut), L)
  | .deliver x => plainly (L.deliver x)
  | .suspend c payload => plainly (L.suspend c payload)
  | .finish remove id => plainly (L.finish remove id)
  | .fail id cause => plainly (L.modify id (.fail cause))
  | .restart id => plainly (L.restart id)
  | .restartAll =>
    let (n, L) := L.setWhere (fun i => i.stage == .error) .restart
    (.ok (.counted n), L)
  | .sweep now most =>
    let (n, rest) := Store.dropExpired now most L.unclaimed
    (.ok (.counted n), { L with unclaimed := rest })
  | .promote now most =>
    let ids := L.due now most
    let (is, L) := modifyEach .promote ids L
    (is.map fun _ => .counted ids.length, L)
  | .recover engine =>
    let (n, L) := L.setWhere (fun i => i.stage == .running && i.claimedBy == some engine) .recover
    (.ok (.counted n), L)
  | .load id => (.ok (.loaded ((L.get? id).map Slot.view)), L)

end Layout

/-! ## Slots as records -/

namespace Slot

def status (i : Slot) : Status :=
  match i.stage with
  | .enqueued => .enqueued
  | .ready => .ready
  | .running => .running (i.claimedBy.getD "")
  | .waiting => .waiting ⟨i.mode.getD .all, i.deadline, i.waitNumber, i.waits⟩
  | .finished => .finished
  | .error => .failed

def record (id : Uuid) (i : Slot) : Record :=
  { id, number := i.number, type := i.workflow.type, pool := i.workflow.effectivePool
    priority := i.workflow.priority, payload := i.workflow.payload, status := i.status
    lastError := i.lastError, delivered := i.delivered, waitExpired := i.expired }

/-- What ties the fields of the slot under an id to each other. -/
structure Sound (id : Uuid) (i : Slot) : Prop where
  key : i.workflow.id = some id
  pool : i.workflow.pool.isSome = true
  call : i.workflow.callback = none
  responses : i.workflow.responses = []
  expired : i.workflow.waitExpired = false
  mode : i.mode.isSome = true ↔ i.stage = .waiting
  deadline : i.deadline.isSome = true → i.stage = .waiting
  waits : i.waits ≠ [] → i.stage = .waiting
  matched : Suspension.Matched i.waits
  claimed : i.claimedBy.isSome = true ↔ i.stage = .running
  failed : i.stage = .error → i.lastError.isSome = true

variable {id : Uuid} {i : Slot}

theorem stage_record (id : Uuid) (i : Slot) : (i.record id).stage = i.stage := by
  rw [Record.stage, record, status]
  cases i.stage <;> rfl

theorem record_waiting (h : i.stage = .waiting) :
    (i.record id).status = .waiting ⟨i.mode.getD .all, i.deadline, i.waitNumber, i.waits⟩ := by
  rw [record, status, h]

/-- A sound slot that does not wait keeps nothing of a wait. -/
theorem Sound.idle (h : i.Sound id) (hs : i.stage ≠ .waiting) :
    i.mode = none ∧ i.deadline = none ∧ i.waits = [] := by
  refine ⟨?_, ?_, ?_⟩
  · by_contra hm
    exact hs (h.mode.1 (Option.isSome_iff_ne_none.2 hm))
  · by_contra hd
    exact hs (h.deadline (Option.isSome_iff_ne_none.2 hd))
  · by_contra hw
    exact hs (h.waits hw)

/-! ### Waits -/

theorem hasOpenWait_record (c : String) : i.hasOpenWait c = (i.record id).wants c := by
  rw [hasOpenWait, Record.wants, record, status]
  cases i.stage <;> rfl

theorem matched_answer (x : Response) {ws : List Wait} (h : Suspension.Matched ws) :
    Suspension.Matched (Suspension.answerFirst x ws) := by
  by_cases hx : 0 < Suspension.openCount ws x.correlation
  · exact Suspension.matched_answerFirst hx h
  · have hn : ∀ w ∈ ws, ¬ w.opens x.correlation = true := by
      intro w hw ho
      exact hx (List.countP_pos_iff.2 ⟨w, hw, ho⟩)
    have he := Suspension.answerFirst_append hn []
    simp only [List.append_nil, Suspension.answerFirst] at he
    rwa [he]

/-- A slot that keeps the workflow and does not wait is sound if its claim and its error are. -/
theorem Sound.rest (h : i.Sound id) {i' : Slot} (stage : Stage)
    (hw : i'.workflow = { i.workflow with stage }) (hs : stage ≠ .waiting)
    (hi : i'.mode = none ∧ i'.deadline = none ∧ i'.waits = [])
    (hc : i'.claimedBy.isSome = true ↔ stage = .running)
    (hf : stage = .error → i'.lastError.isSome = true) : i'.Sound id := by
  have hst : i'.stage = stage := by rw [Slot.stage, hw]
  obtain ⟨hm, hd, hws⟩ := hi
  refine ⟨by rw [hw]; exact h.key, by rw [hw]; exact h.pool, by rw [hw]; exact h.call,
    by rw [hw]; exact h.responses, by rw [hw]; exact h.expired, ?_, ?_, ?_, ?_, ?_, ?_⟩
  · simp [hm, hst, hs]
  · simp [hd]
  · simp [hws]
  · rw [hws]; exact fun _ hw => nomatch hw
  · rw [hst]; exact hc
  · rw [hst]; exact hf

theorem Sound.unclaimed (h : i.Sound id) (hs : i.stage ≠ .running) : i.claimedBy = none := by
  by_contra hc
  exact hs (h.claimed.1 (Option.isSome_iff_ne_none.2 hc))

theorem Sound.release (h : i.Sound id) (hs : i.stage = .waiting) (expired : Bool) :
    (i.release expired).Sound id :=
  h.rest .ready rfl (by decide) ⟨rfl, rfl, rfl⟩
    (by simp [Slot.release, enter, h.unclaimed (by rw [hs]; decide)]) nofun

theorem Sound.claim (h : i.Sound id) (hs : i.stage = .ready) (engine : String) :
    (i.claim engine).Sound id :=
  h.rest .running rfl (by decide) (h.idle (by rw [hs]; decide)) (by simp [Slot.claim]) nofun

theorem Sound.finish (h : i.Sound id) : i.finish.Sound id :=
  h.rest .finished rfl (by decide) ⟨rfl, rfl, rfl⟩ (by simp [Slot.finish, clearWait]) nofun

theorem Sound.fail (h : i.Sound id) (cause : String) : (i.fail cause).Sound id :=
  h.rest .error rfl (by decide) ⟨rfl, rfl, rfl⟩ (by simp [Slot.fail, clearWait])
    (by simp [Slot.fail, clearWait])

theorem Sound.restart (h : i.Sound id) (hs : i.stage = .error) : i.restart.Sound id :=
  h.rest .ready rfl (by decide) (h.idle (by rw [hs]; decide))
    (by simp [Slot.restart, enter, h.unclaimed (by rw [hs]; decide)]) nofun

theorem Sound.recover (h : i.Sound id) (hs : i.stage = .running) : i.recover.Sound id :=
  h.rest .ready rfl (by decide) (h.idle (by rw [hs]; decide)) (by simp [Slot.recover]) nofun

theorem Sound.promote (h : i.Sound id) {now : Instant} (hd : i.isDue now = true) :
    i.promote.Sound id := by
  unfold Slot.promote
  split
  · rename_i hs
    exact h.release hs true
  · rename_i hs
    have hq : i.stage = .enqueued := by
      unfold isDue at hd
      split at hd
      · assumption
      · exact absurd ‹_› hs
      · cases hd
    exact h.rest .ready rfl (by decide) (h.idle hs)
      (by simp [enter, h.unclaimed (by rw [hq]; decide)]) nofun

theorem Sound.suspend (h : i.Sound id) (c : Callback) (payload : Json) (number : Nat) :
    (i.suspend c payload number).Sound id where
  key := h.key
  pool := h.pool
  call := h.call
  responses := h.responses
  expired := h.expired
  mode := by simp [Slot.suspend, stage]
  deadline := by simp [Slot.suspend, stage]
  waits := by simp [Slot.suspend, stage]
  matched w hw a ha := by
    obtain ⟨c, -, rfl⟩ := List.mem_map.1 hw
    cases ha
  claimed := by simp [Slot.suspend, stage]
  failed := by simp [Slot.suspend, stage]

theorem sound_create {w : Workflow} (hk : w.id = some id) (number : Nat) :
    (create { w with
      pool := some w.effectivePool, stage := .enqueued, callback := none, responses := []
      waitExpired := false } number).Sound id where
  key := hk
  pool := rfl
  call := rfl
  responses := rfl
  expired := rfl
  mode := by simp [create, stage]
  deadline := by simp [create]
  waits := by simp [create]
  matched w hw := nomatch hw
  claimed := by simp [create, stage]
  failed := by simp [create, stage]

theorem Sound.matchResponse (h : i.Sound id) (hs : i.stage = .waiting) (x : Response) :
    (i.matchResponse x).Sound id := by
  have ha : Sound id { i with waits := Suspension.answerFirst x i.waits } :=
    { h with waits := fun _ => hs, matched := matched_answer x h.matched }
  simp only [Slot.matchResponse]
  split
  · exact ha.release hs false
  · exact ha

theorem Sound.collect (cs : List String) :
    ∀ {i : Slot}, i.Sound id → ∀ us : List Unclaimed, (i.collect us cs).1.Sound id := by
  induction cs with
  | nil => intro i h us; exact h
  | cons c cs ih =>
    intro i h us
    rw [Slot.collect]
    split
    · rename_i hs
      split
      · exact ih (h.matchResponse hs _) _
      · exact ih h us
    · exact h

/-! ### What the writes are read as -/

theorem record_claim (engine : String) : (i.claim engine).record id = (i.record id).claim engine :=
  rfl

theorem handOut_record (h : i.Sound id) (engine : String) :
    i.handOut = (i.record id).handedOut engine := by
  obtain ⟨p, hp⟩ := Option.isSome_iff_exists.1 h.pool
  have he : i.workflow.effectivePool = p := by rw [Workflow.effectivePool, hp]; rfl
  simp only [handOut, Record.handedOut, Record.toWorkflow, record, he, ← hp, ← h.key, ← h.call]
  rfl

theorem view_record (h : i.Sound id) : i.view = (i.record id).toWorkflow := by
  obtain ⟨p, hp⟩ := Option.isSome_iff_exists.1 h.pool
  have he : i.workflow.effectivePool = p := by rw [Workflow.effectivePool, hp]; rfl
  have hs : i.workflow.stage = (i.record id).stage := (stage_record id i).symm
  simp only [view, Record.toWorkflow, ← hs]
  simp only [record, he, ← hp, ← h.key, ← h.call]

theorem record_release (expired : Bool) :
    (i.release expired).record id = (i.record id).release expired
      ⟨i.mode.getD .all, i.deadline, i.waitNumber, i.waits⟩ := rfl

theorem record_matchResponse (h : i.Sound id) (hs : i.stage = .waiting) (x : Response) :
    (i.matchResponse x).record id = (i.record id).answer x := by
  obtain ⟨q, hq⟩ := Option.isSome_iff_exists.1 (h.mode.2 hs)
  rw [Record.answer_waiting (record_waiting hs)]
  have hr : resolved { i with waits := Suspension.answerFirst x i.waits } =
      (Suspension.answered ⟨i.mode.getD .all, i.deadline, i.waitNumber, i.waits⟩ x).resolvedByAnswer := by
    simp only [resolved, Suspension.resolvedByAnswer, Suspension.answered, hq]
    cases q <;> rfl
  simp only [Slot.matchResponse, hr]
  split
  · exact record_release false
  · simp only [record, status, stage] at hs ⊢
    rw [hs]
    rfl

theorem record_suspend (c : Callback) (payload : Json) (number : Nat) :
    (i.suspend c payload number).record id =
      (i.record id).suspend payload (.ofCallback c number) := rfl

theorem record_collect (cs : List String) :
    ∀ {i : Slot}, i.Sound id → ∀ us : List Unclaimed,
      Store.collect (i.record id) us cs = ((i.collect us cs).1.record id, (i.collect us cs).2) := by
  induction cs with
  | nil => intro i _ us; rfl
  | cons c cs ih =>
    intro i h us
    rw [Slot.collect]
    split
    · rename_i hs
      have hw : (i.record id).status = _ := record_waiting hs
      cases ht : Store.takeFirst c us with
      | none => rw [Store.collect_cons_none hw ht, ih h]
      | some p =>
        rw [Store.collect_cons_some hw ht, ← record_matchResponse h hs]
        exact ih (h.matchResponse hs _) _
    · rename_i hs
      refine Store.collect_done (fun z hz => hs ?_) us _
      rw [← stage_record id, Record.stage, hz]
      rfl

theorem record_finish : i.finish.record id = (i.record id).finish := rfl

theorem record_fail (cause : String) : (i.fail cause).record id = (i.record id).fail cause := rfl

theorem record_restart : i.restart.record id = (i.record id).restart := rfl

theorem record_recover : i.recover.record id = { i.record id with status := .ready } := rfl

theorem isDue_record (now : Instant) : i.isDue now = (i.record id).dueAt now := by
  rw [isDue, Record.dueAt, record, status]
  cases i.stage with
  | waiting =>
    simp only [Suspension.dueAt]
    cases i.deadline <;> rfl
  | _ => rfl

theorem record_promote : i.promote.record id = (i.record id).promote := by
  rw [promote, Record.promote]
  split
  · rename_i hs
    rw [record_waiting hs]
    exact record_release true
  · rename_i hs
    split
    · rename_i z hz
      refine absurd ?_ hs
      rw [← stage_record id, Record.stage, hz]
      rfl
    · rfl

theorem claimable_record (pool : String) :
    (i.stage == .ready && i.workflow.effectivePool == pool) = (i.record id).claimable pool := by
  rw [Record.claimable, record, status]
  cases i.stage <;> rfl

theorem failed_record (id : Uuid) (i : Slot) :
    (i.stage == .error) = ((i.record id).status == .failed) := by
  rw [record, status]
  cases i.stage <;> rfl

theorem running_record (h : i.Sound id) (engine : String) :
    (i.stage == .running && i.claimedBy == some engine) =
      ((i.record id).status == .running engine) := by
  rw [record, status]
  cases hs : i.stage with
  | running =>
    obtain ⟨e, he⟩ := Option.isSome_iff_exists.1 (h.claimed.2 hs)
    rw [he]
    by_cases hee : e = engine <;> simp [hee]
  | _ => rfl

end Slot

end Resumption
