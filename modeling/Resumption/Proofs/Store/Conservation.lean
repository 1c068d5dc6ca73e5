import Mathlib.Algebra.GroupWithZero.Nat
import Resumption.Proofs.Database.Session
import Resumption.Proofs.Store.Discipline

/-!
# Conservation of responses

A response that was delivered is unclaimed, attached to a wait, or put by for the next claim of an
instance (`Store.pending`, `Store.attached`, `Store.delivered`), or it has left the store in one of
three ways: a claim has handed it out, a sweep has dropped it after it expired, or it was discarded
together with the wait or the instance that it was for (`Turn.discarded`). Each copy is in exactly
one of these places.

**The count.** `balance` is the count for one action. Its cases rest on three facts on sums over the
records: what a change of one record does to a sum (`sum_update`), what removing one does
(`sum_remove`), and what changing every record does (`sum_change`).

**Result.** `responses_conserved` is the count for a run of committed transactions, and it says that
under the discipline of dispatch nothing is discarded.
-/

namespace Resumption

/-! ## Places -/

namespace Store

/-- The responses that are attached to waits. -/
def attached (s : Store) : List Response := s.records.flatMap Record.attached

/-- The responses that are put by for the next claim. -/
def delivered (s : Store) : List Response := s.records.flatMap (·.delivered)

/-- The responses that are attached to the waits of an instance. -/
def attachedTo (s : Store) (id : Uuid) : List Response := (s.find? id).elim [] Record.attached

/-- The responses that are put by for the next claim of an instance. -/
def deliveredTo (s : Store) (id : Uuid) : List Response := (s.find? id).elim [] (·.delivered)

end Store

namespace Turn

def notified (t : Turn) : List Response :=
  match t.action with
  | .deliver r => [r]
  | _ => []

/-- The responses that a claim hands out. -/
def handedOut (t : Turn) : List Response :=
  match t.action with
  | .claim engine pool most => (t.before.claim engine pool most).1.flatMap (·.responses)
  | _ => []

/-- The responses that a sweep drops: the first that have expired, as many as it may. -/
def swept (t : Turn) : List Response :=
  match t.action with
  | .sweep now most =>
    ((t.before.unclaimed.filter fun u => u.expiry ≤ now).take most).map (·.response)
  | _ => []

/-- The responses that are discarded: those attached to the waits of the instance that is suspended
anew, fails or finishes, and those put by for an instance that is removed when it finishes. -/
def discarded (t : Turn) : List Response :=
  match t.action with
  | .suspend c _ => t.before.attachedTo c.instanceId
  | .fail id _ => t.before.attachedTo id
  | .finish remove id =>
    t.before.attachedTo id ++ if remove then t.before.deliveredTo id else []
  | _ => []

end Turn

/-! ## Sums over records -/

section
variable {l : List Record} (g : Record → Nat)

theorem sum_update (f : Record → Record) {r : Record} (hn : (l.map (·.id)).Nodup) (hr : r ∈ l) :
    ((l.map fun x => if x.id = r.id then f x else x).map g).sum + g r =
      (l.map g).sum + g (f r) := by
  induction l with
  | nil => cases hr
  | cons x l ih =>
    rw [List.map_cons, List.nodup_cons] at hn
    rcases List.mem_cons.1 hr with rfl | hr
    · have hl : (l.map fun x => if x.id = r.id then f x else x) = l := by
        conv => rhs; rw [← List.map_id l]
        refine List.map_congr_left fun y hy => if_neg fun e => hn.1 ?_
        exact List.mem_map.2 ⟨y, hy, e⟩
      rw [List.map_cons, hl]
      simp only [if_true, List.map_cons, List.sum_cons]
      omega
    · have hx : x.id ≠ r.id := fun e => hn.1 (List.mem_map.2 ⟨r, hr, e.symm⟩)
      have := ih hn.2 hr
      simp only [List.map_cons, List.sum_cons, if_neg hx] at this ⊢
      omega

theorem sum_remove {r : Record} (hn : (l.map (·.id)).Nodup) (hr : r ∈ l) :
    ((l.filter fun x => x.id ≠ r.id).map g).sum + g r = (l.map g).sum := by
  induction l with
  | nil => cases hr
  | cons x l ih =>
    rw [List.map_cons, List.nodup_cons] at hn
    rcases List.mem_cons.1 hr with rfl | hr
    · have hl : (l.filter fun x => x.id ≠ r.id) = l := by
        refine List.filter_eq_self.2 fun y hy => ?_
        exact decide_eq_true fun e => hn.1 (List.mem_map.2 ⟨y, hy, e⟩)
      rw [List.filter_cons_of_neg (by simp), hl, List.map_cons, List.sum_cons]
      omega
    · have hx : x.id ≠ r.id := fun e => hn.1 (List.mem_map.2 ⟨r, hr, e.symm⟩)
      have := ih hn.2 hr
      rw [List.filter_cons_of_pos (by simpa using hx), List.map_cons, List.map_cons, List.sum_cons,
        List.sum_cons]
      omega

/-- A change of every record that makes it lose `lost` makes the sum lose the sum of these. -/
theorem sum_change (f : Record → Record) (lost : Record → Nat)
    (h : ∀ r ∈ l, g (f r) + lost r = g r) :
    ((l.map f).map g).sum + (l.map lost).sum = (l.map g).sum := by
  induction l with
  | nil => rfl
  | cons x l ih =>
    have hx := h x List.mem_cons_self
    have := ih fun r hr => h r (List.mem_cons_of_mem _ hr)
    simp only [List.map_cons, List.sum_cons] at this ⊢
    omega

theorem sum_if (p : Record → Bool) :
    (l.map fun r => if p r then g r else 0).sum = ((l.filter p).map g).sum := by
  induction l with
  | nil => rfl
  | cons x l ih =>
    by_cases hp : p x = true
    · rw [List.filter_cons_of_pos hp, List.map_cons, List.map_cons, List.sum_cons, List.sum_cons,
        if_pos hp, ih]
    · rw [List.filter_cons_of_neg hp, List.map_cons, List.sum_cons, if_neg hp, ih, Nat.zero_add]

end

namespace Record

/-- The copies of a response that a record holds. -/
def holds (y : Response) (r : Record) : Nat := r.attached.count y + r.delivered.count y

theorem holds_ready {r : Record} (h : ∀ z, r.status ≠ .waiting z) (y : Response) :
    r.holds y = r.delivered.count y := by
  have : r.attached = [] := by
    unfold attached
    split
    · rename_i z hz; exact absurd hz (h z)
    · rfl
  rw [holds, this, List.count_nil, Nat.zero_add]

theorem holds_promote (r : Record) (y : Response) : r.promote.holds y = r.holds y := by
  unfold promote
  split
  · rename_i z hz
    rw [holds_ready (by intro z h; cases h), release, holds, attached, hz, List.count_append]
    exact Nat.add_comm _ _
  · rename_i hz
    rw [holds_ready (by intro z h; cases h), holds_ready hz]

end Record

namespace Store

/-- The copies of a response in the store. -/
def stock (s : Store) (y : Response) : Nat :=
  s.pending.count y + (s.records.map (Record.holds y)).sum

theorem stock_eq (s : Store) (y : Response) :
    s.stock y = s.pending.count y + s.attached.count y + s.delivered.count y := by
  have : ∀ l : List Record, (l.map (Record.holds y)).sum =
      (l.flatMap Record.attached).count y + (l.flatMap (·.delivered)).count y := by
    intro l
    induction l with
    | nil => rfl
    | cons r l ih =>
      simp only [List.map_cons, List.sum_cons, List.flatMap_cons, List.count_append, ih,
        Record.holds]
      omega
  rw [stock, this, ← Nat.add_assoc]
  rfl

end Store

/-! ## One turn -/

/-- What a turn passes in is what it adds to the store, hands out, sweeps and discards. -/
def Turn.Balanced (t : Turn) (y : Response) : Prop :=
  t.after.stock y + t.handedOut.count y + t.swept.count y + t.discarded.count y =
    t.before.stock y + t.notified.count y

namespace Store

variable {s : Store}

theorem stock_update (hu : s.Unique) {id : Uuid} {r : Record} (h : s.find? id = some r)
    (f : Record → Record) (y : Response) :
    (s.update id f).stock y + r.holds y = s.stock y + (f r).holds y := by
  obtain ⟨hr, rfl⟩ := find?_some h
  have hsum := sum_update (Record.holds y) f hu hr
  show s.pending.count y + (List.map _ (List.map _ s.records)).sum + _ =
    s.pending.count y + (s.records.map (Record.holds y)).sum + _
  omega

/-- A change that costs an instance its waits takes what is attached to them out of the store. -/
theorem stock_settle (hu : s.Unique) (id : Uuid) (f : Record → Record) (y : Response)
    (hf : ∀ r, (f r).holds y + r.attached.count y = r.holds y) :
    (s.update id f).stock y + (s.attachedTo id).count y = s.stock y := by
  cases h : s.find? id with
  | none =>
    rw [update_absent h, attachedTo, h]
    rfl
  | some r =>
    have := stock_update hu h f y
    have := hf r
    rw [attachedTo, h, Option.elim_some]
    omega

/-- A change of every record that costs none of them anything leaves the store as full as it was. -/
theorem stock_map (f : Record → Record) (y : Response)
    (hf : ∀ r ∈ s.records, (f r).holds y = r.holds y) (n : Nat) :
    stock ⟨s.records.map f, s.unclaimed, n⟩ y = s.stock y := by
  unfold stock
  rw [List.map_map]
  refine congrArg (_ + List.sum ·) (List.map_congr_left hf)

theorem balanced_insert (w : Workflow) (y : Response) : Turn.Balanced ⟨s, .insert w⟩ y := by
  show stock (s.insert [w]).2 y = s.stock y
  rcases insert_one s w with hi | ⟨id, -, -, hi⟩
  · rw [hi]
  · rw [hi]
    unfold stock append
    rw [List.map_append, List.sum_append]
    rfl

/-- The records that a claim takes, in the order of their insertion. -/
theorem claimList_perm (hu : s.Unique) (pool : String) (most : Nat) :
    (s.records.filter fun r => decide (r.id ∈ (s.claimList pool most).map (·.id))).Perm
      (s.claimList pool most) := by
  have hn : s.records.Nodup := List.Nodup.of_map _ hu
  have hm : (s.claimList pool most).Nodup := by
    refine (List.take_sublist _ _).nodup ?_
    exact (List.mergeSort_perm _ _).nodup_iff.2 (hn.filter _)
  refine (List.perm_ext_iff_of_nodup (hn.filter _) hm).2 fun r => ?_
  rw [List.mem_filter, decide_eq_true_iff]
  constructor
  · rintro ⟨hr, hi⟩
    exact hu.mem_of_id (fun t ht => (mem_claimList ht).1) hr hi
  · intro hr
    exact ⟨(mem_claimList hr).1, List.mem_map_of_mem hr⟩

theorem balanced_claim (hu : s.Unique) (engine pool : String) (most : Nat) (y : Response) :
    Turn.Balanced ⟨s, .claim engine pool most⟩ y := by
  -- The claim lists its records by priority, the sum runs over them in the order of insertion.
  let p : Record → Bool := fun r => decide (r.id ∈ (s.claimList pool most).map (·.id))
  have hlost : ∀ r ∈ s.records, (if p r then r.claim engine else r).holds y +
      (if p r then r.delivered.count y else 0) = r.holds y := by
    intro r hr
    by_cases hp : p r = true
    · have hc := hu.mem_of_id (fun t ht => (mem_claimList ht).1) hr (of_decide_eq_true hp)
      have hst := claimList_ready hc
      rw [if_pos hp, if_pos hp, Record.holds_ready (r := r) (by rw [hst]; intro z h; cases h)]
      exact Nat.zero_add _
    · rw [if_neg hp, if_neg hp]
      rfl
  have hsum := sum_change (Record.holds y) _ _ hlost
  have hout : (Turn.handedOut ⟨s, .claim engine pool most⟩).count y =
      (s.records.map fun r => if p r then r.delivered.count y else 0).sum := by
    rw [sum_if (fun r => r.delivered.count y) p]
    refine Eq.trans ?_ (((claimList_perm hu pool most).map _).sum_nat).symm
    simp only [Turn.handedOut, claim]
    rw [List.count_flatMap, List.map_map]
    rfl
  have hst : (Turn.after ⟨s, .claim engine pool most⟩).records =
      s.records.map fun r => if p r then r.claim engine else r := by
    refine List.map_congr_left fun r _ => ?_
    simp [p]
  have hpd : (Turn.after ⟨s, .claim engine pool most⟩).pending = s.pending := rfl
  show stock _ y + _ + 0 + 0 = s.stock y + 0
  unfold stock
  rw [hst, hout, hpd]
  omega

theorem balanced_deliver (hu : s.Unique) (x y : Response) : Turn.Balanced ⟨s, .deliver x⟩ y := by
  show stock (s.deliver x) y + 0 + 0 + 0 = s.stock y + [x].count y
  unfold deliver
  split
  · rename_i t ht
    obtain ⟨hr, hw⟩ := target?_some ht
    have := stock_update hu (hu.find? hr) (fun r => r.answer x) y
    have := Record.count_answer hw y
    unfold Record.holds at *
    omega
  · show (List.map _ (s.unclaimed ++ [_])).count y +
        (s.records.map (Record.holds y)).sum + 0 + 0 + 0 =
      s.pending.count y + (s.records.map (Record.holds y)).sum + [x].count y
    rw [List.map_append, List.count_append]
    show s.pending.count y + [x].count y + _ + 0 + 0 + 0 = _
    omega

theorem balanced_suspend (hu : s.Unique) (c : Callback) (payload : Json) (y : Response) :
    Turn.Balanced ⟨s, .suspend c payload⟩ y := by
  show stock (s.suspend c payload).2 y + 0 + 0 + (s.attachedTo c.instanceId).count y = s.stock y + 0
  cases h : s.find? c.instanceId with
  | none =>
    rw [suspend_absent h, attachedTo, h]
    rfl
  | some r =>
    obtain ⟨as, ht, -, hc⟩ := collect_spec c.correlations _ s.unclaimed
      (suspend_room r payload c (s.drawn + 1))
    have hopen : (r.suspend payload (.ofCallback c (s.drawn + 1))).attached = [] :=
      List.filterMap_eq_nil_iff.2 (Suspension.ofCallback_open c (s.drawn + 1))
    have htake : (s.suspended c payload r).1.holds y = r.delivered.count y + as.count y := by
      rw [Record.holds, suspended, ht.count y, hopen, List.count_nil, Nat.zero_add]
      rfl
    have hleft : s.pending.count y =
        as.count y + ((s.suspended c payload r).2.map (·.response)).count y := hc y
    have hupd := stock_update hu h (fun _ => (s.suspended c payload r).1) y
    have hr : r.holds y = r.attached.count y + r.delivered.count y := rfl
    rw [stock] at hupd
    change s.pending.count y + _ + _ = _ at hupd
    rw [suspend_present h, attachedTo, h, Option.elim_some]
    show ((s.suspended c payload r).2.map (·.response)).count y +
      ((s.update c.instanceId _).records.map (Record.holds y)).sum + 0 + 0 + r.attached.count y = _
    omega

theorem balanced_finish (hu : s.Unique) (remove : Bool) (id : Uuid) (y : Response) :
    Turn.Balanced ⟨s, .finish remove id⟩ y := by
  cases remove with
  | false =>
    have := stock_settle hu id Record.finish y fun r => by
      rw [Record.holds_ready (by intro z h; cases h)]
      exact Nat.add_comm _ _
    show stock (s.modify id Record.finish).2 y + 0 + 0 + (s.attachedTo id ++ []).count y = _ + 0
    rw [modify_store, List.append_nil]
    omega
  | true =>
    show stock (s.finish true id).2 y + 0 + 0 +
      (s.attachedTo id ++ s.deliveredTo id).count y = _ + 0
    rw [finish, if_pos rfl, attachedTo, deliveredTo, List.count_append]
    cases h : s.find? id with
    | none => rfl
    | some r =>
      obtain ⟨hr, rfl⟩ := find?_some h
      have hsum := sum_remove (Record.holds y) hu hr
      have hr : r.holds y = r.attached.count y + r.delivered.count y := rfl
      simp only [Option.elim_some]
      show s.pending.count y + ((s.records.filter _).map (Record.holds y)).sum + 0 + 0 + _ =
        s.pending.count y + (s.records.map (Record.holds y)).sum + 0
      omega

theorem balanced_fail (hu : s.Unique) (id : Uuid) (cause : String) (y : Response) :
    Turn.Balanced ⟨s, .fail id cause⟩ y := by
  have := stock_settle hu id (fun r => r.fail cause) y fun r => by
    rw [Record.holds_ready (by intro z h; cases h)]
    exact Nat.add_comm _ _
  show stock (s.modify id fun r => r.fail cause).2 y + 0 + 0 + (s.attachedTo id).count y = _ + 0
  rw [modify_store]
  omega

theorem balanced_restart (hu : s.Unique) (id : Uuid) (y : Response) :
    Turn.Balanced ⟨s, .restart id⟩ y := by
  show stock (s.restart id).2 y = s.stock y
  unfold restart
  split
  · rfl
  · rename_i r h
    split
    · rename_i hst
      have hsum := stock_update hu h Record.restart y
      rw [Record.holds_ready (r := r) (by rw [hst]; intro z h; cases h),
        Record.holds_ready (r := r.restart) (by intro z h; cases h)] at hsum
      exact Nat.add_right_cancel hsum
    · rfl

/-- Making records ready that do not wait costs none of them anything. -/
theorem stock_awaken {p : Record → Bool} {f : Record → Record} (y : Response)
    (hp : ∀ r, p r = true → ∀ z, r.status ≠ .waiting z)
    (hf : ∀ r, (f r).status = .ready ∧ (f r).delivered = r.delivered) :
    (s.updateWhere p f).2.stock y = s.stock y := by
  refine stock_map _ y (fun r _ => ?_) _
  by_cases h : p r = true
  · obtain ⟨h1, h2⟩ := hf r
    rw [if_pos h, Record.holds_ready (hp r h),
      Record.holds_ready (by rw [h1]; intro z h; cases h), h2]
  · rw [if_neg h]

theorem balanced_restartAll (y : Response) : Turn.Balanced ⟨s, .restartAll⟩ y := by
  refine stock_awaken y (fun r h z hz => ?_) fun r => ⟨rfl, rfl⟩
  rw [hz] at h
  cases h

theorem balanced_recover (engine : String) (y : Response) :
    Turn.Balanced ⟨s, .recover engine⟩ y := by
  refine stock_awaken y (fun r h z hz => ?_) fun r => ⟨rfl, rfl⟩
  rw [hz] at h
  cases h

theorem balanced_promote (now : Instant) (most : Nat) (y : Response) :
    Turn.Balanced ⟨s, .promote now most⟩ y := by
  refine stock_map _ y (fun r _ => ?_) _
  split
  · exact Record.holds_promote r y
  · rfl

/-- A sweep drops the first responses that have expired, and these only. -/
theorem count_dropExpired (now : Instant) (us : List Unclaimed) (y : Response) :
    ∀ most, ((dropExpired now most us).2.map (·.response)).count y +
      (((us.filter fun u => u.expiry ≤ now).take most).map (·.response)).count y =
        (us.map (·.response)).count y := by
  induction us with
  | nil => intro most; simp [dropExpired]
  | cons u us ih =>
    intro most
    cases most with
    | zero => simp [dropExpired]
    | succ most =>
      rw [dropExpired]
      by_cases h : u.expiry ≤ now
      · have := ih most
        rw [if_pos h, List.filter_cons_of_pos (by simpa using h), List.take_succ_cons,
          List.map_cons, List.map_cons, List.count_cons, List.count_cons]
        show ((dropExpired now most us).2.map (·.response)).count y + _ = _
        omega
      · have := ih (most + 1)
        rw [if_neg h, List.filter_cons_of_neg (by simpa using h), List.map_cons, List.map_cons,
          List.count_cons, List.count_cons]
        omega

theorem balanced_sweep (now : Instant) (most : Nat) (y : Response) :
    Turn.Balanced ⟨s, .sweep now most⟩ y := by
  have hc := count_dropExpired now s.unclaimed y most
  show ((dropExpired now most s.unclaimed).2.map (·.response)).count y +
    (s.records.map (Record.holds y)).sum + 0 +
      (((s.unclaimed.filter fun u => u.expiry ≤ now).take most).map (·.response)).count y + 0 =
        (s.unclaimed.map (·.response)).count y + (s.records.map (Record.holds y)).sum + 0
  omega

/-- **One turn.** Every action balances. -/
theorem balance (hu : s.Unique) (a : Action) (y : Response) : Turn.Balanced ⟨s, a⟩ y := by
  cases a with
  | insert w => exact balanced_insert w y
  | claim engine pool most => exact balanced_claim hu engine pool most y
  | deliver x => exact balanced_deliver hu x y
  | suspend c payload => exact balanced_suspend hu c payload y
  | finish remove id => exact balanced_finish hu remove id y
  | fail id cause => exact balanced_fail hu id cause y
  | restart id => exact balanced_restart hu id y
  | restartAll => exact balanced_restartAll y
  | sweep now most => exact balanced_sweep now most y
  | promote now most => exact balanced_promote now most y
  | recover engine => exact balanced_recover engine y
  | load id => rfl

/-! ## Runs -/

/-- What a run passed in is in the store, handed out, swept or discarded. -/
theorem run_balance (qs : List Store.Request) (y : Response) :
    (empty.serveAll qs).stock y + ((empty.trail qs).flatMap Turn.handedOut).count y +
        ((empty.trail qs).flatMap Turn.swept).count y +
        ((empty.trail qs).flatMap Turn.discarded).count y =
      ((empty.trail qs).flatMap Turn.notified).count y := by
  have hJ : Inductive fun ts s => s.Unique ∧
      s.stock y + (ts.flatMap Turn.handedOut).count y + (ts.flatMap Turn.swept).count y +
        (ts.flatMap Turn.discarded).count y = (ts.flatMap Turn.notified).count y := by
    refine ⟨⟨unique_empty, rfl⟩, fun ts s a ⟨hu, hts⟩ => ⟨act_unique s a hu, ?_⟩⟩
    have hb : _ + _ + _ + _ = _ := balance hu a y
    simp only [List.flatMap_append, List.flatMap_singleton, List.count_append]
    show stock (Turn.after ⟨s, a⟩) y + _ + _ + _ = _
    change _ = s.stock y + _ at hb
    omega
  exact (hJ.run qs).2

theorem discarded_nil {s : Store} (hs : s.Tidy) {a : Action} (ho : Turn.OnRunning ⟨s, a⟩) :
    Turn.discarded ⟨s, a⟩ = [] := by
  have h1 : ∀ id, a.settles = some id → s.attachedTo id = [] := by
    intro id ha
    cases h : s.find? id with
    | none => rw [attachedTo, h]; rfl
    | some r =>
      obtain ⟨hr, rfl⟩ := find?_some h
      obtain ⟨e, he⟩ := Record.status_of_running (ho r hr ha)
      rw [attachedTo, h, Option.elim_some, Record.attached, he]
  have h2 : ∀ id, a.settles = some id → s.deliveredTo id = [] := by
    intro id ha
    cases h : s.find? id with
    | none => rw [deliveredTo, h]; rfl
    | some r =>
      obtain ⟨hr, rfl⟩ := find?_some h
      rw [deliveredTo, h, Option.elim_some]
      exact (hs.clear ho hr ha).1
  cases a with
  | suspend c payload => exact h1 _ rfl
  | fail id cause => exact h1 _ rfl
  | finish remove id =>
    show s.attachedTo id ++ (if remove then s.deliveredTo id else []) = []
    rw [h1 id rfl, h2 id rfl, ite_self]
    rfl
  | _ => rfl

/-- Under the discipline of dispatch a run discards nothing. -/
theorem run_discards_nothing (qs : List Store.Request) (h : ∀ t ∈ empty.trail qs, t.OnRunning) :
    (empty.trail qs).flatMap Turn.discarded = [] := by
  have hJ : Inductive fun ts s => s.Unique ∧ ((∀ t ∈ ts, t.OnRunning) →
      s.Tidy ∧ ts.flatMap Turn.discarded = []) := by
    refine ⟨⟨unique_empty, fun _ => ⟨fun r hr => (by cases hr), rfl⟩⟩, ?_⟩
    intro ts s a ⟨hu, hts⟩
    refine ⟨act_unique s a hu, fun ho => ?_⟩
    obtain ⟨ht, hd⟩ := hts fun t ht => ho t (List.mem_append_left _ ht)
    have ho' := ho ⟨s, a⟩ (List.mem_append_right _ (List.mem_singleton_self _))
    refine ⟨tidy_act hu ht ho', ?_⟩
    rw [List.flatMap_append, hd, List.nil_append, List.flatMap_singleton, discarded_nil ht ho']
  exact ((hJ.run qs).2 h).2

end Store

/-- **Conservation of responses.** After committed transactions, each response was passed in as
often as it is unclaimed, attached to a wait, put by for the next claim, handed out by a claim,
swept after it expired or discarded with its wait or its instance. If only running instances were
suspended, finished and failed, nothing was discarded. -/
theorem responses_conserved (clock : Instant) (txs : List (List Store.Request)) (y : Response) :
    let s := ((Database.create clock).transactions txs).store
    let ts := Store.empty.trail txs.flatten
    s.pending.count y + s.attached.count y + s.delivered.count y +
        (ts.flatMap Turn.handedOut).count y + (ts.flatMap Turn.swept).count y +
        (ts.flatMap Turn.discarded).count y = (ts.flatMap Turn.notified).count y ∧
      ((∀ t ∈ ts, t.OnRunning) → ts.flatMap Turn.discarded = []) := by
  intro s ts
  have hs : s = Store.empty.serveAll txs.flatten := (Database.transactions_store txs rfl).1
  refine ⟨?_, Store.run_discards_nothing txs.flatten⟩
  rw [← Store.stock_eq, hs]
  exact Store.run_balance txs.flatten y

/-- The one response of this run is handed out, and nothing is discarded. -/
theorem responses_conserved_oneWait :
    (∀ t ∈ Store.empty.trail Store.oneWait.flatten, t.OnRunning) ∧
      (Store.empty.trail Store.oneWait.flatten).flatMap Turn.discarded = [] := by
  have h : ∀ t ∈ Store.empty.trail Store.oneWait.flatten, t.OnRunning := by decide +kernel
  exact ⟨h, (responses_conserved .epoch Store.oneWait default).2 h⟩

end Resumption
