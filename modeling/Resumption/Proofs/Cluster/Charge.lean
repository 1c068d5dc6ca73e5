import Resumption.Proofs.Cluster.Happening
import Resumption.Proofs.Cluster.Numbering
import Resumption.Proofs.Engine.Stage

/-!
# Who starts and stops an engine

An engine of a cluster is started, stopped and asked, and its storage is called, by any number of
callers at once (`Cluster.Ordinary`). The requests that start or stop the engine and have begun to are
in charge of it (`Cluster.inCharge`).

**Invariant.** `Cluster.Kept`: at most one request is in charge, the engine is in the stage that this
request is at, and its components are as the orders leave them. `Kept.spared` is the step of everything
but the requests to the engine: the engine stays where it is. `Kept.goOn` is the step of a request.
-/

namespace Resumption

/-- A caller may want this of an engine. Who starts or stops it sees that through. -/
def Demand.Ordinary (patience : Option Nat) : Demand → Prop
  | .start => patience = none
  | .stop => patience = none
  | .ask _ => True
  | .call c => c.Ordinary
  | .startProcessor _ => False
  | .stopProcessor _ => False

namespace Task

/-- The task, if it is a start or a stop that has begun. -/
def charge? : Task → Option Task
  | .starting .entering => none
  | .starting p => some (.starting p)
  | .stopping .entering => none
  | .stopping p => some (.stopping p)
  | _ => none

/-- A request to an engine may be at this task. -/
def Ordinary (limit : Option Nat) : Task → Prop
  | .arriving d => d.Ordinary limit
  | .starting _ => limit = none
  | .stopping _ => limit = none
  | .halting _ _ => False
  | _ => True

end Task

theorem Demand.Ordinary.map {patience : Option Nat} {d : Demand} (h : d.Ordinary patience)
    (f : Nat → Nat) : d.Ordinary (patience.map f) := by
  cases d with
  | start => exact congrArg (Option.map f) h
  | stop => exact congrArg (Option.map f) h
  | _ => exact h

/-- A request that the engine is in a stage with is in charge. -/
theorem Engine.Stage.charge {e : Engine} {log : List Order} {t : Task}
    (h : e.Stage log (some t)) : t.charge? = some t := by
  cases h <;> rfl

/-- The task of a request to the engine at the place, if it is a start or a stop that has begun. -/
def Request.charge? (r : Request) (place : Nat) : Option Task :=
  if r.engine = place then r.task.charge? else none

/-- Where neither a start nor a stop is under way, none is in charge. -/
theorem Engine.Stage.idle {e : Engine} {log : List Order} {t : Option Task} (h : e.Stage log t)
    (hc : e.changing = false) : t = none :=
  Option.isNone_iff_eq_none.1 (by rw [← Option.not_isSome, ← h.changing, hc]; rfl)

namespace Cluster

/-- The starts and the stops of the engine at the place that have begun. -/
def inCharge (c : Cluster) (place : Nat) : List Task :=
  c.requests.filterMap (·.charge? place)

/-- The request to the engine at the place that goes on when this happens, with the engine. -/
def turn? (c : Cluster) (place : Nat) : Happening → Option (Engine × Request)
  | .goes (.request serial) =>
    (c.request? serial).bind fun r => (c.engines[place]?).bind fun e =>
      if r.engine = place ∧ c.taskReady c.site.unlocked e r.task = true then some (e, r) else none
  | _ => none

def taskOrders (e : Engine) (x : Site) : Task → List Order
  | .starting p => e.startOrders x p
  | .stopping p => e.stopOrders x p
  | _ => []

def orders (c : Cluster) (place : Nat) (x : Happening) : List Order :=
  ((c.turn? place x).map fun (e, r) => taskOrders e c.site r.task).getD []

def ordersIn (c : Cluster) (place : Nat) : List Happening → List Order
  | [] => []
  | x :: xs => c.orders place x ++ (c.happen x).ordersIn place xs

/-- This may happen where one looks at the engine at the place: actors go on only when they can, the
engine is started, stopped and asked, and its process lives. To other engines anything may happen. -/
def Ordinary (c : Cluster) (place : Nat) : Happening → Prop
  | .goes a => c.ready a = true
  | .asks p d patience => p = place → d.Ordinary patience
  | .dies p => p ≠ place
  | _ => True

def OrdinaryRun (c : Cluster) (place : Nat) : List Happening → Prop
  | [] => True
  | x :: xs => c.Ordinary place x ∧ (c.happen x).OrdinaryRun place xs

instance decidableOrdinaryRun (place : Nat) :
    (as : List Actor) → (c : Cluster) → Decidable (c.OrdinaryRun place (as.map .goes))
  | [], _ => isTrue trivial
  | a :: as, c =>
    have := decidableOrdinaryRun place as (c.step a)
    inferInstanceAs (Decidable (c.ready a = true ∧ (c.step a).OrdinaryRun place (as.map .goes)))

/-- **What holds of the engine at the place at every moment.** -/
structure Kept (c : Cluster) (place : Nat) (e₀ e : Engine) (log : List Order) : Prop where
  numbered : c.Numbered
  tasks : ∀ r ∈ c.requests, r.engine = place → r.task.Ordinary r.limit
  engine : c.engines[place]? = some e
  stage : ∃ t : Option Task, c.inCharge place = t.toList ∧ e.Stage log t
  components : e.components = log.foldl Order.carry e₀.components

variable {c c' : Cluster} {place : Nat} {e₀ e e' : Engine} {log : List Order} {x : Happening}
  {r : Request}

/-! ## What is not a step of a request to the engine -/

/-- The engine stays where it is, and so do the requests to it, but for some that come or are given
up before they are in charge. -/
structure Spared (c : Cluster) (place : Nat) (e : Engine) (c' : Cluster) : Prop where
  numbered : c'.Numbered
  tasks : ∀ q ∈ c'.requests, q.engine = place →
    q ∈ c.requests ∨ ∃ d, q.task = .arriving d ∧ d.Ordinary q.limit
  engine : ∃ e', c'.engines[place]? = some e' ∧ e.Steady e'
  inCharge : c'.inCharge place = c.inCharge place

/-- The engine stays where it is, and no request comes or goes on. -/
theorem spared_engine (hn : c.Numbered) (hi : c'.issued = c.issued) (hr : c'.requests = c.requests)
    (he : ∃ e', c'.engines[place]? = some e' ∧ e.Steady e') : c.Spared place e c' :=
  ⟨hn.sub hi (hr ▸ .refl _), fun q hq _ => .inl (hr ▸ hq), he, by rw [inCharge, hr]; rfl⟩

theorem put_engine (he : c.engines[place]? = some e) {p : Nat} {o o' : Engine}
    (ho : c.engines[p]? = some o) (hs : o.Steady o') :
    ∃ e', (c.engines.set p o')[place]? = some e' ∧ e.Steady e' := by
  by_cases hp : p = place
  · subst hp
    cases he.symm.trans ho
    exact ⟨o', by rw [List.getElem?_set_self', he]; rfl, hs⟩
  · exact ⟨e, by rw [List.getElem?_set_ne hp]; exact he, .refl e⟩

/-- An engine takes a step that is not one of a start or a stop. -/
theorem stepEngine_spared (hn : c.Numbered) (he : c.engines[place]? = some e) (p : Nat)
    {f : Engine → Site → Engine × Site} (hf : ∀ (e : Engine) x, e.Steady (f e x).1) :
    c.Spared place e (c.stepEngine p f) := by
  unfold stepEngine
  split
  · exact spared_engine hn rfl rfl ⟨e, he, .refl e⟩
  · rename_i o ho
    exact spared_engine hn rfl rfl (put_engine he ho (hf o c.site))

theorem stepStorage_spared (hn : c.Numbered) (he : c.engines[place]? = some e) (p : Nat)
    {f : Storage → Database → Storage × Database} (hf : ∀ (s : Storage) d, s.Steady (f s d).1) :
    c.Spared place e (c.stepStorage p f) :=
  stepEngine_spared hn he p fun e x => Engine.steady_storage (hf e.storage x.db)

/-- The requests in charge, before and after a step of one request. -/
theorem inCharge_split (hn : c.Numbered) (hr : r ∈ c.requests) (place : Nat) (t : Task) :
    ∃ l₁ l₂, c.inCharge place = l₁ ++ (r.charge? place).toList ++ l₂ ∧
      (c.requests.map fun q => if q.serial = r.serial then { q with task := t } else q).filterMap
          (·.charge? place) = l₁ ++ (Request.charge? { r with task := t } place).toList ++ l₂ ∧
      (c.requests.filter fun q => q.serial ≠ r.serial).filterMap (·.charge? place) = l₁ ++ l₂ := by
  have cons : ∀ (q : Request) l, (q :: l).filterMap (·.charge? place) =
      (q.charge? place).toList ++ l.filterMap (·.charge? place) := fun q l => by
    rw [List.filterMap_cons]
    cases q.charge? place <;> rfl
  obtain ⟨l₁, l₂, h, hmap, hfilter⟩ := hn.split hr t
  refine ⟨_, _, ?_, ?_, by rw [hfilter, List.filterMap_append]⟩
  · rw [inCharge, h, List.filterMap_append, cons, List.append_assoc]
  · rw [hmap, List.filterMap_append, cons, List.append_assoc]

theorem inCharge_filter (hn : c.Numbered) (hr : r ∈ c.requests) (h : r.charge? place = none) :
    (c.requests.filter fun q => q.serial ≠ r.serial).filterMap (·.charge? place) =
      c.inCharge place := by
  obtain ⟨l₁, l₂, hc, -, hf⟩ := inCharge_split hn hr place r.task
  rw [hf, hc, h, Option.toList_none, List.append_nil]

/-- A request is given up that does not start or stop the engine. -/
theorem giveUp_spared (hn : c.Numbered) (he : c.engines[place]? = some e) (hr : r ∈ c.requests)
    (h : r.engine = place → (∀ p, r.task ≠ .starting p) ∧ ∀ p, r.task ≠ .stopping p) :
    c.Spared place e (c.giveUp r) := by
  have hcharge : r.charge? place = none := by
    unfold Request.charge? Task.charge?
    split
    · obtain ⟨hs, ht⟩ := h ‹_›
      split <;> first | rfl | exact absurd ‹_› (hs _) | exact absurd ‹_› (ht _)
    · rfl
  have spared : ∀ es : List Engine, (∃ e', es[place]? = some e' ∧ e.Steady e') →
      c.Spared place e
        { c with requests := c.requests.filter fun q => q.serial ≠ r.serial, engines := es } :=
    fun es he => ⟨hn.sub rfl List.filter_sublist, fun q hq _ => .inl (List.mem_filter.1 hq).1, he,
      inCharge_filter hn hr hcharge⟩
  have others : r.engine ≠ place → ∀ f : Engine → Engine,
      ∃ e', (c.engines.modify r.engine f)[place]? = some e' ∧ e.Steady e' := fun hp f =>
    ⟨e, by simp [hp, he], .refl e⟩
  unfold giveUp
  dsimp only
  split
  · exact spared _ ⟨e, he, .refl e⟩
  · exact spared _ ⟨e, he, .refl e⟩
  · rename_i p _ ht
    exact spared _ (others (fun hp => (h hp).1 p ht) _)
  · rename_i p _ ht
    exact spared _ (others (fun hp => (h hp).2 p ht) _)
  · exact spared _ ⟨e, he, .refl e⟩

theorem goOn_spared (hn : c.Numbered) (he : c.engines[place]? = some e) (hr : r ∈ c.requests)
    (h : r.engine ≠ place) (o : Engine) : c.Spared place e (c.goOn o r) := by
  have stay : ∀ o' : Engine, ∃ e', (c.engines.set r.engine o')[place]? = some e' ∧ e.Steady e' :=
    fun o' => ⟨e, by rw [List.getElem?_set_ne h]; exact he, .refl e⟩
  unfold goOn
  split
  · rename_i t o' x _
    refine ⟨hn.going hr rfl rfl, fun q hq hp => .inl ?_, stay o', ?_⟩
    · rcases hn.mem_going hr hq with rfl | hq
      · exact absurd hp h
      · exact hq.1
    · obtain ⟨l₁, l₂, hc, hmap, -⟩ := inCharge_split hn hr place t
      rw [inCharge, hmap, hc, Request.charge?, Request.charge?, if_neg h, if_neg h]
  · exact ⟨hn.sub rfl List.filter_sublist, fun q hq _ => .inl (List.mem_filter.1 hq).1, stay _,
      inCharge_filter hn hr (if_neg h)⟩

theorem turn?_request {serial : Nat} (hr : c.request? serial = some r)
    (he : c.engines[place]? = some e) (hp : r.engine = place)
    (hready : c.taskReady c.site.unlocked e r.task = true) :
    c.turn? place (.goes (.request serial)) = some (e, r) := by
  rw [turn?, hr, Option.bind_some, he, Option.bind_some, if_pos ⟨hp, hready⟩]

/-- **Everything but a step of a request to the engine** leaves the engine where it is. -/
theorem Kept.spared (hk : c.Kept place e₀ e log) (hx : c.Ordinary place x)
    (ht : c.turn? place x = none) : c.Spared place e (c.happen x) := by
  have hn := hk.numbered
  have he := hk.engine
  have still : ∀ site, c.Spared place e { c with site } := fun site =>
    spared_engine hn rfl rfl ⟨e, he, .refl e⟩
  cases x with
  | goes a =>
    cases a with
    | request serial =>
      show c.Spared place e (c.stepRequest serial)
      unfold stepRequest
      split
      · exact still _
      · rename_i r hfind
        obtain ⟨hr, rfl⟩ := request?_some hfind
        split
        · exact still _
        · rename_i o ho
          split
          · rename_i hlate
            rw [Bool.and_eq_true] at hlate
            refine giveUp_spared hn he hr fun hp => ⟨fun p hs => ?_, fun p hs => ?_⟩ <;>
            · have hlim := hk.tasks r hr hp
              rw [hs] at hlim
              have hnone : r.limit = none := hlim
              rw [isLate, hnone] at hlate
              cases hlate.1
          · rename_i hnot
            refine goOn_spared hn he hr (fun hp => ?_) o
            subst hp
            cases he.symm.trans ho
            rw [turn?_request hfind he rfl (taskReady_of_ready hx hfind he hnot)] at ht
            cases ht
    | worker p => exact stepStorage_spared hn he p fun s d => s.stepWorker_steady _ d
    | updater p => exact stepStorage_spared hn he p fun s d => s.stepUpdater_steady _ d
    | reaper p => exact stepStorage_spared hn he p fun s d => s.stepReaper_steady _ d
    | poll p q => exact stepEngine_spared hn he p fun e x => e.stepPoll_steady x q
    | dispatch p q serial => exact stepEngine_spared hn he p fun e x => e.stepDispatch_steady x _ q serial
  | asks p d patience =>
    refine ⟨hn.request p d patience, fun q hq hp => ?_, ⟨e, he, .refl e⟩, ?_⟩
    · rcases List.mem_append.1 hq with hq | hq
      · exact .inl hq
      · cases List.mem_singleton.1 hq
        exact .inr ⟨d, rfl, (hx hp).map _⟩
    · have hnone : Request.charge? ⟨c.issued, p, .arriving d, patience.map (c.site.time + ·)⟩ place =
          none := by
        unfold Request.charge?
        split <;> rfl
      simp [inCharge, happen, Cluster.request, hnone]
  | delivers p rs =>
    rw [happen]
    split <;> exact still _
  | holds => exact still _
  | commits => exact still _
  | rollsBack => exact still _
  | forgets => exact still _
  | passes time => exact still _
  | weather faults clock => exact still _
  | joins o =>
    refine spared_engine hn rfl rfl ⟨e, ?_, .refl e⟩
    show (c.engines ++ [o])[place]? = some e
    rw [List.getElem?_append_left (List.getElem?_eq_some_iff.1 he).1, he]
  | dies p =>
    have hp : p ≠ place := hx
    refine ⟨hn.sub rfl List.filter_sublist, fun q hq _ => .inl (List.mem_filter.1 hq).1,
      ⟨e, ?_, .refl e⟩, ?_⟩
    · show (c.engines.modify p Engine.dead)[place]? = some e
      simp [hp, he]
    · show (c.requests.filter fun r => r.engine ≠ p).filterMap (·.charge? place) = _
      rw [List.filterMap_filter]
      refine List.filterMap_congr fun r _ => ?_
      by_cases hr : r.engine = place
      · simp [hr, hp.symm]
      · simp [Request.charge?, hr]

/-! ## A step of a request to the engine -/

theorem turn?_some (h : c.turn? place x = some (e, r)) :
    x = .goes (.request r.serial) ∧ r ∈ c.requests ∧ r.engine = place ∧
      c.engines[place]? = some e ∧ c.taskReady c.site.unlocked e r.task = true ∧
        c.happen x = c.goOn e r := by
  unfold turn? at h
  split at h
  · rename_i serial
    obtain ⟨q, hq, h⟩ := Option.bind_eq_some_iff.1 h
    obtain ⟨o, ho, h⟩ := Option.bind_eq_some_iff.1 h
    obtain ⟨hr, hs⟩ := request?_some hq
    split at h
    · rename_i hp
      cases h
      obtain ⟨hp, hready⟩ := hp
      refine ⟨by rw [hs], hr, hp, ho, hready, ?_⟩
      show c.stepRequest serial = _
      simp only [stepRequest, hq, hp, ho, hready, Bool.not_true, Bool.and_false, Bool.false_eq_true,
        if_false]
    · cases h
  · cases h

def TaskProgress.next? : TaskProgress → Option Task
  | .going t => some t
  | .over _ => none

/-- The numbers and the engine after a step of a request. -/
theorem goOn_frame (hn : c.Numbered) (he : c.engines[place]? = some e) (hr : r ∈ c.requests)
    (hp : r.engine = place) :
    (c.goOn e r).Numbered ∧
      (c.goOn e r).engines[place]? = some (advanceTask e c.site r.task).2.1 := by
  have hset : ∀ o : Engine, (c.engines.set r.engine o)[place]? = some o := fun o => by
    rw [hp, List.getElem?_set_self', he]
    rfl
  unfold goOn
  split <;> rename_i heq <;> rw [heq]
  · exact ⟨hn.going hr rfl rfl, hset _⟩
  · exact ⟨hn.sub rfl List.filter_sublist, hset _⟩

theorem goOn_requests (hn : c.Numbered) (hr : r ∈ c.requests) (e : Engine) :
    ∀ q ∈ (c.goOn e r).requests, q ∈ c.requests ∨
      ∃ t, (advanceTask e c.site r.task).1 = .going t ∧ q = { r with task := t } := by
  unfold goOn
  split <;> rename_i heq <;> rw [heq]
  · rename_i t o x
    exact fun q hq => (hn.mem_going hr hq).elim (fun h => .inr ⟨t, rfl, h⟩) fun h => .inl h.1
  · exact fun q hq => .inl (List.mem_filter.1 hq).1

/-- The requests in charge after a step of a request to the engine. -/
theorem goOn_inCharge (hn : c.Numbered) (hr : r ∈ c.requests) (hp : r.engine = place) (e : Engine) :
    ∃ l₁ l₂, c.inCharge place = l₁ ++ r.task.charge?.toList ++ l₂ ∧
      (c.goOn e r).inCharge place =
        l₁ ++ ((advanceTask e c.site r.task).1.next?.bind Task.charge?).toList ++ l₂ := by
  have hcharge : ∀ t, Request.charge? { r with task := t } place = t.charge? := fun t => if_pos hp
  unfold goOn
  split <;> rename_i heq <;> rw [heq]
  · rename_i t o x
    obtain ⟨l₁, l₂, hc, hmap, -⟩ := inCharge_split hn hr place t
    refine ⟨l₁, l₂, by rw [hc, ← hcharge r.task], ?_⟩
    rw [inCharge, hmap, hcharge]
    rfl
  · obtain ⟨l₁, l₂, hc, -, hfilter⟩ := inCharge_split hn hr place r.task
    refine ⟨l₁, l₂, by rw [hc, ← hcharge r.task], ?_⟩
    rw [inCharge, hfilter, TaskProgress.next?, Option.bind_none, Option.toList_none, List.append_nil]

/-- A step of a request that neither starts nor stops the engine. -/
theorem advanceTask_plain {limit : Option Nat} {t : Task} (ho : t.Ordinary limit)
    (hs : ∀ p, t ≠ .starting p) (ht : ∀ p, t ≠ .stopping p) (x : Site) :
    e.Steady (advanceTask e x t).2.1 ∧
      ∀ t', (advanceTask e x t).1 = .going t' → t'.charge? = none ∧ t'.Ordinary limit := by
  cases t with
  | starting p => exact absurd rfl (hs p)
  | stopping p => exact absurd rfl (ht p)
  | halting q p => exact ho.elim
  | arriving d =>
    cases d with
    | ask a => exact ⟨.refl e, fun t' h => by cases h; exact ⟨rfl, trivial⟩⟩
    | start => exact ⟨.refl e, fun t' h => by cases h; exact ⟨rfl, ho⟩⟩
    | stop => exact ⟨.refl e, fun t' h => by cases h; exact ⟨rfl, ho⟩⟩
    | startProcessor q => exact ho.elim
    | stopProcessor q => exact ho.elim
    | call k =>
      have h := e.storage.begin_steady x.db ho
      rw [advanceTask, takeUp]
      split <;> rename_i heq <;> rw [heq] at h
      · exact ⟨Engine.steady_storage h, fun t' h => by cases h; exact ⟨rfl, trivial⟩⟩
      · exact ⟨Engine.steady_storage h, fun t' h => by cases h⟩
  | asking p =>
    have h := e.advanceAsk_steady x p
    rw [advanceTask]
    split <;> rename_i heq <;> rw [heq] at h
    · exact ⟨h, fun t' h => by cases h; exact ⟨rfl, trivial⟩⟩
    · exact ⟨h, fun t' h => by cases h⟩
  | storing p =>
    have h := e.storage.advance_steady x.time x.db p
    rw [advanceTask]
    split <;> rename_i heq <;> rw [heq] at h
    · exact ⟨Engine.steady_storage h, fun t' h => by cases h; exact ⟨rfl, trivial⟩⟩
    · exact ⟨Engine.steady_storage h, fun t' h => by cases h⟩

def controlled {φ : Type} (task : φ → Task) : Engine.ControlProgress φ → TaskProgress
  | .going p => .going (task p)
  | .over r => .over (.control r)

theorem advanceTask_starting (e : Engine) (x : Site) (p : Engine.StartPhase) :
    advanceTask e x (.starting p) =
      (controlled .starting (e.advanceStart x p).1, (e.advanceStart x p).2) := by
  rw [advanceTask]
  split <;> rename_i heq <;> rw [heq] <;> rfl

theorem advanceTask_stopping (e : Engine) (x : Site) (p : Engine.StopPhase) :
    advanceTask e x (.stopping p) =
      (controlled .stopping (e.advanceStop x p).1, (e.advanceStop x p).2) := by
  rw [advanceTask]
  split <;> rename_i heq <;> rw [heq] <;> rfl

/-- **What a request to an engine can be at when it goes on**: a start or a stop that comes too late or
too early, a start, a stop, or anything else. -/
inductive Going (c : Cluster) (place : Nat) (e : Engine) (log : List Order) (r : Request) : Prop
  | plain (start : ∀ p, r.task ≠ .starting p) (stop : ∀ p, r.task ≠ .stopping p)
  | vainStart (task : r.task = .starting .entering) (lifecycle : e.lifecycle ≠ .raw)
      (idle : c.inCharge place = []) (changing : e.changing = false)
  | vainStop (task : r.task = .stopping .entering) (lifecycle : e.lifecycle ≠ .started)
      (idle : c.inCharge place = []) (changing : e.changing = false)
  | start {p : Engine.StartPhase} (task : r.task = .starting p) (gate : e.gate.isOpen = false)
      (sole : c.inCharge place = r.task.charge?.toList)
      (led : Engine.Led .starting Engine.StartEnds e log (e.startOrders c.site p)
        (e.advanceStart c.site p))
  | stop {p : Engine.StopPhase} (task : r.task = .stopping p) (gate : e.gate.isOpen = true)
      (sole : c.inCharge place = r.task.charge?.toList)
      (led : Engine.Led .stopping Engine.StopEnds e log (e.stopOrders c.site p)
        (e.advanceStop c.site p))

theorem sole_of_toList {t : Option Task} {u : Task} {l₁ l₂ : List Task}
    (h : l₁ ++ [u] ++ l₂ = t.toList) : t = some u ∧ l₁ = [] ∧ l₂ = [] := by
  cases t with
  | none => simp at h
  | some v =>
    rw [Option.toList_some, List.append_assoc, List.append_eq_singleton_iff] at h
    rcases h with ⟨rfl, h⟩ | ⟨-, h⟩
    · rw [List.append_eq_singleton_iff] at h
      rcases h with ⟨h, -⟩ | ⟨h, rfl⟩
      · cases h
      · cases h
        exact ⟨rfl, rfl, rfl⟩
    · rw [List.append_eq_nil_iff] at h
      cases h.1

theorem Kept.going (hk : c.Kept place e₀ e log) (hs : e₀.storage.started = false)
    (ht : e₀.storage.stopped = false) (hturn : c.turn? place x = some (e', r)) :
    e' = e ∧ c.Going place e log r := by
  obtain ⟨-, hr, hp, he, hready, -⟩ := turn?_some hturn
  cases he.symm.trans hk.engine
  obtain ⟨t, hcharge, hstage⟩ := hk.stage
  obtain ⟨l₁, l₂, hsplit, -⟩ := goOn_inCharge hk.numbered hr hp e
  have hstorage := Order.carry_storage log e₀.components
  rw [← hk.components] at hstorage
  have hstarted : e.storage.started = decide (.startStorage ∈ log) := by
    rw [show e.storage.started = _ from hstorage.1, show e₀.components.started = false from hs,
      Bool.false_or]
  have hstopped : e.storage.stopped = decide (.stopStorage ∈ log) := by
    rw [show e.storage.stopped = _ from hstorage.2, show e₀.components.stopped = false from ht,
      Bool.false_or]
  -- a start or a stop that has begun is the one in charge
  have sole : ∀ {u : Task}, r.task = u → u.charge? = some u →
      t = some u ∧ c.inCharge place = r.task.charge?.toList := fun {u} hu hc => by
    rw [hu, hc, Option.toList_some] at hsplit
    obtain ⟨rfl, rfl, rfl⟩ := sole_of_toList (hsplit.symm.trans hcharge)
    exact ⟨rfl, by rw [hu, hc]; exact hcharge⟩
  -- one that has not begun goes on only where none is in charge
  have none : e.changing = false → t = none ∧ c.inCharge place = [] := fun hc => by
    have h := hstage.idle hc
    exact ⟨h, by rw [hcharge, h]; rfl⟩
  refine ⟨rfl, ?_⟩
  cases htask : r.task with
  | starting p =>
    have hready : e.startReady c.site c.site.unlocked p = true := by rw [htask] at hready; exact hready
    cases p with
    | entering =>
      have hc : e.changing = false := by simpa [Engine.startReady] using hready
      obtain ⟨rfl, hnone⟩ := none hc
      by_cases hl : e.lifecycle = .raw
      · have hgate : e.gate.isOpen = false :=
          Bool.eq_false_iff.2 fun h => (hstage.gate.1 h).1 hl
        refine .start htask hgate (by rw [hnone, htask]; rfl) (hstage.enterStart hl ?_)
        cases hstage with
        | raw => exact hstarted
        | started hp => rw [hp.lifecycle] at hl; cases hl
        | failed hp => rw [hp.lifecycle] at hl; cases hl
        | stopped hp => rw [hp.lifecycle] at hl; cases hl
      · exact .vainStart htask hl hnone hc
    | _ =>
      obtain ⟨rfl, hsole⟩ := sole htask rfl
      have hgate : e.gate.isOpen = false :=
        Bool.eq_false_iff.2 fun h => (hstage.gate.1 h).2 _ rfl
      exact .start htask hgate hsole (hstage.start hstopped hready)
  | stopping p =>
    have hready : e.stopReady c.site c.site.unlocked p = true := by rw [htask] at hready; exact hready
    cases p with
    | entering =>
      have hc : e.changing = false := by simpa [Engine.stopReady] using hready
      obtain ⟨rfl, hnone⟩ := none hc
      by_cases hl : e.lifecycle = .started
      · have hgate := hstage.gate.2 ⟨by rw [hl]; decide, fun _ h => by cases h⟩
        exact .stop htask hgate (by rw [hnone, htask]; rfl) (hstage.enterStop hl)
      · exact .vainStop htask hl hnone hc
    | _ =>
      obtain ⟨rfl, hsole⟩ := sole htask rfl
      have hgate := hstage.gate.2 ⟨by rw [hstage.shuttingDown]; decide, fun _ h => by cases h⟩
      exact .stop htask hgate hsole (hstage.stop hstopped hready)
  | _ => exact .plain (fun p h => by rw [htask] at h; cases h) fun p h => by rw [htask] at h; cases h

theorem advanceTask_vainStart (h : e.lifecycle ≠ .raw) (x : Site) :
    advanceTask e x (.starting .entering) =
      (.over (.control (.error (.illegalState .raw e.lifecycle))), e, x) := by
  rw [advanceTask_starting, Engine.advanceStart, if_neg h]
  rfl

/-- A stop of an engine that is not started is refused. -/
theorem advanceTask_vainStop (h : e.lifecycle ≠ .started) (x : Site) :
    advanceTask e x (.stopping .entering) =
      (.over (.control (.error (.illegalState .started e.lifecycle))), e, x) := by
  rw [advanceTask_stopping, Engine.advanceStop, if_neg h]
  rfl

theorem Kept.after (hk : c.Kept place e₀ e log) (hr : r ∈ c.requests) (hp : r.engine = place)
    {given : List Order} (hcomp : (advanceTask e c.site r.task).2.1.components =
      given.foldl Order.carry e.components)
    (tasks : ∀ t, (advanceTask e c.site r.task).1 = .going t → t.Ordinary r.limit)
    (stage : ∀ l₁ l₂, c.inCharge place = l₁ ++ r.task.charge?.toList ++ l₂ → ∃ t : Option Task,
      l₁ ++ ((advanceTask e c.site r.task).1.next?.bind Task.charge?).toList ++ l₂ = t.toList ∧
        (advanceTask e c.site r.task).2.1.Stage (log ++ given) t) :
    (c.goOn e r).Kept place e₀ (advanceTask e c.site r.task).2.1 (log ++ given) := by
  obtain ⟨hn, he⟩ := goOn_frame hk.numbered hk.engine hr hp
  refine ⟨hn, fun q hq hqp => ?_, he, ?_, ?_⟩
  · rcases goOn_requests hk.numbered hr e q hq with hq | ⟨t, ht, rfl⟩
    · exact hk.tasks q hq hqp
    · exact tasks t ht
  · obtain ⟨l₁, l₂, hsplit, hafter⟩ := goOn_inCharge hk.numbered hr hp e
    rw [hafter]
    exact stage l₁ l₂ hsplit
  · rw [hcomp, List.foldl_append, ← hk.components]

theorem Kept.still (hk : c.Kept place e₀ e log) (hr : r ∈ c.requests) (hp : r.engine = place)
    (hs : e.Steady (advanceTask e c.site r.task).2.1) (hc : r.task.charge? = none)
    (ho : taskOrders e c.site r.task = [])
    (ht : ∀ t, (advanceTask e c.site r.task).1 = .going t → t.charge? = none ∧ t.Ordinary r.limit) :
    (c.goOn e r).Kept place e₀ (advanceTask e c.site r.task).2.1
      (log ++ taskOrders e c.site r.task) := by
  obtain ⟨t, hcharge, hstage⟩ := hk.stage
  rw [ho]
  refine hk.after hr hp hs.components (fun t h => (ht t h).2) fun l₁ l₂ hsplit => ?_
  rw [hc, Option.toList_none, List.append_nil, hcharge] at hsplit
  have hnext : (advanceTask e c.site r.task).1.next?.bind Task.charge? = none := by
    rcases ha : (advanceTask e c.site r.task).1 with t | a
    · exact (ht t ha).1
    · rfl
  refine ⟨t, ?_, by rw [List.append_nil]; exact hstage.steady hs⟩
  rw [hnext, hsplit, Option.toList_none, List.append_nil]

theorem controlled_next? {φ : Type} (task : φ → Task) (p : Engine.ControlProgress φ) :
    (controlled task p).next? = p.task? task := by
  cases p <;> rfl

/-- A step of a start or a stop keeps what holds of the engine. -/
theorem Kept.led (hk : c.Kept place e₀ e log) (hr : r ∈ c.requests) (hp : r.engine = place)
    {φ : Type} {task : φ → Task} {ends : Engine → Except EngineError Unit → Prop}
    {given : List Order} {step : Engine.ControlProgress φ × Engine × Site}
    (hstep : advanceTask e c.site r.task = (controlled task step.1, step.2))
    (sole : c.inCharge place = r.task.charge?.toList)
    (tasks : ∀ p, (task p).Ordinary r.limit) (h : Engine.Led task ends e log given step) :
    (c.goOn e r).Kept place e₀ (advanceTask e c.site r.task).2.1 (log ++ given) := by
  refine hk.after hr hp (by rw [hstep]; exact h.components) (fun t ht => ?_) fun l₁ l₂ hsplit => ?_
  · rw [hstep] at ht
    rcases hs : step.1 with p | r <;> rw [hs] at ht <;> cases ht
    exact tasks p
  · rw [hstep, controlled_next?]
    have hstage := h.stage
    have hnil : l₁ = [] ∧ l₂ = [] := by
      have hlen := congrArg List.length (sole.symm.trans hsplit)
      simp only [List.length_append] at hlen
      exact ⟨List.length_eq_zero_iff.1 (by omega), List.length_eq_zero_iff.1 (by omega)⟩
    obtain ⟨rfl, rfl⟩ := hnil
    refine ⟨step.1.task? task, ?_, hstage⟩
    rcases hs : step.1 with p | r
    · rw [hs] at hstage
      rw [List.nil_append, List.append_nil, Engine.ControlProgress.task?, Option.bind_some,
        hstage.charge]
    · rfl

/-- **A step of a request to the engine.** -/
theorem Kept.goOn (hk : c.Kept place e₀ e log) (hr : r ∈ c.requests) (hp : r.engine = place)
    (hg : c.Going place e log r) :
    (c.goOn e r).Kept place e₀ (advanceTask e c.site r.task).2.1
      (log ++ taskOrders e c.site r.task) := by
  have hord := hk.tasks r hr hp
  cases hg with
  | plain hs ht =>
    obtain ⟨hsteady, htask⟩ := advanceTask_plain (e := e) hord hs ht c.site
    refine hk.still hr hp hsteady ?_ ?_ htask
    · unfold Task.charge?
      split <;> first | rfl | exact absurd ‹_› (hs _) | exact absurd ‹_› (ht _)
    · unfold taskOrders
      split <;> first | rfl | exact absurd ‹_› (hs _) | exact absurd ‹_› (ht _)
  | vainStart htask hl =>
    have hstep : advanceTask e c.site r.task = _ := htask ▸ advanceTask_vainStart hl c.site
    refine hk.still hr hp (by rw [hstep]; exact .refl e) (by rw [htask]; rfl) ?_ fun t ht => ?_
    · rw [htask, taskOrders, Engine.startOrders, if_neg hl]
    · rw [hstep] at ht
      cases ht
  | vainStop htask hl =>
    have hstep : advanceTask e c.site r.task = _ := htask ▸ advanceTask_vainStop hl c.site
    refine hk.still hr hp (by rw [hstep]; exact .refl e) (by rw [htask]; rfl) ?_ fun t ht => ?_
    · rw [htask, taskOrders, Engine.stopOrders, if_neg hl]
    · rw [hstep] at ht
      cases ht
  | @start p htask _ hsole hled =>
    rw [htask] at hord
    have hstep : advanceTask e c.site r.task =
        (controlled .starting (e.advanceStart c.site p).1, (e.advanceStart c.site p).2) :=
      htask ▸ advanceTask_starting e c.site p
    rw [show taskOrders e c.site r.task = e.startOrders c.site p by rw [htask]; rfl]
    exact hk.led hr hp hstep hsole (fun _ => hord) hled
  | @stop p htask _ hsole hled =>
    rw [htask] at hord
    have hstep : advanceTask e c.site r.task =
        (controlled .stopping (e.advanceStop c.site p).1, (e.advanceStop c.site p).2) :=
      htask ▸ advanceTask_stopping e c.site p
    rw [show taskOrders e c.site r.task = e.stopOrders c.site p by rw [htask]; rfl]
    exact hk.led hr hp hstep hsole (fun _ => hord) hled

end Cluster

end Resumption
