import Resumption.Database.Operation

/-!
# Runs of a store

Every operation comes down to a list of elementary actions on the store
(`Store.Request.actions`): a batch of instances is stored one by one, responses are delivered one by
one, commands are executed one by one. The actions are done in order, up to the first that fails;
what was done before it stays, and it is the transaction around the operation that takes it back or
not.

* `Store.act` is one action, `Store.serve` one operation and `Store.serveAll` a run of operations
  that nobody takes back, on behalf of any engines and at any clock readings.
* `Store.Performs` says that actions went well one after the other, and where they led.
* `Store.trail` lists the turns of a run: each action that was done, with the store before it.
* `Store.Reachable` says that a store comes about from the empty one by actions. Whatever
  transactions and faults there are, the stores of a database are of this kind
  (`Database.after_reachable` in `Proofs.Database.Session`).

**Induction.** What holds of the empty store and is kept by each action holds of every reachable
store (`Reachable.holds`); what may look back at the turns so far holds after every run
(`Inductive.run`).
-/

namespace Resumption

/-- One elementary thing that is done to a store. -/
inductive Action where
  | insert (w : Workflow)
  | claim (engine pool : String) (most : Nat)
  | deliver (r : Response)
  | suspend (c : Callback) (payload : Json)
  | finish (remove : Bool) (id : Uuid)
  | fail (id : Uuid) (cause : String)
  | restart (id : Uuid)
  | restartAll
  | sweep (now : Instant) (most : Nat)
  | promote (now : Instant) (most : Nat)
  | recover (engine : String)
  | load (id : Uuid)
  deriving Repr, Inhabited

/-- The callback that an action suspends an instance on. -/
def Action.callback? : Action → Option Callback
  | .suspend c _ => some c
  | _ => none

def Command.action (remove : Bool) : Command → Action
  | .suspend c payload => .suspend c payload
  | .notify r => .deliver r
  | .finish id => .finish remove id
  | .fail id cause => .fail id cause

/-- An operation, on whose behalf it runs and what the clock says. -/
structure Store.Request where
  access : Access
  now : Instant
  operation : Operation

/-- What an operation comes down to. -/
def Store.Request.actions (q : Store.Request) : List Action :=
  match q.operation with
  | .insert ws => ws.map .insert
  | .claim pool most => [.claim q.access.engine pool most]
  | .notify rs => rs.map .deliver
  | .suspend c payload => [.suspend c payload]
  | .finish id => [.finish q.access.removeFinished id]
  | .fail id cause => [.fail id cause]
  | .restart id => [.restart id]
  | .restartAll => [.restartAll]
  | .sweep most => [.sweep q.now most]
  | .promote most => [.promote q.now most]
  | .recover => [.recover q.access.engine]
  | .load id => [.load id]
  | .execute cs => cs.map (Command.action q.access.removeFinished)

namespace Store

/-- An answer that says no more than that it went well. -/
def plainly (p : Except StoreError Unit × Store) : Except StoreError Outcome × Store :=
  (p.1.map fun _ => .done, p.2)

def act (s : Store) : Action → Except StoreError Outcome × Store
  | .insert w => plainly (s.insert [w])
  | .claim engine pool most =>
    (.ok (.claimed (s.claim engine pool most).1), (s.claim engine pool most).2)
  | .deliver r => (.ok .done, s.deliver r)
  | .suspend c payload => plainly (s.suspend c payload)
  | .finish remove id => plainly (s.finish remove id)
  | .fail id cause => plainly (s.fail id cause)
  | .restart id => plainly (s.restart id)
  | .restartAll => (.ok (.counted s.restartAll.1), s.restartAll.2)
  | .sweep now most => (.ok (.counted (s.sweep now most).1), (s.sweep now most).2)
  | .promote now most => (.ok (.counted (s.promote now most).1), (s.promote now most).2)
  | .recover engine => (.ok (.counted (s.recover engine).1), (s.recover engine).2)
  | .load id => (.ok (.loaded (s.load id)), s)

/-- Does actions in order, up to the first that fails, and answers as the last one did. -/
def actAll (s : Store) (last : Outcome) : List Action → Except StoreError Outcome × Store
  | [] => (.ok last, s)
  | a :: as =>
    match s.act a with
    | (.ok o, s) => s.actAll o as
    | (.error e, s) => (.error e, s)

def serve (s : Store) (q : Store.Request) : Except StoreError Outcome × Store :=
  s.actAll .done q.actions

/-- Does what is asked, one operation after the other. -/
def serveAll (s : Store) (qs : List Store.Request) : Store := qs.foldl (fun s q => (s.serve q).2) s

end Store

/-- An action that was done, with the store before it. -/
structure Turn where
  before : Store
  action : Action

def Turn.after (t : Turn) : Store := (t.before.act t.action).2

namespace Store

/-- The turns of actions: all of them, or those up to the first that fails. -/
def turns (s : Store) : List Action → List Turn
  | [] => []
  | a :: as =>
    ⟨s, a⟩ ::
      match s.act a with
      | (.ok _, s) => s.turns as
      | (.error _, _) => []

def trail (s : Store) : List Store.Request → List Turn
  | [] => []
  | q :: qs => s.turns q.actions ++ (s.serve q).2.trail qs

/-- The stores that come about from the empty one. -/
inductive Reachable : Store → Prop where
  | empty : Reachable .empty
  | act {s : Store} (a : Action) : Reachable s → Reachable (s.act a).2

/-- What holds of the empty store and is kept by each action holds of every reachable store. -/
theorem Reachable.holds {P : Store → Prop} (start : P .empty)
    (step : ∀ s a, P s → P (s.act a).2) {s : Store} (h : Reachable s) : P s := by
  induction h with
  | empty => exact start
  | act a _ ih => exact step _ a ih

theorem actAll_holds {P : Store → Prop} (as : List Action)
    (step : ∀ s, ∀ a ∈ as, P s → P (s.act a).2) :
    ∀ (s : Store) (last : Outcome), P s → P (s.actAll last as).2 := by
  induction as with
  | nil => intro s last h; exact h
  | cons a as ih =>
    intro s last h
    have h' := step s a List.mem_cons_self h
    rw [actAll]
    split
    · rename_i o s' he
      rw [he] at h'
      exact ih (fun s a ha => step s a (List.mem_cons_of_mem _ ha)) s' o h'
    · rename_i e s' he
      rw [he] at h'
      exact h'

/-- The store after actions, whether or not they go well. -/
def afterAll (s : Store) (as : List Action) : Store := as.foldl (fun s a => (s.act a).2) s

theorem afterAll_append (s : Store) (as bs : List Action) :
    s.afterAll (as ++ bs) = (s.afterAll as).afterAll bs := List.foldl_append

/-- Actions go well one after the other and lead from one store to another. -/
inductive Performs : Store → List Action → Store → Prop where
  | nil (s : Store) : Performs s [] s
  | cons {s s₁ s₂ : Store} {a : Action} {o : Outcome} {as : List Action}
      (ha : s.act a = (.ok o, s₁)) (hs : Performs s₁ as s₂) : Performs s (a :: as) s₂

theorem Performs.append {s s₁ s₂ : Store} {as bs : List Action} (h : Performs s as s₁)
    (h' : Performs s₁ bs s₂) : Performs s (as ++ bs) s₂ := by
  induction h with
  | nil s => exact h'
  | cons ha _ ih => exact .cons ha (ih h')

theorem performs_one {s s₁ : Store} {a : Action} {o : Outcome} (h : s.act a = (.ok o, s₁)) :
    Performs s [a] s₁ := .cons h (.nil s₁)

theorem performs_of_actAll {as : List Action} :
    ∀ {s s₁ : Store} {l o : Outcome}, s.actAll l as = (.ok o, s₁) → Performs s as s₁ := by
  induction as with
  | nil => intro s s₁ l o h; cases h; exact .nil s
  | cons a as ih =>
    intro s s₁ l o h
    rw [actAll] at h
    split at h
    · rename_i ha
      exact .cons ha (ih h)
    · cases h

theorem Performs.afterAll {s s₁ : Store} {as : List Action} (h : Performs s as s₁) :
    s₁ = s.afterAll as := by
  induction h with
  | nil s => rfl
  | cons ha _ ih => rw [ih, Store.afterAll, Store.afterAll, List.foldl_cons, ha]

theorem Performs.holds {P : Store → Prop} {s s₁ : Store} {as : List Action}
    (h : Performs s as s₁) (step : ∀ a ∈ as, ∀ s, P s → P (s.act a).2) (hs : P s) : P s₁ := by
  induction h with
  | nil s => exact hs
  | @cons s _ _ a _ as ha _ ih =>
    have := step a List.mem_cons_self s hs
    rw [ha] at this
    exact ih (fun a ha => step a (List.mem_cons_of_mem _ ha)) this

/-! ## Induction along a run -/

/-- `J` holds of no turns and the empty store, and each further turn keeps it. -/
structure Inductive (J : List Turn → Store → Prop) : Prop where
  start : J [] .empty
  step : ∀ ts s a, J ts s → J (ts ++ [⟨s, a⟩]) (s.act a).2

theorem Inductive.turns {J : List Turn → Store → Prop} (h : Inductive J) (as : List Action) :
    ∀ (ts : List Turn) (s : Store) (last : Outcome), J ts s →
      J (ts ++ s.turns as) (s.actAll last as).2 := by
  induction as with
  | nil => intro ts s last hJ; simpa [Store.turns, actAll] using hJ
  | cons a as ih =>
    intro ts s last hJ
    have hJ' := h.step ts s a hJ
    rw [Store.turns, actAll]
    split
    · rename_i o s' he
      rw [he] at hJ'
      simpa using ih _ s' o hJ'
    · rename_i e s' he
      rw [he] at hJ'
      exact hJ'

theorem Inductive.trail {J : List Turn → Store → Prop} (h : Inductive J) (qs : List Store.Request) :
    ∀ (ts : List Turn) (s : Store), J ts s → J (ts ++ s.trail qs) (s.serveAll qs) := by
  induction qs with
  | nil => intro ts s hJ; simpa [Store.trail, serveAll] using hJ
  | cons q qs ih =>
    intro ts s hJ
    have hJ' := ih _ _ (h.turns q.actions ts s .done hJ)
    rw [List.append_assoc] at hJ'
    exact hJ'

theorem Inductive.run {J : List Turn → Store → Prop} (h : Inductive J) (qs : List Store.Request) :
    J (empty.trail qs) (empty.serveAll qs) := by
  simpa using h.trail qs [] .empty h.start

end Store

end Resumption
