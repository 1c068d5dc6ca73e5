import Resumption.Database.Fault
import Resumption.Database.Journal
import Resumption.Store.Basic

/-!
# Transactions

A database is a store reached through a connection that can fail, with the wall clock that its
statements read. `Work` is what runs inside a transaction: it changes the store as it goes, and
when it fails it leaves the store as far as it got.

`transact` wraps work in a transaction of its own. Whatever the faults, the store afterwards is
the one from before or the one that the whole work made; a commit that fails after it took effect
is the only way to an error with the work done. Work that fails is rolled back and its own error
returned; a rollback that fails is only noted, for the store is restored all the same.

A caller can also hold a transaction open over several calls (`hold`). It ends by `commitHeld` or
`rollbackHeld`, or by `dropHeld` when the caller forgets it.
-/

namespace Resumption

/-- A store behind its connection. `held` is the store from before the transaction that a caller
holds open; events are kept latest first. -/
structure Database where
  store : Store
  held : Option Store
  faults : List Fault
  clock : Instant
  journal : List Event
  deriving Repr

namespace Database

def create (clock : Instant) : Database := ⟨.empty, none, [], clock, []⟩

instance : Inhabited Database := ⟨create default⟩

def tell (d : Database) (e : Event) : Database := { d with journal := e :: d.journal }

def tellAll (d : Database) (es : List Event) : Database := es.foldl tell d

end Database

/-- How a call fails. -/
inductive Failure where
  | refused (cause : StoreError)
  | crashed (message : String)
  deriving DecidableEq, Repr, Inhabited

abbrev Work (α : Type) := ExceptT Failure (StateM Database) α

namespace Work

def on (work : Work α) (d : Database) : Except Failure α × Database := (ExceptT.run work).run d

/-- Meets the faults that concern a call. -/
def meet (method : Method) (after : Bool) : Work Unit := do
  let d ← get
  let (blow, faults) := Fault.meet method after d.faults
  set { d with faults }
  match blow with
  | none => return ()
  | some (.refuse reason) => throw (.refused (.database reason))
  | some (.crash message) => throw (.crashed message)

def tell (e : Event) : Work Unit := modify fun d => d.tell e

/-- Runs an operation on the store; what a failed operation did stays. -/
def onStore (operation : Store → Except StoreError α × Store) : Work α := do
  let d ← get
  let (result, store) := operation d.store
  set { d with store }
  match result with
  | .ok a => return a
  | .error e => throw (.refused e)

/-- Makes a call of a store method through the connection. -/
def call (method : Method) (operation : Store → Except StoreError α × Store) : Work α := do
  meet method false
  let a ← onStore operation
  meet method true
  return a

/-- Makes a call that the store itself never refuses. -/
def callTotal (method : Method) (operation : Store → α × Store) : Work α :=
  call method fun s =>
    let (a, s) := operation s
    (.ok a, s)

/-- Opens a transaction and gives the store to go back to. -/
def openTransaction : Work Store := do
  tell (.boundary .begin)
  meet .begin false
  meet .begin true
  return (← get).store

def restore (before : Store) : Work Unit := modify fun d => { d with store := before }

/-- Commits; a commit that fails before it takes effect puts the store back. -/
def commit (before : Store) : Work Unit := do
  tell (.boundary .commit)
  tryCatch (meet .commit false) fun e => do
    restore before
    throw e
  meet .commit true

/-- Puts the store back, whatever the connection says. -/
def rollback (before : Store) : Work Unit := do
  tell (.boundary .rollback)
  restore before
  meet .rollback false
  meet .rollback true

/-- Ends a transaction whose work failed and passes the failure on. A crash leaves no time for a
rollback. -/
def abandon (before : Store) (failure : Failure) : Work α := do
  match failure with
  | .crashed _ => restore before
  | .refused _ =>
    tryCatch (rollback before) fun
      | .refused _ => tell (.warning "rollback failed")
      | .crashed message => throw (.crashed message)
  throw failure

def hold : Work Unit := do
  let before ← openTransaction
  modify fun d => { d with held := some before }

/-- Takes the transaction that the caller holds, for ending it. -/
def release : Work Store := do
  let d ← get
  set { d with held := none }
  return d.held.getD d.store

/-- Commits the transaction that the caller holds. -/
def commitHeld : Work Unit := do commit (← release)

/-- Rolls back the transaction that the caller holds. -/
def rollbackHeld : Work Unit := do rollback (← release)

/-- Forgets the transaction that the caller holds, which puts the store back. -/
def dropHeld : Work Unit := do restore (← release)

/-- Runs work in a transaction of its own (`run`). -/
def transact (work : Work α) : Work α := do
  let before ← openTransaction
  let a ← tryCatch work (abandon before)
  commit before
  return a

/-- Runs work in the transaction that the caller holds, or else in one of its own. -/
def within (work : Work α) : Work α := do
  if (← get).held.isSome then work else transact work

end Work

end Resumption
