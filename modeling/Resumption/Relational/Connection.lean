import Resumption.Database.Journal
import Resumption.Relational.Statement

/-!
# Transactions of a relational backend

A connection executes statements one after the other inside a transaction. The first statement
that the server refuses aborts the transaction: every later one is refused without a look at it,
and a commit puts the tables back just as a rollback does. An error that no statement caused
leaves the transaction as it is. All statements of a transaction see the time when it began.
Every failure is noted with what was being done.
-/

namespace Resumption.Relational

/-- A server and the connection to it. `held` has the tables from before the open transaction. -/
structure Connection where
  tables : Tables
  held : Option Tables
  /-- When the open transaction began. -/
  started : Instant
  /-- A statement of the open transaction was refused. -/
  aborted : Bool
  /-- No new transaction can begin. -/
  closed : Bool
  clock : Instant
  /-- What the program told, latest first. -/
  journal : List Event
  deriving Repr

namespace Connection

def create (clock : Instant) : Connection := ⟨.empty, none, clock, false, false, clock, []⟩

instance : Inhabited Connection := ⟨create default⟩

/-- The tables as another client sees them. -/
def committed (c : Connection) : Tables := c.held.getD c.tables

end Connection

abbrev Query (α : Type) := ExceptT StoreError (StateM Connection) α

namespace Query

def on (query : Query α) (c : Connection) : Except StoreError α × Connection :=
  (ExceptT.run query).run c

/-- Fails, with a note of what was being done. -/
def refuse (doing : String) (cause : ClientError) : Query α := do
  modify fun c => { c with
    journal := .fault ("Failed to " ++ doing ++ ": " ++ cause.message) :: c.journal }
  throw cause.toStoreError

/-- Has the server execute a statement. -/
def execute (doing : String) (statement : Statement α) : Query α := do
  let c ← get
  if c.aborted then refuse doing (.server .transactionAborted)
  else
    match statement.run c.tables with
    | .ok (a, tables) =>
      set { c with tables }
      return a
    | .error cause =>
      set { c with aborted := true }
      refuse doing (.server cause)

def hold : Query Unit := do
  let c ← get
  if c.closed then refuse "begin transaction" .poolClosed
  set { c with held := some c.tables, started := c.clock, aborted := false }

/-- Ends the open transaction and puts the tables back. -/
def rollback : Query Unit :=
  modify fun c => { c with tables := c.held.getD c.tables, held := none, aborted := false }

/-- Ends the open transaction. Nothing is kept of one that was aborted. -/
def commit : Query Unit := do
  if (← get).aborted then rollback
  else modify fun c => { c with held := none }

def transact (query : Query α) : Query α := do
  hold
  let a ← tryCatch query fun e => do
    rollback
    throw e
  commit
  return a

/-- Runs a query in the open transaction, or else in one of its own. -/
def within (query : Query α) : Query α := do
  if (← get).held.isSome then query else transact query

def migrate : Query Unit := do
  if (← get).closed then refuse "run migrations" (.migrating .poolClosed)

end Query

end Resumption.Relational
