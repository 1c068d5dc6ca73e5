import Resumption.Database.Transaction

/-!
# The site

What all engines share: the database, the time that has passed, the ids that were made up, and the
notes that runners leave, which are what they saw when they began, how often an instance was
counted, and how many are pausing.
-/

namespace Resumption

/-- What a runner saw when it began. -/
structure Sighting where
  workflow : Workflow
  engine : String

/-- How many runs are pausing, were pausing at most, and have paused to the end. -/
structure Pauses where
  active : Nat
  peak : Nat
  done : Nat
  deriving DecidableEq, Repr, Inhabited

/-- What all engines share. Time is in nanoseconds; ids and sightings are kept latest first. -/
structure Site where
  time : Nat
  db : Database
  issued : List Uuid
  sightings : List Sighting
  visits : List Uuid
  pauses : Pauses

namespace Site

def create (db : Database) : Site := ⟨0, db, [], [], [], ⟨0, 0, 0⟩⟩

def unlocked (x : Site) : Bool := x.db.held.isNone

def tell (x : Site) (e : Event) : Site := { x with db := x.db.tell e }

/-- The milliseconds of the wall clock since 1970. -/
def wallMillis (x : Site) : Nat := (x.db.clock.sinceEpoch / 1000000).toNat

def issue (x : Site) : Uuid × Site :=
  let id := Uuid.timeOrdered x.wallMillis (x.issued.length + 1)
  (id, { x with issued := id :: x.issued })

/-- Counts a visit of an instance and gives the number of earlier ones. -/
def visit (x : Site) (id : Uuid) : Nat × Site :=
  (x.visits.count id, { x with visits := id :: x.visits })

/-- A run begins to pause. -/
def pause (x : Site) : Site :=
  { x with pauses :=
      { x.pauses with
        active := x.pauses.active + 1
        peak := max x.pauses.peak (x.pauses.active + 1) } }

/-- A run has paused to the end. -/
def resume (x : Site) : Site :=
  { x with pauses := { x.pauses with active := x.pauses.active - 1, done := x.pauses.done + 1 } }

end Site

end Resumption
