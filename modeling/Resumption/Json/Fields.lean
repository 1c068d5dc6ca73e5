import Resumption.Json
import Resumption.Time.Stamp
import Resumption.Uuid

/-!
# Reading records

A record is written as an object or as the array of its fields in order. In an object unknown
members are ignored, even where they are unreadable, and a known member must not occur twice; an
array must not be longer than the record. `Json.fields?` brings both into one form, after which each
field is read by its name.

A required field must be there. An optional field may be null, and may be missing from an object
but not from an array. A field with a default may be missing from both.
-/

namespace Resumption

/-- The fields of a record as they were found. -/
structure Fields where
  positional : Bool
  entries : List (String × Json)
  deriving Repr

namespace Json

/-- Finds the fields of a record with these names, in an object or in an array. -/
def fields? (names : List String) : Json → Option Fields
  | .object ms =>
    let known := ms.filter fun m => names.contains m.1
    if (known.map (·.1)).Nodup then some ⟨false, known⟩ else none
  | .array xs => if xs.length ≤ names.length then some ⟨true, names.zip xs⟩ else none
  | _ => none

end Json

namespace Fields

def value? (f : Fields) (name : String) : Option Json := f.entries.lookup name

def required (f : Fields) (name : String) (read : Json → Option α) : Option α :=
  (f.value? name).bind read

def defaulted (f : Fields) (name : String) (read : Json → Option α) (default : α) : Option α :=
  match f.value? name with
  | none => some default
  | some j => read j

/-- Reads a field that may be null and may be missing from an object. -/
def optional (f : Fields) (name : String) (read : Json → Option (Option α)) : Option (Option α) :=
  match f.value? name with
  | none => if f.positional then none else some none
  | some j => read j

end Fields

namespace Json

/-- Reads null as nothing and anything else as a value. -/
def nullable (read : Json → Option α) : Json → Option (Option α)
  | .null => some none
  | j => (read j).map some

def listOf (read : Json → Option α) : Json → Option (List α)
  | .array xs => xs.mapM read
  | _ => none

/-- Reads one of the named values of an enumeration, alone or as the name of a null member. -/
def named (ofName? : String → Option α) : Json → Option α
  | .string s => ofName? s
  | .object [(name, .null)] => ofName? name
  | _ => none

def ofWord (w : UInt64) : Json := .nat w.toNat

def word? (j : Json) : Option UInt64 := j.size?.map UInt64.ofNat

def duration? (j : Json) : Option Duration := j.size?.map Duration.ofMillis

/-- Writes a duration as whole milliseconds in one word. -/
def ofDuration (d : Duration) : Json := .nat d.wireMillis

def instant? (j : Json) : Option Instant := j.string?.bind Instant.ofStamp?

def ofInstant (t : Instant) : Json := .string t.stamp

def uuid? (j : Json) : Option Uuid := j.string?.bind Uuid.ofText?

def ofUuid (u : Uuid) : Json := .string u.text

/-- Reads any readable value; of members with one name the last counts. -/
def any? (j : Json) : Option Json := if j.readable then some j.normalize else none

def ofInt32 (n : Int32) : Json := .int n.toInt

/-- Reads a whole number that fits in 32 signed bits. -/
def int32? (j : Json) : Option Int32 :=
  match j.int? with
  | some n => if -2147483648 ≤ n ∧ n < 2147483648 then some (Int32.ofInt n) else none
  | none => none

end Json

end Resumption
