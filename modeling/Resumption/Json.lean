/-!
# JSON values

The value type that payloads, responses and written records share. An object is the list of its
members as written, so that a reader can tell a name that occurs twice; `Json.WellKeyed` says that
none does, and `Json.normalize` keeps the last member of each name.

A number is a whole number exactly when it was written without a fraction, an exponent or a
negative zero and fits in 64 bits, signed or unsigned. Any other number keeps its sign and its
decimal digits.

A text can follow the grammar and still hold something that denotes no value, such as a number
beyond every bound. Who has no use for it may skip it, so it has a place among the values: it is
`Json.unreadable`. Nobody can read it, and what is written never holds it.
-/

namespace Resumption

/-- A JSON number: a whole number of at most 64 bits, or a decimal, with its sign, of the magnitude
`digits * 10 ^ exponent`. -/
inductive JsonNumber where
  | whole (value : Int)
  | decimal (negative : Bool) (digits : Nat) (exponent : Int)
  deriving DecidableEq, Repr, Inhabited

/-- A JSON value. Members of an object keep their order and may repeat a name. -/
inductive Json where
  | null
  | bool (value : Bool)
  | number (value : JsonNumber)
  | string (value : String)
  | array (items : List Json)
  | object (members : List (String × Json))
  | unreadable
  deriving Repr, Inhabited

namespace Json

mutual

/-- Structural equality of values, member order included. -/
def same : Json → Json → Bool
  | .null, .null => true
  | .bool a, .bool b => a == b
  | .number a, .number b => a == b
  | .string a, .string b => a == b
  | .array a, .array b => sameItems a b
  | .object a, .object b => sameMembers a b
  | .unreadable, .unreadable => true
  | _, _ => false

def sameItems : List Json → List Json → Bool
  | [], [] => true
  | a :: as, b :: bs => same a b && sameItems as bs
  | _, _ => false

def sameMembers : List (String × Json) → List (String × Json) → Bool
  | [], [] => true
  | (k, a) :: as, (l, b) :: bs => k == l && same a b && sameMembers as bs
  | _, _ => false

end

mutual

theorem same_iff : ∀ a b : Json, same a b = true ↔ a = b
  | .null, b => by cases b <;> simp [same]
  | .bool a, b => by cases b <;> simp [same]
  | .number a, b => by cases b <;> simp [same]
  | .string a, b => by cases b <;> simp [same]
  | .array a, b => by cases b <;> simp [same, sameItems_iff]
  | .object a, b => by cases b <;> simp [same, sameMembers_iff]
  | .unreadable, b => by cases b <;> simp [same]

theorem sameItems_iff : ∀ a b : List Json, sameItems a b = true ↔ a = b
  | [], b => by cases b <;> simp [sameItems]
  | a :: as, b => by cases b <;> simp [sameItems, same_iff, sameItems_iff]

theorem sameMembers_iff : ∀ a b : List (String × Json), sameMembers a b = true ↔ a = b
  | [], b => by cases b <;> simp [sameMembers]
  | (k, a) :: as, b => by
    cases b with
    | nil => simp [sameMembers]
    | cons m bs => obtain ⟨l, c⟩ := m; simp [sameMembers, same_iff, sameMembers_iff, and_assoc]

end

instance : DecidableEq Json := fun a b => decidable_of_iff _ (same_iff a b)

/-- The whole number `n`. -/
def int (n : Int) : Json := .number (.whole n)

def nat (n : Nat) : Json := .int n

def ofOption (write : α → Json) : Option α → Json
  | none => .null
  | some a => write a

def ofList (write : α → Json) (as : List α) : Json := .array (as.map write)

/-- The last member called `name`, if the value is an object that has one. -/
def get? (j : Json) (name : String) : Option Json :=
  match j with
  | .object ms => (ms.reverse.find? (fun m => m.1 == name)).map (·.2)
  | _ => none

mutual

/-- Every object keeps only the last member of each name, at every depth. -/
def normalize : Json → Json
  | .array xs => .array (normalizeItems xs)
  | .object ms => .object (normalizeMembers ms)
  | j => j

def normalizeItems : List Json → List Json
  | [] => []
  | x :: xs => normalize x :: normalizeItems xs

/-- Drops a member when a later one has its name, and normalizes the ones kept. -/
def normalizeMembers : List (String × Json) → List (String × Json)
  | [] => []
  | (k, v) :: ms =>
    if ms.any (fun m => m.1 == k) then normalizeMembers ms
    else (k, normalize v) :: normalizeMembers ms

end

mutual

/-- Some text of the value, at any depth and names of members included, satisfies `p`. -/
def anyText (p : String → Bool) : Json → Bool
  | .string s => p s
  | .array xs => anyTextItems p xs
  | .object ms => anyTextMembers p ms
  | _ => false

/-- Some text of some value of the list satisfies `p`. -/
def anyTextItems (p : String → Bool) : List Json → Bool
  | [] => false
  | x :: xs => anyText p x || anyTextItems p xs

/-- Some name of the members or some text of their values satisfies `p`. -/
def anyTextMembers (p : String → Bool) : List (String × Json) → Bool
  | [] => false
  | (k, v) :: ms => p k || anyText p v || anyTextMembers p ms

end

mutual

/-- Nothing in the value, at any depth, is unreadable. -/
def readable : Json → Bool
  | .array xs => readableItems xs
  | .object ms => readableMembers ms
  | .unreadable => false
  | _ => true

def readableItems : List Json → Bool
  | [] => true
  | x :: xs => readable x && readableItems xs

def readableMembers : List (String × Json) → Bool
  | [] => true
  | (_, v) :: ms => readable v && readableMembers ms

end

mutual

/-- No object of the value, at any depth, has two members of one name. -/
def wellKeyed : Json → Bool
  | .array xs => wellKeyedItems xs
  | .object ms => wellKeyedMembers ms
  | _ => true

def wellKeyedItems : List Json → Bool
  | [] => true
  | x :: xs => wellKeyed x && wellKeyedItems xs

/-- The names are distinct and every member's value is well keyed. -/
def wellKeyedMembers : List (String × Json) → Bool
  | [] => true
  | (k, v) :: ms => !ms.any (fun m => m.1 == k) && wellKeyed v && wellKeyedMembers ms

end

/-- No object of the value, at any depth, has two members of one name. -/
def WellKeyed (j : Json) : Prop := j.wellKeyed = true

instance (j : Json) : Decidable j.WellKeyed := inferInstanceAs (Decidable (_ = true))

/-- Sets member `name` of an object, keeping its place when it is already there. -/
def set (j : Json) (name : String) (value : Json) : Json :=
  match j with
  | .object ms =>
    if ms.any (fun m => m.1 == name) then
      .object (ms.map fun m => if m.1 == name then (name, value) else m)
    else .object (ms ++ [(name, value)])
  | j => j

/-- The whole number that the value is, if it is one. -/
def int? : Json → Option Int
  | .number (.whole n) => some n
  | _ => none

def string? : Json → Option String
  | .string s => some s
  | _ => none

def bool? : Json → Option Bool
  | .bool b => some b
  | _ => none

def array? : Json → Option (List Json)
  | .array xs => some xs
  | _ => none

def object? : Json → Option (List (String × Json))
  | .object ms => some ms
  | _ => none

def size? (j : Json) : Option Nat :=
  match j.int? with
  | some (.ofNat n) => if n < 18446744073709551616 then some n else none
  | _ => none

end Json

end Resumption
