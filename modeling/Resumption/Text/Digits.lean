/-!
# Runs of digits

Reading and writing unsigned numbers as runs of ASCII digits, decimal and hexadecimal. The readers
take the longest run they may and give back the rest, so that a grammar is a chain of them.
-/

namespace Resumption.Text

def decimalValue? (c : Char) : Option Nat :=
  if '0' ≤ c ∧ c ≤ '9' then some (c.toNat - '0'.toNat) else none

/-- The value of an ASCII hexadecimal digit, in either case. -/
def hexValue? (c : Char) : Option Nat :=
  if '0' ≤ c ∧ c ≤ '9' then some (c.toNat - '0'.toNat)
  else if 'a' ≤ c ∧ c ≤ 'f' then some (c.toNat - 'a'.toNat + 10)
  else if 'A' ≤ c ∧ c ≤ 'F' then some (c.toNat - 'A'.toNat + 10)
  else none

/-- The number that a list of digit values denotes, most significant digit first. -/
def ofDigits (base : Nat) (ds : List Nat) : Nat := ds.foldl (fun n d => n * base + d) 0

/-- Splits off the leading decimal digits, at most `most` of them. -/
def takeDigits (most : Nat) : List Char → List Nat × List Char
  | [] => ([], [])
  | c :: cs =>
    match most, decimalValue? c with
    | most + 1, some d => let (ds, rest) := takeDigits most cs; (d :: ds, rest)
    | _, _ => ([], c :: cs)

/-- Reads a decimal number of one to `most` digits. -/
def number? (most : Nat) (cs : List Char) : Option (Nat × List Char) :=
  match takeDigits most cs with
  | ([], _) => none
  | (ds, rest) => some (ofDigits 10 ds, rest)

/-- Reads a whole text as a decimal number: one digit or more and nothing else. -/
def decimal? (cs : List Char) : Option Nat :=
  match number? cs.length cs with
  | some (n, []) => some n
  | _ => none

def hexDigits? (cs : List Char) : Option (List Nat) := cs.mapM hexValue?

/-- The lower-case hexadecimal digit of a value below 16. -/
def hexDigit (d : Nat) : Char :=
  if d < 10 then Char.ofNat ('0'.toNat + d) else Char.ofNat ('a'.toNat + (d - 10))

/-- The `count` low hexadecimal digits of `n`, most significant first. -/
def hexPadded : (count : Nat) → (n : Nat) → List Char
  | 0, _ => []
  | count + 1, n => hexPadded count (n / 16) ++ [hexDigit (n % 16)]

/-- The `width` low decimal digits of `n`, most significant first. -/
def padded : (width : Nat) → (n : Nat) → List Char
  | 0, _ => []
  | width + 1, n => padded width (n / 10) ++ [Char.ofNat ('0'.toNat + n % 10)]

/-- The number of decimal digits of `n`, at least one. -/
def width (n : Nat) : Nat := if n < 10 then 1 else width (n / 10) + 1

/-- The decimal digits of `n`, with zeros in front up to `least` digits. -/
def decimal (least n : Nat) : List Char := padded (max least (width n)) n

end Resumption.Text
