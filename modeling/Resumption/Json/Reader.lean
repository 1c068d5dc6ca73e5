import Resumption.Json
import Resumption.Text.Digits

/-!
# Reading JSON text

A strict reader of the grammar: white space is allowed around values and nothing else, a string
holds no bare control character, a number has no leading zero and at least one digit on each side
of its point.

Three things follow the grammar and are unreadable all the same: a string with half of a surrogate
pair, and with it an object that has such a name; a number that is too large for a binary floating
point number of 64 bits; and an array or object that stands more than 127 deep. `Json.skim?` leaves
them in their places, so that a reader of a record can pass over them. `Json.read?` refuses a text
that has any.

The recursion is on a bound for the nesting, and inside one array or object on a bound for the
items still to come; the remaining text supplies both.
-/

namespace Resumption.Json

open Resumption.Text

/-- What a reader gives: the value and the text after it. -/
abbrev Read (α : Type) := Option (α × List Char)

/-- The four characters of JSON white space. -/
def isSpace (c : Char) : Bool := c == ' ' || c == '\t' || c == '\n' || c == '\r'

def skipSpace (cs : List Char) : List Char := cs.dropWhile isSpace

/-- Drops the literal `lit` from the front of the text. -/
def literal? : (lit : List Char) → List Char → Option (List Char)
  | [], cs => some cs
  | _ :: _, [] => none
  | l :: ls, c :: cs => if l == c then literal? ls cs else none

/-- Reads the four hexadecimal digits of an escape. -/
def readUnit : List Char → Read Nat
  | a :: b :: c :: d :: rest => (hexDigits? [a, b, c, d]).map fun ds => (ofDigits 16 ds, rest)
  | _ => none

def ofSurrogates (high low : Nat) : Char :=
  Char.ofNat (0x10000 + (high - 0xD800) * 0x400 + (low - 0xDC00))

/-- Reads what follows the `u` of an escape: one unit, or a pair of surrogates. Half of a pair is no
character. -/
def readUnicode (cs : List Char) : Read (Option Char) :=
  match readUnit cs with
  | none => none
  | some (u, rest) =>
    if 0xD800 ≤ u ∧ u < 0xDC00 then
      match rest with
      | '\\' :: 'u' :: more =>
        match readUnit more with
        | some (v, after) =>
          if 0xDC00 ≤ v ∧ v < 0xE000 then some (some (ofSurrogates u v), after)
          else some (none, rest)
        | none => none
      | _ => some (none, rest)
    else if 0xDC00 ≤ u ∧ u < 0xE000 then some (none, rest)
    else some (some (Char.ofNat u), rest)

/-- Reads what follows the backslash of an escape. -/
def readEscape : List Char → Read (Option Char)
  | '"' :: rest => some (some '"', rest)
  | '\\' :: rest => some (some '\\', rest)
  | '/' :: rest => some (some '/', rest)
  | 'b' :: rest => some (some (Char.ofNat 8), rest)
  | 'f' :: rest => some (some (Char.ofNat 12), rest)
  | 'n' :: rest => some (some '\n', rest)
  | 'r' :: rest => some (some '\r', rest)
  | 't' :: rest => some (some '\t', rest)
  | 'u' :: rest => readUnicode rest
  | _ => none

/-- Reads the characters of a string up to its closing quote; `most` bounds their number. A string
in which one is missing is none. -/
def readChars : (most : Nat) → (done : List (Option Char)) → List Char → Read (Option String)
  | 0, _, _ => none
  | _ + 1, _, [] => none
  | _ + 1, done, '"' :: rest => some ((done.reverse.mapM id).map String.ofList, rest)
  | most + 1, done, '\\' :: rest =>
    match readEscape rest with
    | some (c, rest) => readChars most (c :: done) rest
    | none => none
  | most + 1, done, c :: rest =>
    if c.toNat < 0x20 then none else readChars most (some c :: done) rest

/-- Reads a string that starts with its opening quote. -/
def readString : List Char → Read (Option String)
  | '"' :: rest => readChars (rest.length + 1) [] rest
  | _ => none

/-- Reads a run of digits with no leading zero, unless it is the digit zero alone. -/
def readNatural (cs : List Char) : Read (List Nat) :=
  match cs with
  | '0' :: rest => some ([0], rest)
  | _ =>
    match takeDigits cs.length cs with
    | ([], _) => none
    | (ds, rest) => some (ds, rest)

/-- Reads the digits after a point, if there is a point. -/
def readFraction : List Char → Read (Option (List Nat))
  | '.' :: rest =>
    match takeDigits rest.length rest with
    | ([], _) => none
    | (ds, rest) => some (some ds, rest)
  | cs => some (none, cs)

def readExponent : List Char → Read (Option Int)
  | c :: rest =>
    if c == 'e' || c == 'E' then
      let (negative, rest) :=
        match rest with
        | '+' :: rest => (false, rest)
        | '-' :: rest => (true, rest)
        | rest => (false, rest)
      match number? rest.length rest with
      | none => none
      | some (n, rest) => some (some (if negative then -(n : Int) else n), rest)
    else some (none, c :: rest)
  | [] => some (none, [])

/-- The number written with this sign, these digits and this exponent. It is whole between
`-2 ^ 63` and `2 ^ 64`. -/
def numberOf (negative : Bool) (digits : List Nat) (fraction : Option (List Nat))
    (exponent : Option Int) : JsonNumber :=
  let ds := ofDigits 10 (digits ++ fraction.getD [])
  let value : Int := if negative then -(ds : Int) else ds
  let plain := fraction.isNone && exponent.isNone && !(negative && ds == 0)
  if plain && decide (-9223372036854775808 ≤ value ∧ value < 18446744073709551616) then .whole value
  else .decimal negative ds (exponent.getD 0 - (fraction.getD []).length)

/-- The least whole number that is closer to `2 ^ 1024` than to any smaller number of the format
with a fraction of 53 bits: such a number is too large. -/
def tooLarge : Nat := (1 <<< 54 - 1) <<< 970

/-- The number is not too large. Where the digits and the exponent leave no doubt, nothing is
multiplied out. -/
def inRange : JsonNumber → Bool
  | .whole _ => true
  | .decimal _ 0 _ => true
  | .decimal _ digits exponent =>
    if 310 ≤ exponent then false
    else if 0 ≤ exponent then decide (digits * pow10 exponent.toNat < tooLarge)
    else if width digits ≤ (-exponent).toNat then true
    else decide (digits < tooLarge * pow10 (-exponent).toNat)
where
  /-- Ten to a power. -/
  pow10 (n : Nat) : Nat := ofDigits 10 (1 :: List.replicate n 0)

def readNumber (cs : List Char) : Read JsonNumber :=
  let (negative, cs) :=
    match cs with
    | '-' :: rest => (true, rest)
    | cs => (false, cs)
  match readNatural cs with
  | none => none
  | some (digits, rest) =>
    match readFraction rest with
    | none => none
    | some (fraction, rest) =>
      match readExponent rest with
      | none => none
      | some (exponent, rest) => some (numberOf negative digits fraction exponent, rest)

/-- Reads a member: its name, a colon and its value. -/
def readMember (value : List Char → Read Json) (cs : List Char) : Read (Option (String × Json)) :=
  match readString (skipSpace cs) with
  | none => none
  | some (name, rest) =>
    match skipSpace rest with
    | ':' :: rest => (value rest).map fun (v, rest) => (name.map fun name => (name, v), rest)
    | _ => none

/-- Reads items separated by commas up to the closing bracket; at most `most` of them. -/
def readItems (item : List Char → Read α) (closing : Char) :
    (most : Nat) → (done : List α) → List Char → Read (List α)
  | 0, _, _ => none
  | most + 1, done, cs =>
    match item cs with
    | none => none
    | some (x, rest) =>
      match skipSpace rest with
      | [] => none
      | c :: rest =>
        if c == closing then some ((x :: done).reverse, rest)
        else if c == ',' then readItems item closing most (x :: done) rest
        else none

/-- Reads what follows an opening bracket: nothing, or items separated by commas. -/
def readSequence (item : List Char → Read α) (closing : Char) (cs : List Char) : Read (List α) :=
  match skipSpace cs with
  | [] => none
  | c :: rest =>
    if c == closing then some ([], rest) else readItems item closing (cs.length + 1) [] (c :: rest)

def ofMembers (ms : List (Option (String × Json))) : Json :=
  match ms.mapM id with
  | some ms => .object ms
  | none => .unreadable

/-- Reads a value and the white space before it. Below `room` levels of nesting it is unreadable;
`most` bounds the levels in the text. -/
def readValue : (most room : Nat) → List Char → Read Json
  | most, room, cs =>
    match skipSpace cs with
    | [] => none
    | 'n' :: rest => (literal? ['u', 'l', 'l'] rest).map fun rest => (.null, rest)
    | 't' :: rest => (literal? ['r', 'u', 'e'] rest).map fun rest => (.bool true, rest)
    | 'f' :: rest => (literal? ['a', 'l', 's', 'e'] rest).map fun rest => (.bool false, rest)
    | '"' :: rest =>
      (readString ('"' :: rest)).map fun (s, rest) => ((s.map .string).getD .unreadable, rest)
    | '[' :: rest =>
      match most with
      | 0 => none
      | most + 1 =>
        (readSequence (readValue most (room - 1)) ']' rest).map fun (xs, rest) =>
          (if room = 0 then .unreadable else .array xs, rest)
    | '\x7b' :: rest =>
      match most with
      | 0 => none
      | most + 1 =>
        (readSequence (readMember (readValue most (room - 1))) '\x7d' rest).map fun (ms, rest) =>
          (if room = 0 then .unreadable else ofMembers ms, rest)
    | c :: rest =>
      (readNumber (c :: rest)).map fun (n, rest) =>
        (if inRange n then .number n else .unreadable, rest)

/-- Reads a text that holds one value and white space around it. What stands more than `room` deep
is unreadable. -/
def skimWithin? (room : Nat) (text : String) : Option Json :=
  let cs := text.toList
  match readValue cs.length room cs with
  | some (j, rest) => if (skipSpace rest).isEmpty then some j else none
  | none => none

/-- How deep arrays and objects may nest. -/
def maxDepth : Nat := 127

/-- Reads a text that holds one value and white space around it, parts of which may be
unreadable. -/
def skim? (text : String) : Option Json := skimWithin? maxDepth text

/-- Reads a text that holds one readable value and white space around it. -/
def read? (text : String) : Option Json := (skim? text).filter readable

end Resumption.Json
