import Resumption.Json
import Resumption.Text.Digits

/-!
# Writing JSON text

The compact text of a value. A string escapes the quote, the backslash and the control characters;
all other characters stand for themselves. What is unreadable has no text.
-/

namespace Resumption.Json

open Resumption.Text

/-- A character as it stands inside a written string. -/
def escaped (c : Char) : List Char :=
  if c == '"' then ['\\', '"']
  else if c == '\\' then ['\\', '\\']
  else if c.toNat < 0x20 then ['\\', 'u'] ++ hexPadded 4 c.toNat
  else [c]

def quoted (s : String) : String := "\"" ++ String.ofList (s.toList.flatMap escaped) ++ "\""

/-- A number as digits, with an exponent only where it was not written whole. -/
def numeral : JsonNumber → String
  | .whole n => toString n
  | .decimal negative digits exponent =>
    (if negative then "-" else "") ++ toString digits ++ "e" ++ toString exponent

mutual

def render : Json → String
  | .null => "null"
  | .bool true => "true"
  | .bool false => "false"
  | .number n => numeral n
  | .string s => quoted s
  | .array xs => "[" ++ renderItems xs ++ "]"
  | .object ms => "\x7b" ++ renderMembers ms ++ "\x7d"
  | .unreadable => ""

/-- The texts of the items of an array, separated by commas. -/
def renderItems : List Json → String
  | [] => ""
  | [x] => render x
  | x :: xs => render x ++ "," ++ renderItems xs

/-- The texts of the members of an object, separated by commas. -/
def renderMembers : List (String × Json) → String
  | [] => ""
  | [(k, v)] => quoted k ++ ":" ++ render v
  | (k, v) :: ms => quoted k ++ ":" ++ render v ++ "," ++ renderMembers ms

end

end Resumption.Json
