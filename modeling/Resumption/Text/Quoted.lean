import Resumption.Text.Invisible

/-!
# Quoted texts

A text in double quotes, as the descriptions of registries and pools show names. The quote, the
backslash and the usual controls have a letter of their own; any other character that is not shown
as it is is spelled by its number.
-/

namespace Resumption.Text

/-- The lower-case hexadecimal digits of a number, without zeros in front. -/
def hex (n : Nat) : List Char := Nat.toDigits 16 n

def spelled (c : Char) : List Char :=
  if c == '"' then ['\\', '"']
  else if c == '\\' then ['\\', '\\']
  else if c == '\n' then ['\\', 'n']
  else if c == '\r' then ['\\', 'r']
  else if c == '\t' then ['\\', 't']
  else if c.toNat == 0 then ['\\', '0']
  else if isInvisible c then ['\\', 'u', '\x7b'] ++ hex c.toNat ++ ['\x7d']
  else [c]

def quoted (s : String) : String := "\"" ++ String.ofList (s.toList.flatMap spelled) ++ "\""

def quotedList (names : List String) : String :=
  "[" ++ String.intercalate ", " (names.map quoted) ++ "]"

/-- A named thing with one field that lists names. -/
def described (thing field : String) (names : List String) : String :=
  thing ++ " \x7b " ++ field ++ ": " ++ quotedList names ++ " \x7d"

end Resumption.Text
