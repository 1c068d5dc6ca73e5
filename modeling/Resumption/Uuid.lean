import Resumption.Text.Digits

/-!
# Identifiers of 128 bits

Instance ids. Written as 32 lower-case hexadecimal digits in groups of 8, 4, 4, 4 and 12; read in
that form, without hyphens, in braces or after `urn:uuid:`, in either case.

`Uuid.timeOrdered` builds the ids that a library makes up itself: version 7, so the milliseconds
of its making come first, and here a serial number fills the bits that are free.
-/

namespace Resumption

structure Uuid where
  bits : BitVec 128
  deriving DecidableEq, Repr, Inhabited, Hashable

namespace Uuid

open Resumption.Text

def chars (u : Uuid) : List Char :=
  let ds := hexPadded 32 u.bits.toNat
  ds.take 8 ++ '-' :: (ds.drop 8).take 4 ++ '-' :: (ds.drop 12).take 4 ++ '-' ::
    (ds.drop 16).take 4 ++ '-' :: ds.drop 20

def text (u : Uuid) : String := String.ofList u.chars

def ofHex? (cs : List Char) : Option Uuid :=
  if cs.length = 32 then (hexDigits? cs).map fun ds => ⟨BitVec.ofNat 128 (ofDigits 16 ds)⟩ else none

def ofHyphenated? (cs : List Char) : Option Uuid :=
  if cs.length = 36 ∧ cs[8]? = some '-' ∧ cs[13]? = some '-' ∧ cs[18]? = some '-' ∧
      cs[23]? = some '-' then
    ofHex? (cs.take 8 ++ (cs.drop 9).take 4 ++ (cs.drop 14).take 4 ++ (cs.drop 19).take 4 ++
      cs.drop 24)
  else none

/-- The name of the namespace that an identifier may be written in. -/
def namespaceName : List Char := ['u', 'r', 'n', ':', 'u', 'u', 'i', 'd', ':']

def ofChars? (cs : List Char) : Option Uuid :=
  if cs.length = 32 then ofHex? cs
  else if cs.length = 36 then ofHyphenated? cs
  else if cs.head? = some '\x7b' ∧ cs.getLast? = some '\x7d' then ofHyphenated? cs.tail.dropLast
  else if (cs.take 9).map Char.toLower = namespaceName then ofHyphenated? (cs.drop 9)
  else none

def ofText? (s : String) : Option Uuid := ofChars? s.toList

/-- The identifier of version 7 made at a time in milliseconds, with a serial number: 48 bits of
time, then the version and the variant, each before bits that are free. The serial number takes
the last 62. -/
def timeOrdered (millis serial : Nat) : Uuid :=
  ⟨BitVec.ofNat 128 (((millis % 281474976710656) <<< 80) + (7 <<< 76) + (2 <<< 62) +
    serial % 4611686018427387904)⟩

end Uuid

end Resumption
