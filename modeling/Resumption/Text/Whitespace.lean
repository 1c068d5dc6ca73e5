/-!
# White space

The characters with the Unicode property White_Space, which the readers of timestamps skip.
-/

namespace Resumption.Text

/-- The character has the Unicode property White_Space. -/
def isBlank (c : Char) : Bool :=
  c == ' ' || ('\t' ≤ c && c ≤ '\r') || c.toNat == 0x85 || c.toNat == 0xA0 || c.toNat == 0x1680 ||
    (0x2000 ≤ c.toNat && c.toNat ≤ 0x200A) || c.toNat == 0x2028 || c.toNat == 0x2029 ||
    c.toNat == 0x202F || c.toNat == 0x205F || c.toNat == 0x3000

def skipBlanks (cs : List Char) : List Char := cs.dropWhile isBlank

end Resumption.Text
