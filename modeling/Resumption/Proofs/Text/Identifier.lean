import Resumption.Proofs.Text.Digits
import Resumption.Uuid

/-!
# Identifiers read back

The written form of an identifier is its 32 hexadecimal digits with four hyphens between them
(`Uuid.grouped`). The hyphens stand where the reader looks for them, and without them the digits
are there again (`Uuid.ofHyphenated?_grouped`), so an identifier is read back from its text
(`Uuid.ofText?_text`).
-/

namespace Resumption.Uuid

open Resumption.Text

/-- Digits in groups of 8, 4, 4, 4 and the rest, with hyphens between the groups. -/
def grouped (ds : List Char) : List Char :=
  ds.take 8 ++ '-' :: (ds.drop 8).take 4 ++ '-' :: (ds.drop 12).take 4 ++ '-' ::
    (ds.drop 16).take 4 ++ '-' :: ds.drop 20

theorem chars_eq (u : Uuid) : u.chars = grouped (hexPadded 32 u.bits.toNat) := rfl

theorem exists_groups {ds : List Char} (h : ds.length = 32) :
    ∃ a b c d e : List Char, a.length = 8 ∧ b.length = 4 ∧ c.length = 4 ∧ d.length = 4 ∧
      e.length = 12 ∧ ds = a ++ (b ++ (c ++ (d ++ e))) := by
  refine ⟨ds.take 8, (ds.drop 8).take 4, (ds.drop 12).take 4, (ds.drop 16).take 4, ds.drop 20,
    by simp [h], by simp [h], by simp [h], by simp [h], by simp [h], ?_⟩
  have last := List.take_append_drop 4 (ds.drop 16)
  have third := List.take_append_drop 4 (ds.drop 12)
  have second := List.take_append_drop 4 (ds.drop 8)
  have first := List.take_append_drop 8 ds
  simp only [List.drop_drop] at last third second
  rw [last, third, second, first]

/-- Groups of the right lengths lie in the hyphenated form as the reader cuts it. -/
theorem ofHyphenated?_groups {a b c d e : List Char} (ha : a.length = 8) (hb : b.length = 4)
    (hc : c.length = 4) (hd : d.length = 4) (he : e.length = 12) :
    ofHyphenated? (a ++ '-' :: (b ++ '-' :: (c ++ '-' :: (d ++ '-' :: e))))
      = ofHex? (a ++ (b ++ (c ++ (d ++ e)))) := by
  unfold ofHyphenated?
  rw [if_pos]
  · simp (disch := omega) [List.drop_append, List.drop_eq_nil_of_le, ha, hb, hc, hd]
  · simp [ha, hb, hc, hd, he]

theorem ofChars?_grouped {ds : List Char} (h : ds.length = 32) :
    ofChars? (grouped ds) = ofHex? ds := by
  obtain ⟨a, b, c, d, e, ha, hb, hc, hd, he, rfl⟩ := exists_groups h
  have form : grouped (a ++ (b ++ (c ++ (d ++ e))))
      = a ++ '-' :: (b ++ '-' :: (c ++ '-' :: (d ++ '-' :: e))) := by
    simp (disch := omega) [grouped, List.drop_append, List.drop_eq_nil_of_le, ha, hb, hc]
  have length : (a ++ '-' :: (b ++ '-' :: (c ++ '-' :: (d ++ '-' :: e)))).length = 36 := by
    simp [ha, hb, hc, hd, he]
  unfold ofChars?
  rw [form, if_neg (by omega), if_pos length]
  exact ofHyphenated?_groups ha hb hc hd he

/-- The digits of an identifier are those of its number. -/
theorem ofHex?_hexPadded (u : Uuid) : ofHex? (hexPadded 32 u.bits.toNat) = some u := by
  have below : u.bits.toNat < 16 ^ 32 := u.bits.isLt
  unfold ofHex?
  rw [if_pos (length_hexPadded 32 _), hexDigits?_hexPadded, Option.map_some, ofDigits_digits,
    Nat.mod_eq_of_lt below, BitVec.ofNat_toNat, BitVec.setWidth_eq]

theorem ofText?_text (u : Uuid) : ofText? u.text = some u := by
  rw [ofText?, text, String.toList_ofList, chars_eq, ofChars?_grouped (length_hexPadded 32 _)]
  exact ofHex?_hexPadded u

end Resumption.Uuid
