import Resumption.Json.Fields

/-!
# Values of the wire

A text may repeat a name in an object or hold something unreadable; a value that a program holds
does neither (`Json.IsValue`). The reader of an arbitrary value gives a value (`Json.isValue_any?`)
and leaves one that is a value already as it is (`Json.any?_of_isValue`).
-/

namespace Resumption.Json

/-- The value can be written and read back: all of it is readable, and no object has two members
of one name. -/
def IsValue (j : Json) : Prop := j.readable = true ∧ j.WellKeyed

instance (j : Json) : Decidable j.IsValue := inferInstanceAs (Decidable (_ ∧ _))

/-! ## Members kept -/

theorem any_normalizeMembers (name : String) : ∀ ms : List (String × Json),
    (normalizeMembers ms).any (fun m => m.1 == name) = ms.any (fun m => m.1 == name)
  | [] => by simp [normalizeMembers]
  | (k, v) :: ms => by
    rw [normalizeMembers]
    split
    · next later =>
      rw [any_normalizeMembers name ms, List.any_cons]
      by_cases same : (k == name) = true
      · rw [beq_iff_eq] at same
        subst same
        simp [later]
      · simp [same]
    · simp [any_normalizeMembers name ms]

mutual

/-- Keeping the last member of each name leaves no name twice. -/
theorem wellKeyed_normalize : ∀ j : Json, (normalize j).wellKeyed = true
  | .null | .bool _ | .number _ | .string _ | .unreadable => rfl
  | .array xs => by
    rw [normalize, wellKeyed]
    exact wellKeyedItems_normalizeItems xs
  | .object ms => by
    rw [normalize, wellKeyed]
    exact wellKeyedMembers_normalizeMembers ms

theorem wellKeyedItems_normalizeItems : ∀ xs : List Json,
    wellKeyedItems (normalizeItems xs) = true
  | [] => rfl
  | x :: xs => by
    simp [normalizeItems, wellKeyedItems, wellKeyed_normalize x, wellKeyedItems_normalizeItems xs]

theorem wellKeyedMembers_normalizeMembers : ∀ ms : List (String × Json),
    wellKeyedMembers (normalizeMembers ms) = true
  | [] => rfl
  | (k, v) :: ms => by
    rw [normalizeMembers]
    split
    · exact wellKeyedMembers_normalizeMembers ms
    · next last =>
      simp only [wellKeyedMembers, any_normalizeMembers, wellKeyed_normalize v,
        wellKeyedMembers_normalizeMembers ms, Bool.and_true, Bool.not_eq_true']
      exact Bool.eq_false_iff.2 last

end

mutual

theorem readable_normalize : ∀ j : Json, j.readable = true → (normalize j).readable = true
  | .null, h | .bool _, h | .number _, h | .string _, h | .unreadable, h => h
  | .array xs, h => readableItems_normalizeItems xs h
  | .object ms, h => readableMembers_normalizeMembers ms h

theorem readableItems_normalizeItems : ∀ xs : List Json, readableItems xs = true →
    readableItems (normalizeItems xs) = true
  | [], _ => rfl
  | x :: xs, h => by
    simp only [readableItems, Bool.and_eq_true] at h
    simp [normalizeItems, readableItems, readable_normalize x h.1,
      readableItems_normalizeItems xs h.2]

theorem readableMembers_normalizeMembers : ∀ ms : List (String × Json),
    readableMembers ms = true → readableMembers (normalizeMembers ms) = true
  | [], _ => rfl
  | (k, v) :: ms, h => by
    simp only [readableMembers, Bool.and_eq_true] at h
    rw [normalizeMembers]
    split
    · exact readableMembers_normalizeMembers ms h.2
    · simp [readableMembers, readable_normalize v h.1, readableMembers_normalizeMembers ms h.2]

end

mutual

theorem normalize_of_wellKeyed : ∀ j : Json, j.wellKeyed = true → normalize j = j
  | .null, _ | .bool _, _ | .number _, _ | .string _, _ | .unreadable, _ => rfl
  | .array xs, h => by
    rw [normalize, normalizeItems_of_wellKeyed xs h]
  | .object ms, h => by
    rw [normalize, normalizeMembers_of_wellKeyed ms h]

theorem normalizeItems_of_wellKeyed : ∀ xs : List Json, wellKeyedItems xs = true →
    normalizeItems xs = xs
  | [], _ => rfl
  | x :: xs, h => by
    simp only [wellKeyedItems, Bool.and_eq_true] at h
    rw [normalizeItems, normalize_of_wellKeyed x h.1, normalizeItems_of_wellKeyed xs h.2]

theorem normalizeMembers_of_wellKeyed : ∀ ms : List (String × Json),
    wellKeyedMembers ms = true → normalizeMembers ms = ms
  | [], _ => rfl
  | (k, v) :: ms, h => by
    simp only [wellKeyedMembers, Bool.and_eq_true, Bool.not_eq_true'] at h
    rw [normalizeMembers, h.1.1]
    simp only [Bool.false_eq_true, if_false]
    rw [normalize_of_wellKeyed v h.1.2, normalizeMembers_of_wellKeyed ms h.2]

end

/-! ## Reading a value -/

theorem any?_of_isValue {j : Json} (h : j.IsValue) : j.any? = some j := by
  rw [any?, if_pos h.1, normalize_of_wellKeyed j h.2]

theorem isValue_any? {j k : Json} (h : j.any? = some k) : k.IsValue := by
  unfold any? at h
  split at h
  · next readable =>
    cases h
    exact ⟨readable_normalize j readable, wellKeyed_normalize j⟩
  · cases h

end Resumption.Json
