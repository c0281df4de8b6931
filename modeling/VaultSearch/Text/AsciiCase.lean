/-
Lower case for ASCII letters: only the codes 65 to 90 change.
-/

import VaultSearch.Text.Basic

set_option autoImplicit false

namespace VaultSearch.Text

theorem toLower_cases (char : Char) :
    char.toLower = char ∨
      65 ≤ char.toNat ∧ char.toNat ≤ 90 ∧ char.toLower.toNat = char.toNat + 32 := by
  delta Char.toLower
  split
  case isTrue upper =>
    have low : (65 : Nat) ≤ char.toNat := upper.1
    have high : char.toNat ≤ (90 : Nat) := upper.2
    refine Or.inr ⟨low, high, ?_⟩
    change (char.val + ('a'.val - 'A'.val)).toNat = char.val.toNat + 32
    rw [UInt32.toNat_add]
    change (char.toNat + 32) % 2 ^ 32 = char.toNat + 32
    omega
  case isFalse _other => exact Or.inl rfl

/-- A character that is neither an upper case nor a lower case letter is the lower case of
itself alone. -/
theorem toLower_eq_iff {sign : Char} (notUpper : sign.toNat < 65 ∨ 90 < sign.toNat)
    (notLower : sign.toNat < 97 ∨ 122 < sign.toNat) (char : Char) :
    char.toLower = sign ↔ char = sign := by
  rcases toLower_cases char with same | ⟨low, high, moved⟩
  · rw [same]
  · constructor
    · intro equal
      rw [equal] at moved
      omega
    · intro equal
      rw [equal] at low high
      omega

theorem isAlpha_iff (char : Char) : char.isAlpha = true ↔
    (65 ≤ char.toNat ∧ char.toNat ≤ 90) ∨ (97 ≤ char.toNat ∧ char.toNat ≤ 122) := by
  delta Char.isAlpha Char.isUpper Char.isLower
  simp only [Bool.or_eq_true, Bool.and_eq_true, decide_eq_true_eq]
  rfl

/-- A letter shares its lower case with another character. -/
theorem exists_other_case {char : Char} (letter : char.isAlpha = true) :
    ∃ other, other ≠ char ∧ other.toLower = char.toLower := by
  have pairs : ∀ place : Fin 26, Char.ofNat (65 + place) ≠ Char.ofNat (97 + place) ∧
      (Char.ofNat (65 + place)).toLower = (Char.ofNat (97 + place)).toLower := by decide
  rcases (isAlpha_iff char).mp letter with ⟨low, high⟩ | ⟨low, high⟩
  · obtain ⟨apart, same⟩ := pairs ⟨char.toNat - 65, by omega⟩
    have isChar : Char.ofNat (65 + (char.toNat - 65)) = char := by
      rw [Nat.add_sub_cancel' low, Char.ofNat_toNat]
    simp only [isChar] at apart same
    exact ⟨_, Ne.symm apart, same.symm⟩
  · obtain ⟨apart, same⟩ := pairs ⟨char.toNat - 97, by omega⟩
    have isChar : Char.ofNat (97 + (char.toNat - 97)) = char := by
      rw [Nat.add_sub_cancel' low, Char.ofNat_toNat]
    simp only [isChar] at apart same
    exact ⟨_, apart, same⟩

theorem eq_of_toLower_eq {char other : Char} (noLetter : char.isAlpha = false)
    (same : other.toLower = char.toLower) : other = char := by
  have outside : ¬ ((65 ≤ char.toNat ∧ char.toNat ≤ 90) ∨
      (97 ≤ char.toNat ∧ char.toNat ≤ 122)) := by
    rw [← isAlpha_iff, noLetter]
    exact Bool.false_ne_true
  have unchanged : char.toLower = char := by
    rcases toLower_cases char with same | ⟨low, high, _moved⟩
    · exact same
    · exact absurd (Or.inl ⟨low, high⟩) outside
  rw [unchanged] at same
  exact (toLower_eq_iff (by omega) (by omega) other).mp same

theorem isSpace_toLower (char : Char) : isSpace char.toLower = isSpace char := by
  rcases toLower_cases char with same | ⟨low, high, moved⟩
  · rw [same]
  · unfold isSpace
    simp only [moved]
    generalize char.toNat = code at *
    rw [Bool.eq_iff_iff]
    simp
    omega

theorem dropWhile_map_toLower (text : Text) :
    (text.map Char.toLower).dropWhile isSpace = (text.dropWhile isSpace).map Char.toLower := by
  induction text with
  | nil => rfl
  | cons head tail ih =>
      rw [List.map_cons]
      by_cases space : isSpace head = true
      · rw [List.dropWhile_cons_of_pos space, List.dropWhile_cons_of_pos, ih]
        rw [isSpace_toLower]
        exact space
      · rw [List.dropWhile_cons_of_neg space, List.dropWhile_cons_of_neg, List.map_cons]
        rw [isSpace_toLower]
        exact space

theorem strip_map_toLower (text : Text) :
    strip (text.map Char.toLower) = (strip text).map Char.toLower := by
  unfold strip rstrip lstrip
  rw [dropWhile_map_toLower, ← List.map_reverse, dropWhile_map_toLower, List.map_reverse]

end VaultSearch.Text
