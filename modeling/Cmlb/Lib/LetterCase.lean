import Mathlib

/-!
# Letters in lower case

`Char.toLower` moves ASCII letters only, and to letters: whatever is not a letter comes from itself
alone.
-/

namespace LetterCase

variable {a c : Char}

theorem toLower_cases (c : Char) : c.toLower = c ∨ c.toLower.isAlpha = true ∧ c.isAlpha = true := by
  by_cases h : c.isUpper = true
  · have halpha : c.isAlpha = true := by simp [Char.isAlpha, h]
    exact .inr ⟨by simpa using halpha, halpha⟩
  · exact .inl (Char.toLower_eq_of_not_isUpper h)

theorem toLower_eq_iff (ha : a.isAlpha = false) : c.toLower = a ↔ c = a := by
  rcases toLower_cases c with h | ⟨hlower, h⟩
  · rw [h]
  · refine iff_of_false ?_ ?_
    · rintro rfl
      exact Bool.false_ne_true (ha.symm.trans hlower)
    · rintro rfl
      exact Bool.false_ne_true (ha.symm.trans h)

end LetterCase
