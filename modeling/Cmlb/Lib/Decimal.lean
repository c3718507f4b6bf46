import Mathlib.Tactic.SplitIfs

/-!
# Whole texts read as decimal integers

The digits may have one minus before them, and zeros may lead them; nothing else may stand in the text.
What an integer is written as is read as that integer (`integer_toString`).
-/

namespace Decimal

def natural (text : List Char) : Option Nat :=
  if text ≠ [] ∧ text.all Char.isDigit then some (Nat.ofDigitChars 10 text 0) else none

def integer : List Char → Option Int
  | '-' :: digits => (natural digits).map fun n : Nat => -(n : Int)
  | digits => (natural digits).map fun n : Nat => (n : Int)

variable {c : Char} {text : List Char} {n : Nat} {z : Int}

/-! ### What is read -/

theorem natural_eq_some (h : natural text = some n) :
    text ≠ [] ∧ (∀ c ∈ text, c.isDigit = true) ∧ n = Nat.ofDigitChars 10 text 0 := by
  rw [natural] at h
  split_ifs at h with hdigits
  exact ⟨hdigits.1, List.all_eq_true.1 hdigits.2, (Option.some.inj h).symm⟩

theorem ne_nil_of_integer (h : integer text = some z) : text ≠ [] := by
  rintro rfl
  simp [integer, natural] at h

theorem mem_of_integer (h : integer text = some z) (hc : c ∈ text) : c.isDigit = true ∨ c = '-' := by
  rw [integer.eq_def] at h
  split at h
  · obtain ⟨n, hn, -⟩ := Option.map_eq_some_iff.1 h
    rcases List.mem_cons.1 hc with rfl | hc
    · exact .inr rfl
    · exact .inl ((natural_eq_some hn).2.1 c hc)
  · obtain ⟨n, hn, -⟩ := Option.map_eq_some_iff.1 h
    exact .inl ((natural_eq_some hn).2.1 c hc)

/-! ### What is written -/

theorem natural_toDigits (n : Nat) : natural (Nat.toDigits 10 n) = some n := by
  have hdigits : ∀ c ∈ Nat.toDigits 10 n, c.isDigit = true := fun c hc =>
    Nat.isDigit_of_mem_toDigits (by omega) (Nat.le_refl 10) hc
  rw [natural, if_pos ⟨Nat.toDigits_ne_nil, List.all_eq_true.2 hdigits⟩, Nat.ofDigitChars_ten_toDigits]

theorem integer_of_natural (h : natural text = some n) :
    integer text = some (n : Int) := by
  rw [integer, h]
  · rfl
  · rintro digits rfl
    simp [natural] at h

theorem integer_toString (z : Int) : integer (toString z).toList = some z := by
  cases z with
  | ofNat n =>
    show integer (Nat.repr n).toList = _
    rw [Nat.toList_repr]
    exact integer_of_natural (natural_toDigits n)
  | negSucc n =>
    have htext : (toString (Int.negSucc n)).toList = '-' :: Nat.toDigits 10 (n + 1) := by
      show ("-" ++ Nat.repr (n + 1)).toList = _
      rw [String.toList_append, Nat.toList_repr]
      rfl
    rw [htext, integer, natural_toDigits]
    rfl

end Decimal
