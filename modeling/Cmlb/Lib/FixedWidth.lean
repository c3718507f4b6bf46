import Mathlib.Tactic.Tauto

/-!
# Texts of one width, in the order of numbers

`Ranks a b x y` says that the lists `a` and `b` have one length and compare, in the lexicographic
order, as the numbers `x` and `y` do. Texts that are put together from fields of fixed width compare
as the numbers that are put together from the fields (`Ranks.append`), however many units of a field
make one of the field before.
-/

structure Ranks {α : Type*} [LT α] (a b : List α) (x y : Int) : Prop where
  width : a.length = b.length
  lt_iff : a < b ↔ x < y
  eq_iff : a = b ↔ x = y

namespace Ranks

variable {α : Type*} [LT α] {a b c d : List α} {x y u v w : Int}

theorem congr {x' y' : Int} (h : Ranks a b x y) (hx : x' = x) (hy : y' = y) : Ranks a b x' y' := by
  rw [hx, hy]
  exact h

/-- A field may be counted from another number. -/
theorem shift (h : Ranks a b x y) (k : Int) : Ranks a b (x - k) (y - k) :=
  ⟨h.width, h.lt_iff.trans (by omega), h.eq_iff.trans (by omega)⟩

theorem append_lt_append_iff (h : a.length = b.length) : a ++ c < b ++ d ↔ a < b ∨ a = b ∧ c < d := by
  induction a generalizing b with
  | nil =>
    cases b with
    | nil => simp
    | cons e b => cases h
  | cons e a ih =>
    cases b with
    | nil => cases h
    | cons f b =>
      have hrest := ih (Nat.succ.inj h)
      simp only [List.cons_append, List.cons_lt_cons_iff, List.cons.injEq, hrest]
      tauto

/-- The order of two fields is the order of the first, and of the second where the first agree. -/
theorem append_lex (h : Ranks a b x y) (h' : Ranks c d u v) :
    (a ++ c < b ++ d ↔ x < y ∨ x = y ∧ u < v) ∧ (a ++ c = b ++ d ↔ x = y ∧ u = v) := by
  rw [append_lt_append_iff h.width, h.lt_iff, h.eq_iff, h'.lt_iff]
  refine ⟨Iff.rfl, ?_⟩
  rw [← h.eq_iff, ← h'.eq_iff]
  constructor
  · intro heq
    exact List.append_inj heq h.width
  · rintro ⟨rfl, rfl⟩
    rfl

/-- Numbers of mixed radix are in the order of their digits. -/
theorem mul_add_lex (hu : 0 ≤ u ∧ u < w) (hv : 0 ≤ v ∧ v < w) :
    (x * w + u < y * w + v ↔ x < y ∨ x = y ∧ u < v) ∧ (x * w + u = y * w + v ↔ x = y ∧ u = v) := by
  rcases Int.lt_trichotomy x y with hxy | rfl | hxy
  · have hmul : (x + 1) * w ≤ y * w := Int.mul_le_mul_of_nonneg_right hxy (by omega)
    rw [Int.add_mul] at hmul
    omega
  · omega
  · have hmul : (y + 1) * w ≤ x * w := Int.mul_le_mul_of_nonneg_right hxy (by omega)
    rw [Int.add_mul] at hmul
    omega

/-- The second field counts up to `w` in one unit of the first. -/
theorem append (h : Ranks a b x y) (h' : Ranks c d u v) (hu : 0 ≤ u ∧ u < w) (hv : 0 ≤ v ∧ v < w) :
    Ranks (a ++ c) (b ++ d) (x * w + u) (y * w + v) := by
  obtain ⟨hlt, heq⟩ := append_lex h h'
  obtain ⟨hlt', heq'⟩ := mul_add_lex (x := x) (y := y) hu hv
  refine ⟨?_, hlt.trans hlt'.symm, heq.trans heq'.symm⟩
  simp only [List.length_append, h.width, h'.width]

/-- A sign between the fields that is always the same. -/
theorem cons [Std.Irrefl fun x y : α => x < y] (e : α) (h : Ranks a b x y) :
    Ranks (e :: a) (e :: b) x y := by
  refine ⟨congrArg (· + 1) h.width, ?_, ?_⟩
  · simp [h.lt_iff]
  · simp [h.eq_iff]

theorem append_right [Std.Irrefl fun x y : α => x < y] (e : List α) (h : Ranks a b x y) :
    Ranks (a ++ e) (b ++ e) x y := by
  refine ⟨by simp [h.width], ?_, ?_⟩
  · simp [append_lt_append_iff h.width, h.lt_iff, List.lt_irrefl e]
  · simp [h.eq_iff]

end Ranks
