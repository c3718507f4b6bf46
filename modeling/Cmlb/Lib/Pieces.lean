import Mathlib.Algebra.Order.BigOperators.Group.Finset
import Mathlib.Data.List.DropRight

/-!
# A list cut into pieces

`piece c xs i` is the `i`-th piece of length `c`, the last of which may be shorter. Put together the
first `n` pieces are what they cover (`flatMap_piece`), and beginnings of pieces are the whole list only
if each is its whole piece (`flatMap_prefix_iff`).
-/

namespace Pieces

variable {α : Type*}

def piece (c : Nat) (xs : List α) (i : Nat) : List α := (xs.drop (i * c)).take c

variable {c n i : Nat} {xs ys : List α} {f : Nat → List α}

theorem length_piece : (piece c xs i).length = min c (xs.length - i * c) := by
  simp [piece]

theorem length_piece_le : (piece c xs i).length ≤ c := by
  rw [length_piece]
  exact min_le_left _ _

theorem piece_ne_nil (hc : 0 < c) (h : i * c < xs.length) : piece c xs i ≠ [] := by
  rw [← List.length_pos_iff, length_piece]
  omega

theorem flatMap_piece (n : Nat) : (List.range n).flatMap (piece c xs) = xs.take (n * c) := by
  induction n with
  | zero => simp
  | succ n ih =>
    rw [List.range_succ, List.flatMap_append, ih, Nat.succ_mul, List.take_add]
    simp [piece]

theorem flatMap_piece_of_le (h : xs.length ≤ n * c) : (List.range n).flatMap (piece c xs) = xs := by
  rw [flatMap_piece, List.take_of_length_le h]

theorem length_flatMap_range (n : Nat) (f : Nat → List α) :
    ((List.range n).flatMap f).length = ∑ i ∈ Finset.range n, (f i).length := by
  induction n with
  | zero => rfl
  | succ n ih =>
    rw [List.range_succ, List.flatMap_append, List.length_append, ih, Finset.sum_range_succ]
    simp

/-- The pieces of a beginning are beginnings of the pieces. -/
theorem piece_begins (h : ys <+: xs) : piece c ys i <+: piece c xs i := by
  obtain ⟨zs, rfl⟩ := h
  unfold piece
  rw [List.drop_append]
  exact List.IsPrefix.take (List.prefix_append _ _) c

/-- Beginnings of the pieces make up the list only if they are the pieces, and cover it. -/
theorem flatMap_prefix_iff (hf : ∀ i, f i <+: piece c xs i) :
    (List.range n).flatMap f = xs ↔ xs.length ≤ n * c ∧ ∀ i < n, f i = piece c xs i := by
  constructor
  · intro h
    have hlen := congrArg List.length h
    have htake := congrArg List.length (flatMap_piece n : (List.range n).flatMap (piece c xs) = _)
    rw [length_flatMap_range] at hlen htake
    rw [List.length_take] at htake
    have hle : ∀ i ∈ Finset.range n, (f i).length ≤ (piece c xs i).length := fun i _ => (hf i).length_le
    have hsum := Finset.sum_le_sum hle
    have heq : ∑ i ∈ Finset.range n, (f i).length = ∑ i ∈ Finset.range n, (piece c xs i).length := by
      omega
    refine ⟨by omega, fun i hi => (hf i).eq_of_length ?_⟩
    exact (Finset.sum_eq_sum_iff_of_le hle).1 heq i (Finset.mem_range.2 hi)
  · rintro ⟨hcover, hall⟩
    have hpieces : (List.range n).flatMap f = (List.range n).flatMap (piece c xs) :=
      List.flatMap_congr fun i hi => hall i (List.mem_range.1 hi)
    rw [hpieces, flatMap_piece_of_le hcover]

/-- The number of pieces covers the list, and none of them is empty. -/
theorem ceil_covers (hc : 0 < c) (len : Nat) : len ≤ (len + c - 1) / c * c := by
  have hdiv := Nat.div_add_mod (len + c - 1) c
  have hmod := Nat.mod_lt (len + c - 1) hc
  have hcomm : c * ((len + c - 1) / c) = (len + c - 1) / c * c := Nat.mul_comm _ _
  omega

theorem mul_lt_of_lt_ceil (hc : 0 < c) {len : Nat} (h : i < (len + c - 1) / c) : i * c < len := by
  have hle := (Nat.le_div_iff_mul_le hc).1 h
  rw [Nat.succ_mul] at hle
  omega

/-- Fewer pieces do not cover the list. -/
theorem le_of_covers (hc : 0 < c) {len : Nat} (h : len ≤ n * c) : (len + c - 1) / c ≤ n := by
  refine Nat.lt_succ_iff.1 ((Nat.div_lt_iff_lt_mul hc).2 ?_)
  rw [Nat.succ_mul]
  omega

end Pieces
