import Mathlib.Data.List.Basic

/-!
# Runs of one element

`cut a 0 xs` are the runs of `a` in `xs`, each with the element that ends it, and the run at the end;
`glue` puts the list together again (`glue_cut`). What is counted in a list that is put together from
parts agrees with what is counted in another one, part by part (`countP_flatMap_le`,
`countP_eq_of_flatMap`).
-/

namespace Runs

variable {α β γ : Type*}

structure Cut (α : Type*) where
  runs : List (Nat × α)
  last : Nat

def Cut.glue (a : α) (c : Cut α) : List α :=
  c.runs.flatMap (fun run => List.replicate run.1 a ++ [run.2]) ++ List.replicate c.last a

section

variable [DecidableEq α]

/-- After `n` times `a`. -/
def cut (a : α) : Nat → List α → Cut α
  | n, [] => ⟨[], n⟩
  | n, x :: xs =>
    if x = a then cut a (n + 1) xs
    else ⟨(n, x) :: (cut a 0 xs).runs, (cut a 0 xs).last⟩

variable {a x : α} {n : Nat} {xs : List α}

theorem cut_cons_self : cut a n (a :: xs) = cut a (n + 1) xs := if_pos rfl

theorem cut_cons_of_ne (h : x ≠ a) :
    cut a n (x :: xs) = ⟨(n, x) :: (cut a 0 xs).runs, (cut a 0 xs).last⟩ := if_neg h

theorem glue_cut (a : α) (n : Nat) (xs : List α) : (cut a n xs).glue a = List.replicate n a ++ xs := by
  induction xs generalizing n with
  | nil => exact (List.append_nil _).symm
  | cons x xs ih =>
    by_cases hx : x = a
    · rw [hx, cut_cons_self, ih, List.replicate_succ', List.append_assoc, List.singleton_append]
    · have hrest := ih 0
      rw [List.replicate_zero, List.nil_append] at hrest
      rw [cut_cons_of_ne hx, Cut.glue, List.flatMap_cons, List.append_assoc]
      exact (congrArg _ hrest).trans (by rw [List.append_assoc, List.singleton_append])

theorem ne_of_mem_cut : ∀ run ∈ (cut a n xs).runs, run.2 ≠ a := by
  induction xs generalizing n with
  | nil => exact List.forall_mem_nil _
  | cons x xs ih =>
    by_cases hx : x = a
    · rw [hx, cut_cons_self]
      exact ih
    · rw [cut_cons_of_ne hx, List.forall_mem_cons]
      exact ⟨hx, ih⟩

theorem cut_replicate_append (a : α) (n m : Nat) (xs : List α) :
    cut a n (List.replicate m a ++ xs) = cut a (n + m) xs := by
  induction m generalizing n with
  | zero => rfl
  | succ m ih => rw [List.replicate_succ, List.cons_append, cut_cons_self, ih, Nat.add_right_comm]; rfl

end

/-! ### Counting -/

variable {p : β → Bool} {q : γ → Bool} {f : α → List β} {g : α → List γ} {l : List α}

theorem countP_flatMap_le (h : ∀ a ∈ l, (f a).countP p ≤ (g a).countP q) :
    (l.flatMap f).countP p ≤ (l.flatMap g).countP q := by
  induction l with
  | nil => exact Nat.le_refl 0
  | cons a l ih =>
    rw [List.forall_mem_cons] at h
    rw [List.flatMap_cons, List.flatMap_cons, List.countP_append, List.countP_append]
    exact Nat.add_le_add h.1 (ih h.2)

theorem countP_eq_of_flatMap (h : ∀ a ∈ l, (f a).countP p ≤ (g a).countP q)
    (heq : (l.flatMap f).countP p = (l.flatMap g).countP q) :
    ∀ a ∈ l, (f a).countP p = (g a).countP q := by
  induction l with
  | nil => exact List.forall_mem_nil _
  | cons a l ih =>
    rw [List.forall_mem_cons] at h
    have hle := countP_flatMap_le h.2
    rw [List.flatMap_cons, List.flatMap_cons, List.countP_append, List.countP_append] at heq
    rw [List.forall_mem_cons]
    exact ⟨by omega, ih h.2 (by omega)⟩

end Runs
