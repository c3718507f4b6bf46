import Mathlib.Data.List.Basic

/-!
# Lists cut at a separator, in steps

`complete a xs` are the pieces of `xs` that are ended by an `a`, and `rest a xs` is what stands after
the last one. A list that comes in two parts can be cut part by part: what the first leaves over goes
in front of the second (`complete_append`, `rest_append`).
-/

namespace Separated

variable {α : Type*} [BEq α] [LawfulBEq α] {a : α} {xs ys : List α}

def complete (a : α) (xs : List α) : List (List α) := (xs.splitOn a).dropLast

def rest (a : α) (xs : List α) : List α := (xs.splitOn a).getLastD []

/-- The first separator. -/
theorem exists_of_idxOf? {k : Nat} (h : xs.idxOf? a = some k) :
    ∃ u v, xs = u ++ a :: v ∧ a ∉ u ∧ k = u.length := by
  induction xs generalizing k with
  | nil => cases h
  | cons x xs ih =>
    rw [List.idxOf?_cons] at h
    by_cases hx : x == a
    · rw [if_pos hx, Option.some.injEq] at h
      subst h
      exact ⟨[], xs, by rw [eq_of_beq hx]; rfl, List.not_mem_nil, rfl⟩
    · rw [if_neg hx] at h
      obtain ⟨j, hj, rfl⟩ := Option.map_eq_some_iff.1 h
      obtain ⟨u, v, rfl, hu, rfl⟩ := ih hj
      refine ⟨x :: u, v, rfl, ?_, rfl⟩
      rintro (_ | ⟨_, hmem⟩)
      · exact hx (beq_self_eq_true a)
      · exact hu hmem

theorem complete_of_notMem (h : a ∉ xs) : complete a xs = [] := by
  rw [complete, List.splitOn_eq_singleton h]
  rfl

theorem rest_of_notMem (h : a ∉ xs) : rest a xs = xs := by
  rw [rest, List.splitOn_eq_singleton h]
  rfl

theorem complete_append_cons (h : a ∉ xs) (ys : List α) :
    complete a (xs ++ a :: ys) = xs :: complete a ys := by
  rw [complete, List.splitOn_append_cons_self_of_not_mem h]
  exact List.dropLast_cons_of_ne_nil (List.splitOn_ne_nil _ _)

theorem rest_append_cons (h : a ∉ xs) (ys : List α) : rest a (xs ++ a :: ys) = rest a ys := by
  rw [rest, List.splitOn_append_cons_self_of_not_mem h, rest]
  cases hs : ys.splitOn a with
  | nil => exact absurd hs (List.splitOn_ne_nil _ _)
  | cons y l => rfl

/-- The pieces of the first part are found before the second comes. -/
theorem complete_rest_append (a : α) (xs ys : List α) :
    complete a (xs ++ ys) = complete a xs ++ complete a (rest a xs ++ ys) ∧
      rest a (xs ++ ys) = rest a (rest a xs ++ ys) := by
  induction hn : xs.length using Nat.strongRecOn generalizing xs with
  | ind n ih =>
    by_cases hmem : a ∈ xs
    · obtain ⟨u, v, rfl, hu⟩ := List.eq_append_cons_of_mem hmem
      have hlt : v.length < n := by
        rw [← hn, List.length_append, List.length_cons]
        omega
      obtain ⟨hcomplete, hrest⟩ := ih _ hlt v rfl
      rw [List.append_assoc, List.cons_append, complete_append_cons hu, rest_append_cons hu,
        complete_append_cons hu, rest_append_cons hu, hcomplete, hrest]
      exact ⟨rfl, rfl⟩
    · rw [complete_of_notMem hmem, rest_of_notMem hmem]
      exact ⟨rfl, rfl⟩

theorem complete_append (a : α) (xs ys : List α) :
    complete a (xs ++ ys) = complete a xs ++ complete a (rest a xs ++ ys) :=
  (complete_rest_append a xs ys).1

theorem rest_append (a : α) (xs ys : List α) : rest a (xs ++ ys) = rest a (rest a xs ++ ys) :=
  (complete_rest_append a xs ys).2

end Separated
