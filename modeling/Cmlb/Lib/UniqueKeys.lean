import Mathlib.Data.List.Basic

/-!
# Rows with unique keys

Two rows that clash on a key cannot stand in one table. `insert` is refused where a row clashes, and
`replace` removes what clashes; an insertion that is not refused is a replacement that removes nothing
(`insert_eq_some`).
-/

namespace UniqueKeys

variable {α : Type*} (clash : α → α → Prop) [DecidableRel clash]

def Unique (rows : List α) : Prop := rows.Pairwise fun r s => ¬clash r s

def insert (row : α) (rows : List α) : Option (List α) :=
  if ∃ r ∈ rows, clash r row then none else some (rows ++ [row])

def replace (row : α) (rows : List α) : List α := rows.filter (fun r => ¬clash r row) ++ [row]

variable {clash} {row r : α} {rows rows' : List α}

theorem insert_eq_none : insert clash row rows = none ↔ ∃ r ∈ rows, clash r row := by
  unfold insert
  split <;> simp [*]

theorem mem_replace : r ∈ replace clash row rows ↔ (r ∈ rows ∧ ¬clash r row) ∨ r = row := by
  simp [replace]

theorem replace_eq_append (h : ∀ r ∈ rows, ¬clash r row) : replace clash row rows = rows ++ [row] := by
  rw [replace, List.filter_eq_self.2]
  intro r hr
  simpa using h r hr

theorem insert_eq_some (h : insert clash row rows = some rows') : rows' = replace clash row rows := by
  unfold insert at h
  split at h
  · cases h
  · rename_i hfree
    cases h
    exact (replace_eq_append fun r hr hclash => hfree ⟨r, hr, hclash⟩).symm

/-- What is left of a row that clashes with the new one is the new one. -/
theorem mem_of_mem_replace (hr : r ∈ rows) (hne : ¬clash r row) : r ∈ replace clash row rows :=
  mem_replace.2 (.inl ⟨hr, hne⟩)

theorem Unique.replace (h : Unique clash rows) : Unique clash (replace clash row rows) := by
  refine List.pairwise_append.2 ⟨h.filter _, List.pairwise_singleton .., ?_⟩
  intro r hr s hs
  rw [List.mem_singleton.1 hs]
  simpa using (List.mem_filter.1 hr).2

theorem Unique.insert (h : Unique clash rows) (hins : insert clash row rows = some rows') :
    Unique clash rows' := by
  rw [insert_eq_some hins]
  exact h.replace

omit [DecidableRel clash] in
/-- A change of the rows that brings no two of them together. -/
theorem Unique.map {f : α → α} (h : Unique clash rows) (hf : ∀ r s, clash (f r) (f s) → clash r s) :
    Unique clash (rows.map f) :=
  List.pairwise_map.2 (h.imp fun hne hclash => hne (hf _ _ hclash))

omit [DecidableRel clash] in
theorem Unique.filter (h : Unique clash rows) (p : α → Bool) : Unique clash (rows.filter p) :=
  List.Pairwise.filter p h

/-! ### Rows with one key -/

section Key

variable {κ : Type*} [DecidableEq κ] (key : α → κ) {k : κ}

/-- The row under a key, when the rows with another one are removed. -/
theorem find?_filter_ne (rows : List α) (k' : κ) :
    (rows.filter fun r => key r ≠ k').find? (fun r => key r = k) =
      if k = k' then none else rows.find? fun r => key r = k := by
  rw [List.find?_filter]
  split_ifs with h
  · subst h
    rw [List.find?_eq_none]
    intro r _
    by_cases hr : key r = k <;> simp [hr]
  · congr 1
    funext r
    by_cases hr : key r = k <;> simp [hr, h]

theorem find?_replace (row : α) (rows : List α) :
    (replace (fun r s => key r = key s) row rows).find? (fun r => key r = k) =
      if key row = k then some row else rows.find? fun r => key r = k := by
  unfold replace
  rw [List.find?_append, find?_filter_ne]
  by_cases h : key row = k
  · rw [if_pos h, if_pos h.symm]
    simp [h]
  · rw [if_neg h, if_neg (Ne.symm h)]
    simp [h]

/-- Under the key of a row there is that row. -/
theorem Unique.find?_eq {r : α} (h : Unique (fun r s => key r = key s) rows) (hr : r ∈ rows) :
    rows.find? (fun s => key s = key r) = some r := by
  induction rows with
  | nil => cases hr
  | cons s rows ih =>
    obtain ⟨hhead, htail⟩ := List.pairwise_cons.1 h
    rcases List.mem_cons.1 hr with rfl | hr
    · simp
    · rw [List.find?_cons_of_neg (by simpa using hhead r hr)]
      exact ih htail hr

end Key

end UniqueKeys
