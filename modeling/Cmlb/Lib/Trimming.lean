import Mathlib.Data.List.DropRight

/-!
# Lists trimmed at both ends

`trim p l` is `l` without the elements at its ends that `p` has. What is left is bare: neither of its
ends has `p` (`bare_trim`), and a bare list is what it is trimmed to, with whatever `p` has around it
(`trim_pad`).
-/

namespace Trimming

variable {α : Type*} {p q : α → Bool} {l : List α} {a : α}

def trim (p : α → Bool) (l : List α) : List α := (l.dropWhile p).rdropWhile p

/-- Nothing at the ends has `p`. -/
structure Bare (p : α → Bool) (l : List α) : Prop where
  head : ∀ a, l.head? = some a → p a = false
  last : ∀ a, l.getLast? = some a → p a = false

theorem Bare.mono (hpq : ∀ a, p a = true → q a = true) (h : Bare q l) : Bare p l where
  head a ha := Bool.eq_false_iff.2 fun hp => Bool.eq_false_iff.1 (h.head a ha) (hpq a hp)
  last a ha := Bool.eq_false_iff.2 fun hp => Bool.eq_false_iff.1 (h.last a ha) (hpq a hp)

theorem dropWhile_eq_self (h : ∀ a, l.head? = some a → p a = false) : l.dropWhile p = l := by
  cases l with
  | nil => rfl
  | cons a l => rw [List.dropWhile_cons_of_neg (by simp [h a rfl])]

theorem rdropWhile_eq_self (h : ∀ a, l.getLast? = some a → p a = false) : l.rdropWhile p = l := by
  refine List.rdropWhile_eq_self_iff.2 fun hl => ?_
  simp [h _ (List.getLast?_eq_some_getLast hl)]

theorem rdropWhile_append (h : ∀ a ∈ l, p a = true) (l' : List α) :
    (l' ++ l).rdropWhile p = l'.rdropWhile p := by
  induction l using List.reverseRecOn with
  | nil => rw [List.append_nil]
  | append_singleton l a ih =>
    rw [← List.append_assoc, List.rdropWhile_concat_pos _ _ _ (h a (by simp))]
    exact ih fun b hb => h b (by simp [hb])

theorem bare_trim (p : α → Bool) (l : List α) : Bare p (trim p l) where
  head a ha := by
    cases hdrop : l.dropWhile p with
    | nil => simp [trim, hdrop] at ha
    | cons b l' =>
      have hb : p b = false := by
        have hnot := List.head_dropWhile_not p (l := l) (by simp [hdrop])
        simpa [hdrop] using hnot
      obtain ⟨t, ht⟩ := List.rdropWhile_prefix p (l := l.dropWhile p)
      rw [trim] at ha
      rw [List.head?_eq_some_iff] at ha
      obtain ⟨l'', hl''⟩ := ha
      rw [hl'', hdrop, List.cons_append] at ht
      rw [(List.cons.inj ht).1]
      exact hb
  last a ha := by
    have hne : trim p l ≠ [] := by
      intro hnil
      simp [hnil] at ha
    have hnot := List.rdropWhile_last_not p (l.dropWhile p) hne
    rw [List.getLast?_eq_some_getLast hne, Option.some.injEq] at ha
    rw [← ha]
    exact Bool.eq_false_iff.2 hnot

theorem trim_eq_self (h : Bare p l) : trim p l = l := by
  rw [trim, dropWhile_eq_self h.head, rdropWhile_eq_self h.last]

theorem trim_cons_of_pos (h : p a = true) (l : List α) : trim p (a :: l) = trim p l := by
  rw [trim, List.dropWhile_cons_of_pos h, trim]

theorem trim_append_left {pad : List α} (h : ∀ a ∈ pad, p a = true) (l : List α) :
    trim p (pad ++ l) = trim p l := by
  rw [trim, List.dropWhile_append_of_pos h, trim]

/-- A bare list with `p` around it. -/
theorem trim_pad {before after : List α} (hbefore : ∀ a ∈ before, p a = true)
    (hafter : ∀ a ∈ after, p a = true) (h : Bare p l) : trim p (before ++ l ++ after) = l := by
  rw [List.append_assoc, trim_append_left hbefore]
  cases l with
  | nil => simpa [trim] using fun a ha => hafter a ((List.dropWhile_sublist p).subset ha)
  | cons a l =>
    rw [trim, List.cons_append, List.dropWhile_cons_of_neg (by simp [h.head a rfl]), ← List.cons_append,
      rdropWhile_append hafter, rdropWhile_eq_self h.last]

end Trimming
