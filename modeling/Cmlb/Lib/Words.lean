import Mathlib.Data.List.Basic

/-!
# The words of a text

Pieces are spaced by runs of separators. A word is a piece that is not empty and has no separator. A
text has one list of words (`exists_wordsOf`, `WordsOf.unique`), and those are its longest parts without
a separator, since a separator or an end of the text stands on either side of each.
-/

namespace Words

variable {α : Type*}

/-- Every piece has a run of separators after it, and only the last run may be empty. -/
inductive Followed (sep : α → Bool) : List (List α) → List α → Prop
  | nil : Followed sep [] []
  | cons {piece run rest pieces} : (∀ a ∈ run, sep a = true) → (pieces ≠ [] → run ≠ []) →
      Followed sep pieces rest → Followed sep (piece :: pieces) (piece ++ (run ++ rest))

/-- The first piece may have a run before it, too. -/
def Spaced (sep : α → Bool) (pieces : List (List α)) (text : List α) : Prop :=
  ∃ before rest, (∀ a ∈ before, sep a = true) ∧ Followed sep pieces rest ∧ text = before ++ rest

structure IsWord (sep : α → Bool) (piece : List α) : Prop where
  ne_nil : piece ≠ []
  not_sep : ∀ a ∈ piece, sep a = false

structure WordsOf (sep : α → Bool) (words : List (List α)) (text : List α) : Prop where
  spaced : Spaced sep words text
  word : ∀ w ∈ words, IsWord sep w

variable {sep p : α → Bool} {a : α} {words words' : List (List α)} {text u u' v v' : List α}

/-! ### Heads -/

theorem Followed.eq_nil (h : Followed sep [] text) : text = [] := by
  cases h
  rfl

/-- After a piece comes a separator, if anything does. -/
theorem Followed.head_run {run rest : List α} (h : Followed sep words rest)
    (hrun : ∀ a ∈ run, sep a = true) (hne : words ≠ [] → run ≠ []) :
    ∀ a ∈ (run ++ rest).head?, sep a = true := by
  rintro a ha
  cases run with
  | nil =>
    have hwords : words = [] := by
      by_contra hnot
      exact hne hnot rfl
    subst hwords
    rw [h.eq_nil] at ha
    simp at ha
  | cons b run =>
    obtain rfl : b = a := by simpa using ha
    exact hrun b List.mem_cons_self

/-- A word stands first, if anything does. -/
theorem Followed.head_word (h : Followed sep words text) (hwords : ∀ w ∈ words, IsWord sep w) :
    ∀ a ∈ text.head?, sep a = false := by
  rintro a ha
  rcases h with _ | @⟨piece, run, rest, pieces, hrun, hne, hrest⟩
  · simp at ha
  · have hword := hwords piece List.mem_cons_self
    obtain ⟨b, piece, rfl⟩ := List.exists_cons_of_ne_nil hword.ne_nil
    obtain rfl : b = a := by simpa using ha
    exact hword.not_sep b List.mem_cons_self

/-- Where a run that is as long as it can be ends. -/
theorem run_unique (hu : ∀ a ∈ u, p a = true) (hu' : ∀ a ∈ u', p a = true)
    (hv : ∀ a ∈ v.head?, p a = false) (hv' : ∀ a ∈ v'.head?, p a = false) (h : u ++ v = u' ++ v') :
    u = u' ∧ v = v' := by
  induction u generalizing u' with
  | nil =>
    cases u' with
    | nil => exact ⟨rfl, h⟩
    | cons a u' =>
      have hfalse := hv a (by rw [← List.nil_append v, h]; rfl)
      simp [hu' a List.mem_cons_self] at hfalse
  | cons a u ih =>
    cases u' with
    | nil =>
      have hfalse := hv' a (by rw [← List.nil_append v', ← h]; rfl)
      simp [hu a List.mem_cons_self] at hfalse
    | cons b u' =>
      simp only [List.cons_append, List.cons.injEq] at h
      obtain ⟨rfl, h⟩ := h
      obtain ⟨rfl, rfl⟩ := ih (fun c hc => hu c (List.mem_cons_of_mem a hc))
        (fun c hc => hu' c (List.mem_cons_of_mem a hc)) h
      exact ⟨rfl, rfl⟩

/-! ### Which words a text has -/

theorem Followed.unique {rest rest' : List α} (h : Followed sep words rest)
    (h' : Followed sep words' rest') (hwords : ∀ w ∈ words, IsWord sep w)
    (hwords' : ∀ w ∈ words', IsWord sep w) (hu : ∀ a ∈ u, sep a = true) (hu' : ∀ a ∈ u', sep a = true)
    (heq : u ++ rest = u' ++ rest') : words = words' := by
  induction h generalizing u u' words' rest' with
  | nil =>
    obtain ⟨-, hrest⟩ := run_unique hu hu' (by simp) (h'.head_word hwords') heq
    rcases h' with _ | ⟨-, -, -⟩
    · rfl
    · exact absurd (List.append_eq_nil_iff.1 hrest.symm).1 (hwords' _ List.mem_cons_self).ne_nil
  | @cons piece run rest pieces hrun hne hrest ih =>
    have hcons : Followed sep (piece :: pieces) (piece ++ (run ++ rest)) := .cons hrun hne hrest
    obtain ⟨-, hbody⟩ := run_unique hu hu' (hcons.head_word hwords) (h'.head_word hwords') heq
    have hword := hwords _ List.mem_cons_self
    rcases h' with _ | @⟨piece', run', rest', pieces', hrun', hne', hrest'⟩
    · exact absurd (List.append_eq_nil_iff.1 hbody).1 hword.ne_nil
    · have hword' := hwords' _ List.mem_cons_self
      obtain ⟨rfl, hafter⟩ := run_unique (p := fun a => !sep a) (by simpa using hword.not_sep)
        (by simpa using hword'.not_sep) (by simpa using hrest.head_run hrun hne)
        (by simpa using hrest'.head_run hrun' hne') hbody
      rw [ih hrest' (fun w hw => hwords w (List.mem_cons_of_mem _ hw))
        (fun w hw => hwords' w (List.mem_cons_of_mem _ hw)) hrun hrun' hafter]

theorem WordsOf.unique (h : WordsOf sep words text) (h' : WordsOf sep words' text) :
    words = words' := by
  obtain ⟨⟨before, rest, hbefore, hrest, rfl⟩, hword⟩ := h
  obtain ⟨⟨before', rest', hbefore', hrest', heq⟩, hword'⟩ := h'
  exact hrest.unique hrest' hword hword' hbefore hbefore' heq

/-- A letter before a text begins a word or makes the first one longer. -/
theorem WordsOf.exists_cons (ha : sep a = false) (h : WordsOf sep words text) :
    ∃ words', WordsOf sep words' (a :: text) := by
  obtain ⟨⟨before, rest, hbefore, hrest, rfl⟩, hword⟩ := h
  by_cases hnil : before = []
  · subst hnil
    rcases hrest with _ | @⟨piece, run, rest, pieces, hrun, hne, hrest⟩
    · have hlast : Followed sep [[a]] ([a] ++ ([] ++ [])) := .cons (by simp) (by simp) .nil
      exact ⟨[[a]], ⟨[], _, by simp, hlast, rfl⟩, by simpa using ⟨by simp, by simpa using ha⟩⟩
    · have hfirst := hword piece List.mem_cons_self
      refine ⟨(a :: piece) :: pieces, ⟨[], _, by simp, .cons hrun hne hrest, rfl⟩, ?_⟩
      rintro w hw
      rcases List.mem_cons.1 hw with rfl | hw
      · exact ⟨by simp, by simpa using ⟨ha, hfirst.not_sep⟩⟩
      · exact hword w (List.mem_cons_of_mem _ hw)
  · refine ⟨[a] :: words, ⟨[], _, by simp, .cons hbefore (fun _ => hnil) hrest, rfl⟩, ?_⟩
    rintro w hw
    rcases List.mem_cons.1 hw with rfl | hw
    · exact ⟨by simp, by simpa using ha⟩
    · exact hword w hw

theorem exists_wordsOf (sep : α → Bool) (text : List α) : ∃ words, WordsOf sep words text := by
  induction text with
  | nil => exact ⟨[], ⟨[], [], by simp, .nil, rfl⟩, by simp⟩
  | cons a text ih =>
    obtain ⟨words, h⟩ := ih
    by_cases ha : sep a = true
    · obtain ⟨before, rest, hbefore, hrest, rfl⟩ := h.spaced
      exact ⟨words, ⟨a :: before, rest, by simpa using ⟨ha, hbefore⟩, hrest, rfl⟩, h.word⟩
    · exact h.exists_cons (by simpa using ha)

end Words
