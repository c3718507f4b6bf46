import Mathlib.Data.List.Infix

/-!
# Texts cut at a delimiter

`segments d s` are the pieces of `s` between the occurrences of `d`, taken from the left without
overlap. A delimiter whose first letter it has only once cannot overlap another occurrence of itself,
and then what stands before an occurrence comes out whole exactly if it has no occurrence of its own
(`segments_append`, `exists_first`).
-/

namespace Delimited

variable {α : Type*} {c : α} {d u v s : List α}

/-! ### First occurrences -/

/-- The occurrence of `d` after `u` is the first one. -/
def First (d u v : List α) : Prop := ∀ p s, u ++ (d ++ v) = p ++ (d ++ s) → u.length ≤ p.length

/-- Nothing before it has the first letter of the delimiter. -/
theorem first_of_not_mem (hc : c ∉ u) : First (c :: d) u v := by
  intro p s h
  by_contra hlt
  have hget : (u ++ (c :: d ++ v))[p.length]? = some c := by
    rw [h]
    simp
  rw [List.getElem?_append_left (not_le.1 hlt)] at hget
  exact hc (List.mem_of_getElem? hget)

theorem first_of_not_isInfix (hc : c ∉ d) (hu : ¬ c :: d <:+: u) : First (c :: d) u v := by
  intro p s h
  by_contra hlt
  rw [not_le] at hlt
  obtain ⟨w, rfl⟩ : p <+: u :=
    List.prefix_of_prefix_length_le ⟨_, h.symm⟩ (List.prefix_append _ _) hlt.le
  rw [List.append_assoc, List.append_cancel_left_eq] at h
  rw [List.length_append] at hlt
  rcases Nat.lt_or_ge w.length (c :: d).length with hshort | hlong
  · -- the delimiter's own first letter stands inside of the other occurrence
    have hget : (c :: d ++ s)[w.length]? = some c := by
      rw [← h]
      simp
    obtain ⟨k, hk⟩ : ∃ k, w.length = k + 1 := ⟨w.length - 1, by omega⟩
    rw [List.getElem?_append_left hshort, hk, List.getElem?_cons_succ] at hget
    exact hc (List.mem_of_getElem? hget)
  · have hpre : c :: d <+: w :=
      List.prefix_of_prefix_length_le ⟨_, rfl⟩ (h ▸ List.prefix_append _ _) hlong
    exact hu (hpre.isInfix.trans (List.suffix_append p w).isInfix)

/-- What has an occurrence of the delimiter has a first one. -/
theorem exists_first (h : c :: d <:+: s) : ∃ u v, s = u ++ (c :: d ++ v) ∧ ¬ c :: d <:+: u := by
  have hnil : ¬ c :: d <:+: [] := by simp
  induction s with
  | nil => exact absurd h hnil
  | cons x s ih =>
    by_cases hpre : c :: d <+: x :: s
    · obtain ⟨v, hv⟩ := hpre
      exact ⟨[], v, hv.symm, hnil⟩
    · obtain ⟨u, v, rfl, hu⟩ := ih ((List.infix_cons_iff.1 h).resolve_left hpre)
      refine ⟨x :: u, v, rfl, fun hin => ?_⟩
      rcases List.infix_cons_iff.1 hin with hin | hin
      · exact hpre (hin.trans (List.prefix_append (x :: u) _))
      · exact hu hin

theorem not_isInfix_append (hc : c ∉ u) (hv : ¬ c :: d <:+: v) : ¬ c :: d <:+: u ++ v := by
  induction u with
  | nil => exact hv
  | cons x u ih =>
    rw [List.cons_append, List.infix_cons_iff]
    rintro (hpre | hin)
    · have hx : c = x := (List.cons_prefix_cons.1 hpre).1
      exact hc (hx ▸ List.mem_cons_self)
    · exact ih (fun hmem => hc (List.mem_cons_of_mem x hmem)) hin

/-! ### Segments -/

variable [DecidableEq α]

theorem eq_of_dropInfix? (h : s.dropInfix? d = some (u, v)) : s = u ++ (d ++ v) := by
  obtain ⟨⟨d', hs, hd⟩, -⟩ := List.dropInfix?_eq_some_iff.1 h
  rw [hs, eq_of_beq hd, List.append_assoc]

theorem First.dropInfix? (h : First d u v) : (u ++ (d ++ v)).dropInfix? d = some (u, v) := by
  refine List.dropInfix?_eq_some_iff.2 ⟨⟨d, by rw [List.append_assoc], beq_self_eq_true d⟩, ?_⟩
  intro p d' s hs hd'
  rw [eq_of_beq hd', List.append_assoc] at hs
  exact h p s hs

theorem dropInfix?_eq_none (h : ¬ d <:+: s) : s.dropInfix? d = none := by
  cases hs : s.dropInfix? d with
  | none => rfl
  | some uv =>
    have heq := eq_of_dropInfix? (u := uv.1) (v := uv.2) hs
    exact absurd ⟨uv.1, uv.2, by rw [heq, List.append_assoc]⟩ h

def segments (d s : List α) : List (List α) :=
  match _h : s.dropInfix? d with
  | none => [s]
  | some (u, v) => if _hd : d = [] then [s] else u :: segments d v
termination_by s.length
decreasing_by
  have hlen := congrArg List.length (eq_of_dropInfix? _h)
  have hpos := List.length_pos_iff.2 _hd
  simp only [List.length_append] at hlen
  omega

theorem segments_of_not_isInfix (h : ¬ d <:+: s) : segments d s = [s] := by
  rw [segments]
  split
  · rfl
  · rename_i hs
    rw [dropInfix?_eq_none h] at hs
    cases hs

theorem segments_append (hc : c ∉ d) (hu : ¬ c :: d <:+: u) :
    segments (c :: d) (u ++ (c :: d ++ v)) = u :: segments (c :: d) v := by
  have hfirst := (first_of_not_isInfix (v := v) hc hu).dropInfix?
  rw [segments]
  split
  · rename_i hs
    rw [hfirst] at hs
    cases hs
  · rename_i u' v' hs
    rw [hfirst] at hs
    cases hs
    rfl

end Delimited
