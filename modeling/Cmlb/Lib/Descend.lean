import Mathlib.Data.List.Perm.Basic

/-!
# Finite trees that are given by their children

`kids` has the children of a node. `Below kids es items` says that the trees at the nodes `es` are
finite, and that `items` are all their nodes. A traversal holds the nodes it has still to visit, takes
one of them (`Below.pop`) and goes on with its children in its place.
-/

namespace Descend

open scoped List

variable {α : Type} {kids kids' : α → List α} {e : α} {es es' items items' : List α}

inductive Below (kids : α → List α) : List α → List α → Prop
  | nil : Below kids [] []
  | cons {e : α} {es sub items : List α} (hsub : Below kids (kids e) sub) (h : Below kids es items) :
      Below kids (e :: es) (e :: (sub ++ items))

namespace Below

theorem append (h : Below kids es items) (h' : Below kids es' items') :
    Below kids (es ++ es') (items ++ items') := by
  induction h with
  | nil => exact h'
  | cons hsub _ _ ih =>
    rw [List.cons_append, List.cons_append, List.append_assoc]
    exact .cons hsub ih

theorem append_inv (h : Below kids (es ++ es') items) :
    ∃ a b, items = a ++ b ∧ Below kids es a ∧ Below kids es' b := by
  induction es generalizing items with
  | nil => exact ⟨[], items, rfl, .nil, h⟩
  | cons e es ih =>
    cases h with
    | cons hsub h =>
      obtain ⟨a, b, rfl, ha, hb⟩ := ih h
      exact ⟨_, b, by simp, .cons hsub ha, hb⟩

/-- The order of the siblings does not matter. -/
theorem perm (h : Below kids es items) (hp : es.Perm es') :
    ∃ items', items.Perm items' ∧ Below kids es' items' := by
  induction hp generalizing items with
  | nil => exact ⟨items, .rfl, h⟩
  | cons e _ ih =>
    cases h with
    | cons hsub h =>
      obtain ⟨items', hitems, h'⟩ := ih h
      exact ⟨_, (hitems.append_left _).cons e, .cons hsub h'⟩
  | swap e e' l =>
    cases h with
    | @cons _ _ sub' _ hsub' h =>
      cases h with
      | @cons _ _ sub items hsub h =>
        refine ⟨_, ?_, .cons hsub (.cons hsub' h)⟩
        have hmiddle : (sub' ++ e :: (sub ++ items)).Perm (e :: (sub' ++ (sub ++ items))) :=
          List.perm_middle
        have hmiddle' : (sub ++ e' :: (sub' ++ items)).Perm (e' :: (sub ++ (sub' ++ items))) :=
          List.perm_middle
        have hsubs : (sub' ++ (sub ++ items)).Perm (sub ++ (sub' ++ items)) := by
          rw [← List.append_assoc, ← List.append_assoc]
          exact List.perm_append_comm.append_right items
        calc e' :: (sub' ++ e :: (sub ++ items))
          _ ~ e' :: e :: (sub' ++ (sub ++ items)) := hmiddle.cons e'
          _ ~ e' :: e :: (sub ++ (sub' ++ items)) := (hsubs.cons e).cons e'
          _ ~ e :: e' :: (sub ++ (sub' ++ items)) := .swap e e' _
          _ ~ e :: (sub ++ e' :: (sub' ++ items)) := (hmiddle'.symm).cons e
  | trans _ _ ih₁ ih₂ =>
    obtain ⟨items₁, hp₁, h₁⟩ := ih₁ h
    obtain ⟨items₂, hp₂, h₂⟩ := ih₂ h₁
    exact ⟨items₂, hp₁.trans hp₂, h₂⟩

/-- A node is visited, and its children take its place. -/
theorem pop (h : Below kids (e :: es) items) (hp : (kids e).Perm es') :
    ∃ items', items.Perm (e :: items') ∧ Below kids (es' ++ es) items' := by
  cases h with
  | cons hsub h =>
    obtain ⟨sub', hsubs, hsub'⟩ := hsub.perm hp
    exact ⟨sub' ++ _, (hsubs.append_right _).cons e, hsub'.append h⟩

theorem of_leaves (hes : ∀ e ∈ es, kids e = []) : Below kids es es := by
  induction es with
  | nil => exact .nil
  | cons e es ih =>
    obtain ⟨he, hrest⟩ := List.forall_mem_cons.1 hes
    have hnone : Below kids (kids e) [] := by
      rw [he]
      exact .nil
    exact .cons hnone (ih hrest)

theorem leaves (h : Below kids es items) (hes : ∀ e ∈ es, kids e = []) : items = es := by
  induction h with
  | nil => rfl
  | @cons e es sub items hsub h _ ih =>
    rw [hes e List.mem_cons_self] at hsub
    cases hsub
    rw [List.nil_append, ih fun e' he' => hes e' (List.mem_cons_of_mem e he')]

theorem sublist (h : Below kids es items) : es.Sublist items := by
  induction h with
  | nil => exact .refl []
  | cons _ _ _ ih => exact (ih.trans (List.sublist_append_right _ _)).cons_cons _

theorem subset (h : Below kids es items) : es ⊆ items := h.sublist.subset

/-- What passes from a node to its children holds of all nodes. -/
theorem forall_mem (h : Below kids es items) {p : α → Prop} (hes : ∀ e ∈ es, p e)
    (hkids : ∀ e, p e → ∀ k ∈ kids e, p k) : ∀ x ∈ items, p x := by
  induction h with
  | nil => exact hes
  | @cons e es sub items _ _ ihsub ih =>
    obtain ⟨he, hrest⟩ := List.forall_mem_cons.1 hes
    refine List.forall_mem_cons.2 ⟨he, ?_⟩
    exact List.forall_mem_append.2 ⟨ihsub (hkids e he), ih hrest⟩

/-- The children of a node are nodes. -/
theorem kids_subset (h : Below kids es items) {x : α} (hx : x ∈ items) : kids x ⊆ items := by
  induction h with
  | nil => exact absurd hx List.not_mem_nil
  | @cons e es sub items hsub h ihsub ih =>
    intro y hy
    rcases List.mem_cons.1 hx with rfl | hx
    · exact List.mem_cons_of_mem _ (List.mem_append_left _ (hsub.subset hy))
    · rcases List.mem_append.1 hx with hx | hx
      · exact List.mem_cons_of_mem _ (List.mem_append_left _ (ihsub hx hy))
      · exact List.mem_cons_of_mem _ (List.mem_append_right _ (ih hx hy))

theorem congr (h : Below kids es items) (hkids : ∀ x ∈ items, kids' x = kids x) :
    Below kids' es items := by
  induction h with
  | nil => exact .nil
  | @cons e es sub items hsub h ihsub ih =>
    obtain ⟨he, hrest⟩ := List.forall_mem_cons.1 hkids
    rw [List.forall_mem_append] at hrest
    have hsub' : Below kids' (kids' e) sub := by
      rw [he]
      exact ihsub hrest.1
    exact .cons hsub' (ih hrest.2)

/-- The leaves among the nodes that wait are done with at once. -/
theorem skip_leaves (h : Below kids (es ++ es') items) (p : α → Bool)
    (hes : ∀ e ∈ es, p e = false → kids e = []) :
    ∃ items', items.Perm (es.filter (fun e => !p e) ++ items') ∧
      Below kids ((es.filter p).reverse ++ es') items' := by
  have hsplit : (es ++ es').Perm (es.filter (fun e => !p e) ++ ((es.filter p).reverse ++ es')) := by
    rw [← List.append_assoc]
    refine List.Perm.append_right es' ?_
    calc es
      _ ~ es.filter p ++ es.filter (fun e => !p e) := (List.filter_append_perm p es).symm
      _ ~ es.filter (fun e => !p e) ++ es.filter p := List.perm_append_comm
      _ ~ es.filter (fun e => !p e) ++ (es.filter p).reverse :=
        (List.reverse_perm _).symm.append_left _
  obtain ⟨items₁, hp₁, h₁⟩ := h.perm hsplit
  obtain ⟨a, b, rfl, ha, hb⟩ := h₁.append_inv
  have hleaves : a = es.filter (fun e => !p e) := by
    refine ha.leaves fun e he => ?_
    rw [List.mem_filter] at he
    exact hes e he.1 (by simpa using he.2)
  rw [hleaves] at hp₁
  exact ⟨b, hp₁, hb⟩

/-- A round of a traversal that is done with the leaves among the children at once and stacks the
others: `rest` are the nodes that are left. -/
theorem visit {ks : List α} (h : Below kids (e :: es) items) (hp : (kids e).Perm ks) (p : α → Bool)
    (hks : ∀ x ∈ ks, p x = false → kids x = []) :
    ∃ rest, items.Perm (e :: (ks.filter (fun x => !p x) ++ rest)) ∧
      Below kids ((ks.filter p).reverse ++ es) rest ∧ ∃ l, items.Perm (e :: l) ∧ (ks ++ es).Sublist l := by
  obtain ⟨l, hl, hbelow⟩ := h.pop hp
  obtain ⟨rest, hrest, hbelow'⟩ := hbelow.skip_leaves p hks
  exact ⟨rest, hl.trans (hrest.cons e), hbelow', l, hl, hbelow.sublist⟩

end Below

end Descend
