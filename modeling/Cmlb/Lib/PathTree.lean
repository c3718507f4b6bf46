import Mathlib.Data.List.Nodup

/-!
# Trees of named entries

A directory is a list of entries, each a leaf of some kind or a directory again, under a name.
`Has es p k` says what stands at the path `p` below the entries `es`: a leaf (`some`) or a directory
(`none`). A walk is a list of such paths. `PreOrder p es vs` is every walk that takes the entries of each
directory in any order and goes into a directory right after it has met it, where `p` is the path of
the entries. Such a walk meets every entry (`PreOrder.mem_iff`) once (`PreOrder.nodup`), and a directory
before what is in it (`PreOrder.parentsFirst`).
-/

inductive PathTree (ν κ : Type)
  | leaf (k : κ)
  | node (entries : List (ν × PathTree ν κ))

namespace PathTree

variable {ν κ : Type}

inductive Has : List (ν × PathTree ν κ) → List ν → Option κ → Prop
  | leaf {es : List (ν × PathTree ν κ)} {x : ν} {k : κ} (h : (x, .leaf k) ∈ es) : Has es [x] (some k)
  | node {es sub : List (ν × PathTree ν κ)} {x : ν} (h : (x, .node sub) ∈ es) : Has es [x] none
  | inside {es sub : List (ν × PathTree ν κ)} {x : ν} {p : List ν} {k : Option κ}
      (h : (x, .node sub) ∈ es) (hp : Has sub p k) : Has es (x :: p) k

/-- No directory has two entries of one name. -/
inductive Distinct : List (ν × PathTree ν κ) → Prop
  | intro {es : List (ν × PathTree ν κ)} (names : (es.map Prod.fst).Nodup)
      (sub : ∀ x sub, (x, PathTree.node sub) ∈ es → Distinct sub) : Distinct es

abbrev Visit (ν κ : Type) := List ν × Option κ

inductive PreOrder : List ν → List (ν × PathTree ν κ) → List (Visit ν κ) → Prop
  | nil (p : List ν) : PreOrder p [] []
  | leaf {p : List ν} {l₁ l₂ : List (ν × PathTree ν κ)} {vs : List (Visit ν κ)} (x : ν) (k : κ)
      (h : PreOrder p (l₁ ++ l₂) vs) :
      PreOrder p (l₁ ++ (x, .leaf k) :: l₂) ((p ++ [x], some k) :: vs)
  | node {p : List ν} {l₁ l₂ sub : List (ν × PathTree ν κ)} {us vs : List (Visit ν κ)} (x : ν)
      (hsub : PreOrder (p ++ [x]) sub us) (h : PreOrder p (l₁ ++ l₂) vs) :
      PreOrder p (l₁ ++ (x, .node sub) :: l₂) ((p ++ [x], none) :: (us ++ vs))

/-- The paths of a walk where `f` holds of what is there. -/
def picked (f : Option κ → Bool) (vs : List (Visit ν κ)) : List (List ν) :=
  (vs.filter fun v => f v.2).map Prod.fst

def dirs (vs : List (Visit ν κ)) : List (List ν) := picked Option.isNone vs

def ParentsFirst (known : List (List ν)) : List (Visit ν κ) → Prop
  | [] => True
  | v :: vs => v.1.dropLast ∈ known ∧ ParentsFirst (dirs [v] ++ known) vs

variable {es l₁ l₂ sub : List (ν × PathTree ν κ)} {us vs : List (Visit ν κ)} {p q : List ν} {k : Option κ}
  {x : ν} {known known' : List (List ν)}

theorem Has.exists_cons (h : Has es p k) : ∃ x q, p = x :: q ∧ x ∈ es.map Prod.fst := by
  cases h with
  | leaf h | node h | inside h => exact ⟨_, _, rfl, List.mem_map_of_mem h⟩

theorem mem_insert {a b : ν × PathTree ν κ} : b ∈ l₁ ++ a :: l₂ ↔ b = a ∨ b ∈ l₁ ++ l₂ := by
  simp only [List.mem_append, List.mem_cons]
  tauto

theorem has_insert_leaf {c : κ} : Has (l₁ ++ (x, .leaf c) :: l₂) q k ↔
    (q = [x] ∧ k = some c) ∨ Has (l₁ ++ l₂) q k := by
  constructor
  · rintro (h | h | ⟨h, hp⟩)
    · rcases mem_insert.1 h with heq | h
      · cases heq
        exact .inl ⟨rfl, rfl⟩
      · exact .inr (.leaf h)
    · rcases mem_insert.1 h with heq | h
      · cases heq
      · exact .inr (.node h)
    · rcases mem_insert.1 h with heq | h
      · cases heq
      · exact .inr (.inside h hp)
  · rintro (⟨rfl, rfl⟩ | h)
    · exact .leaf (mem_insert.2 (.inl rfl))
    · cases h with
      | leaf h => exact .leaf (mem_insert.2 (.inr h))
      | node h => exact .node (mem_insert.2 (.inr h))
      | inside h hp => exact .inside (mem_insert.2 (.inr h)) hp

theorem has_insert_node : Has (l₁ ++ (x, .node sub) :: l₂) q k ↔
    (q = [x] ∧ k = none) ∨ (∃ r, q = x :: r ∧ Has sub r k) ∨ Has (l₁ ++ l₂) q k := by
  constructor
  · rintro (h | h | ⟨h, hp⟩)
    · rcases mem_insert.1 h with heq | h
      · cases heq
      · exact .inr (.inr (.leaf h))
    · rcases mem_insert.1 h with heq | h
      · cases heq
        exact .inl ⟨rfl, rfl⟩
      · exact .inr (.inr (.node h))
    · rcases mem_insert.1 h with heq | h
      · cases heq
        exact .inr (.inl ⟨_, rfl, hp⟩)
      · exact .inr (.inr (.inside h hp))
  · rintro (⟨rfl, rfl⟩ | ⟨r, rfl, hr⟩ | h)
    · exact .node (mem_insert.2 (.inl rfl))
    · exact .inside (mem_insert.2 (.inl rfl)) hr
    · cases h with
      | leaf h => exact .leaf (mem_insert.2 (.inr h))
      | node h => exact .node (mem_insert.2 (.inr h))
      | inside h hp => exact .inside (mem_insert.2 (.inr h)) hp

/-- A walk meets what is there, under its path. -/
theorem PreOrder.mem_iff (h : PreOrder p es vs) : (q, k) ∈ vs ↔ ∃ r, q = p ++ r ∧ Has es r k := by
  induction h generalizing q k with
  | nil p =>
    simp only [List.not_mem_nil, false_iff, not_exists, not_and]
    rintro r - (h | h | ⟨h, -⟩) <;> cases h
  | @leaf p l₁ l₂ vs x c h ih =>
    rw [List.mem_cons, ih]
    constructor
    · rintro (heq | ⟨r, rfl, hr⟩)
      · cases heq
        exact ⟨[x], rfl, has_insert_leaf.2 (.inl ⟨rfl, rfl⟩)⟩
      · exact ⟨r, rfl, has_insert_leaf.2 (.inr hr)⟩
    · rintro ⟨r, rfl, hr⟩
      rcases has_insert_leaf.1 hr with ⟨rfl, rfl⟩ | hr
      · exact .inl rfl
      · exact .inr ⟨r, rfl, hr⟩
  | @node p l₁ l₂ sub us vs x hsub h ihsub ih =>
    rw [List.mem_cons, List.mem_append, ihsub, ih]
    constructor
    · rintro (heq | ⟨r, rfl, hr⟩ | ⟨r, rfl, hr⟩)
      · cases heq
        exact ⟨[x], rfl, has_insert_node.2 (.inl ⟨rfl, rfl⟩)⟩
      · exact ⟨x :: r, by simp, has_insert_node.2 (.inr (.inl ⟨r, rfl, hr⟩))⟩
      · exact ⟨r, rfl, has_insert_node.2 (.inr (.inr hr))⟩
    · rintro ⟨r, rfl, hr⟩
      rcases has_insert_node.1 hr with ⟨rfl, rfl⟩ | ⟨r', rfl, hr'⟩ | hr
      · exact .inl rfl
      · exact .inr (.inl ⟨r', by simp, hr'⟩)
      · exact .inr (.inr ⟨r, rfl, hr⟩)

theorem Distinct.of_insert {t : PathTree ν κ} (h : Distinct (l₁ ++ (x, t) :: l₂)) :
    x ∉ (l₁ ++ l₂).map Prod.fst ∧ Distinct (l₁ ++ l₂) := by
  obtain ⟨names, hsub⟩ := h
  rw [List.map_append, List.map_cons, List.nodup_middle, ← List.map_append, List.nodup_cons] at names
  exact ⟨names.1, .intro names.2 fun y sub hy => hsub y sub (mem_insert.2 (.inr hy))⟩

/-- A walk meets no path twice. -/
theorem PreOrder.nodup (h : PreOrder p es vs) (hes : Distinct es) : (vs.map Prod.fst).Nodup := by
  -- what a walk meets is under its path, and under a name of its own
  have hhead : ∀ {p es vs q} {x : ν}, PreOrder p es vs → x ∉ es.map Prod.fst →
      p ++ x :: q ∉ vs.map (Prod.fst : Visit ν κ → List ν) := by
    intro p es vs q x h hx hmem
    obtain ⟨⟨q', k⟩, hv, hq⟩ := List.mem_map.1 hmem
    obtain ⟨r, rfl, hr⟩ := h.mem_iff.1 hv
    obtain ⟨y, r', rfl, hy⟩ := hr.exists_cons
    have hsame := List.append_cancel_left hq
    cases hsame
    exact hx hy
  induction h with
  | nil p => exact List.nodup_nil
  | @leaf p l₁ l₂ vs x c h ih =>
    obtain ⟨hx, hrest⟩ := hes.of_insert
    rw [List.map_cons, List.nodup_cons]
    exact ⟨hhead h hx, ih hrest⟩
  | @node p l₁ l₂ sub us vs x hsub h ihsub ih =>
    obtain ⟨hx, hrest⟩ := hes.of_insert
    have hdistinct : Distinct sub := by
      obtain ⟨-, hsub⟩ := hes
      exact hsub x sub (mem_insert.2 (.inl rfl))
    have hbelow : ∀ q ∈ us.map Prod.fst, ∃ y r, q = p ++ x :: y :: r := by
      intro q hq
      obtain ⟨⟨q', k⟩, hv, rfl⟩ := List.mem_map.1 hq
      obtain ⟨r, rfl, hr⟩ := hsub.mem_iff.1 hv
      obtain ⟨y, r', rfl, -⟩ := hr.exists_cons
      exact ⟨y, r', by simp⟩
    rw [List.map_cons, List.map_append, List.nodup_cons, List.nodup_append, List.mem_append, not_or]
    refine ⟨⟨fun hq => ?_, hhead h hx⟩, ihsub hdistinct, ih hrest, ?_⟩
    · obtain ⟨y, r, hq⟩ := hbelow _ hq
      simp at hq
    · rintro q hq q' hq' rfl
      obtain ⟨y, r, rfl⟩ := hbelow q hq
      exact hhead h hx hq'

theorem ParentsFirst.mono (h : ParentsFirst known vs) (hk : ∀ q ∈ known, q ∈ known') :
    ParentsFirst known' vs := by
  induction vs generalizing known known' with
  | nil => trivial
  | cons v vs ih =>
    refine ⟨hk _ h.1, ih h.2 fun q hq => ?_⟩
    rcases List.mem_append.1 hq with hq | hq
    · exact List.mem_append_left _ hq
    · exact List.mem_append_right _ (hk q hq)

theorem ParentsFirst.append (hus : ParentsFirst known us) (hvs : ParentsFirst known vs) :
    ParentsFirst known (us ++ vs) := by
  induction us generalizing known with
  | nil => exact hvs
  | cons u us ih => exact ⟨hus.1, ih hus.2 (hvs.mono fun q hq => List.mem_append_right _ hq)⟩

/-- A walk meets a directory before what is in it. -/
theorem PreOrder.parentsFirst (h : PreOrder p es vs) (hp : p ∈ known) : ParentsFirst known vs := by
  induction h generalizing known with
  | nil p => trivial
  | leaf x c h ih => exact ⟨by simpa using hp, ih (List.mem_append_right _ hp)⟩
  | node x hsub h ihsub ih =>
    exact ⟨by simpa using hp, (ihsub (by simp [dirs, picked])).append (ih (List.mem_append_right _ hp))⟩

theorem mem_picked {f : Option κ → Bool} : q ∈ picked f vs ↔ ∃ k, (q, k) ∈ vs ∧ f k = true := by
  simp [picked]

theorem nodup_picked {f : Option κ → Bool} (h : (vs.map Prod.fst).Nodup) : (picked f vs).Nodup :=
  h.sublist (List.filter_sublist.map Prod.fst)

/-- What a walk from the top picks is what the tree has. -/
theorem PreOrder.mem_picked_iff {c : Option κ} {f : Option κ → Bool} (h : PreOrder [] es vs)
    (hf : ∀ k, f k = true ↔ k = c) : q ∈ picked f vs ↔ Has es q c := by
  rw [mem_picked]
  constructor
  · rintro ⟨k, hv, hk⟩
    obtain ⟨r, rfl, hr⟩ := h.mem_iff.1 hv
    rwa [(hf k).1 hk] at hr
  · intro hq
    exact ⟨c, h.mem_iff.2 ⟨q, rfl, hq⟩, (hf c).2 rfl⟩

end PathTree
