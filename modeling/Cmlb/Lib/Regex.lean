import Mathlib.Data.List.Basic
import Mathlib.Data.List.Induction
import Mathlib.Tactic.SplitIfs

/-!
# Backtracking search with regular expressions

A pattern is a row of items: single elements of a class, repetitions of a class, an optional element
and word edges, with one of them as the group that is captured. `search` finds the first place where a
pattern matches, and of the ways to match there the one that backtracking comes to first: a greedy
repetition takes as much as it can and a lazy one as little. The rules are for patterns that begin
with a literal: they match where a text `starts` with it, and nowhere in a text that is `Free` of it.
-/

namespace Regex

variable {α β : Type*}

inductive Item (α : Type*)
  | one (p : α → Bool)
  -- `p*`
  | many (p : α → Bool)
  -- `p*?`
  | few (p : α → Bool)
  | opt (p : α → Bool)
  -- `\b`
  | edge (word : α → Bool)

/-- As many as possible, such that `k` matches behind them. -/
def many (p : α → Bool) (k : Option α → List α → Option β) : Option α → List α → Option (List α × β)
  | prev, [] => (k prev []).map fun b => ([], b)
  | prev, c :: s =>
    match if p c then many p k (some c) s else none with
    | some x => some (c :: x.1, x.2)
    | none => (k prev (c :: s)).map fun b => ([], b)

/-- As few as possible. -/
def few (p : α → Bool) (k : Option α → List α → Option β) : Option α → List α → Option (List α × β)
  | prev, [] => (k prev []).map fun b => ([], b)
  | prev, c :: s =>
    match k prev (c :: s) with
    | some b => some ([], b)
    | none => if p c then (few p k (some c) s).map fun x => (c :: x.1, x.2) else none

def one (p : α → Bool) (k : Option α → List α → Option β) : List α → Option (List α × β)
  | [] => none
  | c :: s => if p c then (k (some c) s).map fun b => ([c], b) else none

/-- What the item matches behind the element `prev`, and what `k` says of the rest. -/
def Item.run (k : Option α → List α → Option β) (prev : Option α) (s : List α) :
    Item α → Option (List α × β)
  | one p => Regex.one p k s
  | many p => Regex.many p k prev s
  | few p => Regex.few p k prev s
  | opt p => (Regex.one p k s).or ((k prev s).map fun b => ([], b))
  | edge word =>
    if prev.any word != s.head?.any word then (k prev s).map fun b => ([], b) else none

def runAll (k : Option α → List α → Option β) : List (Item α) → Option α → List α →
    Option (List α × β)
  | [], prev, s => (k prev s).map fun b => ([], b)
  | i :: is, prev, s => (i.run (runAll k is) prev s).map fun x => (x.1 ++ x.2.1, x.2.2)

structure Pattern (α : Type*) where
  before : List (Item α)
  group : Item α
  after : List (Item α) := []

/-- What was skipped, what the three parts of the pattern match, and what is behind it. -/
structure Match (α : Type*) where
  skipped : List α
  front : List α
  group : List α
  back : List α
  rest : List α
deriving DecidableEq

def Match.whole (m : Match α) : List α := m.front ++ m.group ++ m.back

namespace Pattern

variable (r : Pattern α)

def matchAt (prev : Option α) (s : List α) : Option (Match α) :=
  (runAll (fun prev s => r.group.run (runAll (fun _ rest => some rest) r.after) prev s) r.before prev
    s).map fun x => ⟨[], x.1, x.2.1, x.2.2.1, x.2.2.2⟩

def search : Option α → List α → Option (Match α)
  | prev, [] => r.matchAt prev []
  | prev, c :: s =>
    match r.matchAt prev (c :: s) with
    | some m => some m
    | none => (search (some c) s).map fun m => { m with skipped := c :: m.skipped }

/-- One match after the other, as a `regex_iterator` finds them. -/
def searchAll : Nat → Option α → List α → List (Match α)
  | 0, _, _ => []
  | fuel + 1, prev, s =>
    match r.search prev s with
    | none => []
    | some m => m :: searchAll fuel (m.whole.getLast?.or prev) m.rest

end Pattern

/-! ### Literals -/

variable (same : α → α → Bool)

def lits (w : List α) : List (Item α) := w.map fun c => .one (same c)

def starts : List α → List α → Bool
  | [], _ => true
  | _ :: _, [] => false
  | c :: w, d :: s => same c d && starts w s

/-- Nowhere in the text does the literal `w` start, whatever stands behind the text. -/
def Free (w : List α) : List α → Prop
  | [] => True
  | c :: u => (∀ t, starts same w (c :: u ++ t) = false) ∧ Free w u

variable {same} {k : Option α → List α → Option β} {is : List (Item α)} {prev : Option α}
  {p : α → Bool} {w s t u v : List α} {c : α} {b : β}

/-- The element before what stands behind `c :: w`. -/
theorem getLast?_cons_or : (c :: w).getLast?.or prev = w.getLast?.or (some c) := by
  cases w using List.reverseRecOn with
  | nil => rfl
  | append_singleton w d => rw [← List.cons_append, List.getLast?_concat, List.getLast?_concat]; rfl

theorem starts_cons {d : α} : starts same (c :: w) (d :: s) = (same c d && starts same w s) := rfl

theorem starts_iff : starts same w s = true ↔
    ∃ v t, s = v ++ t ∧ List.Forall₂ (fun c d => same c d = true) w v := by
  induction w generalizing s with
  | nil => exact ⟨fun _ => ⟨[], s, rfl, .nil⟩, fun _ => rfl⟩
  | cons c w ih =>
    cases s with
    | nil =>
      refine iff_of_false Bool.false_ne_true ?_
      rintro ⟨v, t, hs, hv⟩
      rw [(List.append_eq_nil_iff.1 hs.symm).1] at hv
      cases hv
    | cons d s =>
      rw [starts_cons, Bool.and_eq_true, ih]
      constructor
      · rintro ⟨hd, v, t, rfl, hv⟩
        exact ⟨d :: v, t, rfl, .cons hd hv⟩
      · rintro ⟨_, t, hs, _ | ⟨hd, hv⟩⟩
        obtain ⟨rfl, rfl⟩ := List.cons.inj hs
        exact ⟨hd, _, t, rfl, hv⟩

theorem runAll_lits_cons {d : α} : runAll k (lits same (c :: w) ++ is) prev (d :: s) =
    if same c d then (runAll k (lits same w ++ is) (some d) s).map fun x => (d :: x.1, x.2) else none := by
  show (if same c d then _ else _ : Option _).map _ = _
  split_ifs
  · rw [Option.map_map]
    rfl
  · rfl

theorem runAll_lits_none (h : starts same w s = false) : runAll k (lits same w ++ is) prev s = none := by
  induction w generalizing prev s with
  | nil => cases h
  | cons c w ih =>
    cases s with
    | nil => rfl
    | cons d s =>
      rw [runAll_lits_cons]
      split_ifs with hd
      · rw [starts_cons, hd, Bool.true_and] at h
        rw [ih h]
        rfl
      · rfl

theorem runAll_lits (h : List.Forall₂ (fun c d => same c d = true) w v) (t : List α) :
    runAll k (lits same w ++ is) prev (v ++ t) =
      (runAll k is (v.getLast?.or prev) t).map fun x => (v ++ x.1, x.2) := by
  induction h generalizing prev with
  | nil => exact (congrFun Option.map_id _).symm
  | cons hd _ ih =>
    rw [List.cons_append, runAll_lits_cons, if_pos hd, ih, getLast?_cons_or, Option.map_map]
    rfl

theorem runAll_lits_last (h : List.Forall₂ (fun c d => same c d = true) w v) (t : List α) :
    runAll k (lits same w) prev (v ++ t) = (k (v.getLast?.or prev) t).map fun b => (v, b) := by
  rw [← List.append_nil (lits same w), runAll_lits h]
  show Option.map _ (Option.map _ _) = _
  rw [Option.map_map]
  exact congrArg (Option.map · _) (funext fun b => by rw [Function.comp_apply, List.append_nil])

theorem runAll_lits_last_none (h : starts same w s = false) :
    runAll k (lits same w) prev s = none := by
  rw [← List.append_nil (lits same w), runAll_lits_none h]

theorem free_append (hu : Free same w u) (hv : Free same w v) : Free same w (u ++ v) := by
  induction u with
  | nil => exact hv
  | cons c u ih =>
    refine ⟨fun t => ?_, ih hu.2⟩
    show starts same w ((c :: u) ++ v ++ t) = false
    rw [List.append_assoc]
    exact hu.1 (v ++ t)

theorem Free.starts (h : Free same w (u ++ v)) (hv : v ≠ []) (t : List α) :
    starts same w (v ++ t) = false := by
  induction u with
  | nil =>
    obtain ⟨c, v, rfl⟩ := List.exists_cons_of_ne_nil hv
    exact h.1 t
  | cons c u ih => exact ih h.2

/-- A literal does not start where there is nothing like its first element. -/
theorem free_of_head {a : α} (h : ∀ c ∈ u, same a c = false) : Free same (a :: w) u := by
  induction u with
  | nil => trivial
  | cons c u ih =>
    rw [List.forall_mem_cons] at h
    refine ⟨fun t => ?_, ih h.2⟩
    rw [List.cons_append, starts_cons, h.1, Bool.false_and]

/-! ### The other items -/

theorem runAll_edge {word : α → Bool} (h : (prev.any word != s.head?.any word) = true) :
    runAll k (.edge word :: is) prev s = runAll k is prev s := by
  show (if _ then _ else _ : Option _).map _ = _
  rw [if_pos h, Option.map_map]
  exact congrFun Option.map_id _

theorem runAll_one (h : p c = true) (s : List α) : runAll k (.one p :: is) prev (c :: s) =
    (runAll k is (some c) s).map fun x => (c :: x.1, x.2) := by
  show (if _ then _ else _ : Option _).map _ = _
  rw [if_pos h, Option.map_map]
  rfl

/-- A repetition of which there is nothing. -/
theorem runAll_many_of_head (h : ∀ c, s.head? = some c → p c = false) :
    runAll k (.many p :: is) prev s = runAll k is prev s := by
  have hnone : many p (runAll k is) prev s = (runAll k is prev s).map fun b => ([], b) := by
    cases s with
    | nil => rfl
    | cons c s => rw [many, h c rfl, if_neg Bool.false_ne_true]
  show (many p (runAll k is) prev s).map _ = _
  rw [hnone, Option.map_map]
  exact congrFun Option.map_id _

/-- A lazy repetition ends where the rest matches for the first time. -/
theorem few_append (hp : ∀ c ∈ u, p c = true) (hk : ∀ q, k q t = some b)
    (hnone : ∀ v w, u = v ++ w → w ≠ [] → ∀ q, k q (w ++ t) = none) (prev : Option α) :
    few p k prev (u ++ t) = some (u, b) := by
  induction u generalizing prev with
  | nil =>
    cases t with
    | nil => rw [List.nil_append, few, hk]; rfl
    | cons d t => rw [List.nil_append, few, hk]
  | cons c u ih =>
    rw [List.forall_mem_cons] at hp
    have hrest := ih hp.2 (fun v w hu => hnone (c :: v) w (congrArg (c :: ·) hu)) (some c)
    have hfirst := hnone [] (c :: u) rfl (List.cons_ne_nil _ _) prev
    rw [List.cons_append] at hfirst ⊢
    rw [few, hfirst]
    show (if p c then _ else _ : Option _) = _
    rw [if_pos hp.1, hrest]
    rfl

/-! ### Search -/

namespace Pattern

variable {r : Pattern α} {m : Match α} {fuel : ℕ}

/-- A stretch without a match is skipped. -/
theorem search_append (hnone : ∀ v w, u = v ++ w → w ≠ [] → ∀ q, r.matchAt q (w ++ t) = none)
    (prev : Option α) : r.search prev (u ++ t) =
      (r.search (u.getLast?.or prev) t).map fun m => { m with skipped := u ++ m.skipped } := by
  induction u generalizing prev with
  | nil => exact (congrFun Option.map_id _).symm
  | cons c u ih =>
    have hrest := ih (fun v w hu => hnone (c :: v) w (congrArg (c :: ·) hu)) (some c)
    have hfirst := hnone [] (c :: u) rfl (List.cons_ne_nil _ _) prev
    rw [List.cons_append] at hfirst ⊢
    rw [search, hfirst, hrest, getLast?_cons_or]
    exact Option.map_map ..

theorem search_of_matchAt (h : r.matchAt prev s = some m) : r.search prev s = some m := by
  cases s with
  | nil => exact h
  | cons c s => rw [search, h]

theorem search_isSome (h : ∀ q, (r.matchAt q t).isSome = true) (u : List α) (prev : Option α) :
    (r.search prev (u ++ t)).isSome = true := by
  induction u generalizing prev with
  | nil =>
    obtain ⟨m, hm⟩ := Option.isSome_iff_exists.1 (h prev)
    rw [List.nil_append, search_of_matchAt hm]
    rfl
  | cons c u ih =>
    rw [List.cons_append, search]
    cases r.matchAt prev (c :: (u ++ t)) with
    | some m => rfl
    | none =>
      rw [Option.isSome_map]
      exact ih (some c)

/-- A search that fails has no place where the pattern matches. -/
theorem search_eq_none (hnone : ∀ v w, s = v ++ w → ∀ q, r.matchAt q w = none) (prev : Option α) :
    r.search prev s = none := by
  induction s generalizing prev with
  | nil => exact hnone [] [] rfl prev
  | cons c s ih =>
    rw [search, hnone [] (c :: s) rfl prev, ih fun v w hs => hnone (c :: v) w (congrArg (c :: ·) hs)]
    rfl

variable (hr : r.before = lits same w ++ is)
include hr

theorem matchAt_none (h : starts same w s = false) (prev : Option α) : r.matchAt prev s = none := by
  rw [matchAt, hr, runAll_lits_none h]
  rfl

theorem search_free (hu : Free same w u) (prev : Option α) (t : List α) : r.search prev (u ++ t) =
    (r.search (u.getLast?.or prev) t).map fun m => { m with skipped := u ++ m.skipped } := by
  refine search_append (fun v x hvx hx q => ?_) prev
  rw [hvx] at hu
  exact matchAt_none hr (hu.starts hx t) q

theorem search_none (hw : w ≠ []) (hu : Free same w u) (prev : Option α) : r.search prev u = none := by
  refine search_eq_none (fun v x hvx q => matchAt_none hr ?_ q) prev
  rw [hvx] at hu
  cases x with
  | nil =>
    obtain ⟨c, w, rfl⟩ := List.exists_cons_of_ne_nil hw
    rfl
  | cons c x =>
    have h := hu.starts (List.cons_ne_nil c x) []
    rwa [List.append_nil] at h

end Pattern

end Regex
