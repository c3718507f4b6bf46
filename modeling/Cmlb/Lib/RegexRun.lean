import Mathlib.Data.List.Forall2
import Mathlib.Data.List.TakeWhile
import Cmlb.Lib.Regex

/-!
# A captured run behind a row of elements

`runBehind ms p` is the pattern of the elements `ms` with a captured `p+` behind them. A match has such a
run (`runBehind_matchAt`), and it is the whole of it (`matchAt_runBehind`).
-/

namespace Regex

variable {α β : Type*} {k : Option α → List α → Option β} {p : α → Bool} {s v : List α} {b : β}
  {ms : List (α → Bool)} {prev : Option α}

namespace Pattern

variable {r : Pattern α} {m : Match α}

/-- The place that a search has found. -/
theorem exists_matchAt (h : r.search prev s = some m) : ∃ q t, s = m.skipped ++ t ∧
    r.matchAt q t = some { m with skipped := [] } := by
  induction s generalizing prev m with
  | nil =>
    have hm : m = { m with skipped := [] } := by
      unfold search matchAt at h
      obtain ⟨x, -, rfl⟩ := Option.map_eq_some_iff.1 h
      rfl
    refine ⟨prev, [], ?_, ?_⟩
    · rw [hm]
      rfl
    · rw [← hm]
      exact h
  | cons c s ih =>
    rw [search] at h
    cases hat : r.matchAt prev (c :: s) with
    | some m' =>
      rw [hat] at h
      cases h
      have hm : m = { m with skipped := [] } := by
        unfold matchAt at hat
        obtain ⟨x, -, rfl⟩ := Option.map_eq_some_iff.1 hat
        rfl
      refine ⟨prev, c :: s, ?_, ?_⟩
      · rw [hm]
        rfl
      · rw [← hm]
        exact hat
    | none =>
      rw [hat] at h
      obtain ⟨m', hm', rfl⟩ := Option.map_eq_some_iff.1 h
      obtain ⟨q, t, hs, ht⟩ := ih hm'
      exact ⟨q, t, congrArg (c :: ·) hs, ht⟩

/-- Before the place that a search has found there is none. -/
theorem matchAt_before (h : r.search prev s = some m) {u t : List α} (hs : s = u ++ t)
    (hu : u.length < m.skipped.length) : ∃ q, r.matchAt q t = none := by
  induction u generalizing prev s m with
  | nil =>
    obtain rfl : t = s := hs.symm
    cases hat : r.matchAt prev t with
    | none => exact ⟨prev, hat⟩
    | some m' =>
      rw [search_of_matchAt hat] at h
      cases h
      unfold matchAt at hat
      obtain ⟨x, -, rfl⟩ := Option.map_eq_some_iff.1 hat
      exact absurd hu (Nat.lt_irrefl 0)
  | cons c u ih =>
    subst hs
    rw [List.cons_append, search] at h
    cases hat : r.matchAt prev (c :: (u ++ t)) with
    | some m' =>
      rw [hat] at h
      cases h
      unfold matchAt at hat
      obtain ⟨x, -, rfl⟩ := Option.map_eq_some_iff.1 hat
      exact absurd hu (Nat.not_lt_zero _)
    | none =>
      rw [hat] at h
      obtain ⟨m', hm', rfl⟩ := Option.map_eq_some_iff.1 h
      exact ih hm' rfl (Nat.lt_of_succ_lt_succ hu)

end Pattern

/-- The elements `ms`, and a longest run of `p` that is not empty. -/
def runBehind (ms : List (α → Bool)) (p : α → Bool) : Pattern α where
  before := (ms ++ [p]).map .one
  group := .many p

/-- The run of a match of `runBehind`. -/
def Match.run (ms : List (α → Bool)) (m : Match α) : List α := m.front.drop ms.length ++ m.group

theorem many_all {f : List α → β} (hk : ∀ q t, k q t = some (f t)) (prev : Option α) (s : List α) :
    many p k prev s = some (s.takeWhile p, f (s.dropWhile p)) := by
  induction s generalizing prev with
  | nil => rw [many, hk]; rfl
  | cons c s ih =>
    rw [many, ih, hk]
    by_cases hc : p c = true <;> simp [hc]

theorem runAll_ones (h : runAll k (ms.map .one) prev s = some (v, b)) :
    ∃ t q, s = v ++ t ∧ List.Forall₂ (fun p c => p c = true) ms v ∧ k q t = some b := by
  induction ms generalizing prev s v with
  | nil =>
    obtain ⟨b', hk, hb⟩ := Option.map_eq_some_iff.1 h
    cases hb
    exact ⟨s, prev, rfl, .nil, hk⟩
  | cons p ms ih =>
    cases s with
    | nil => cases h
    | cons c s =>
      by_cases hc : p c = true
      · rw [List.map_cons, runAll_one hc] at h
        obtain ⟨⟨v', b'⟩, hx, hv⟩ := Option.map_eq_some_iff.1 h
        cases hv
        obtain ⟨t, q, rfl, hall, hk⟩ := ih hx
        exact ⟨t, q, rfl, .cons hc hall, hk⟩
      · have hone : Regex.one p (runAll k (ms.map .one)) (c :: s) = none := if_neg hc
        change Option.map _ (Regex.one p _ (c :: s)) = _ at h
        rw [hone] at h
        cases h

theorem runAll_ones_of (h : List.Forall₂ (fun p c => p c = true) ms v) (t : List α) (prev : Option α) :
    ∃ q, runAll k (ms.map .one) prev (v ++ t) = (k q t).map fun b => (v, b) := by
  induction h generalizing prev with
  | nil => exact ⟨prev, rfl⟩
  | cons hc _ ih =>
    obtain ⟨q, hq⟩ := ih (some _)
    refine ⟨q, ?_⟩
    rw [List.map_cons, List.cons_append, runAll_one hc, hq, Option.map_map]
    rfl

theorem forall₂_concat {front : List α} (h : List.Forall₂ (fun p c => p c = true) (ms ++ [p]) front) :
    ∃ v c, front = v ++ [c] ∧ List.Forall₂ (fun p c => p c = true) ms v ∧ p c = true := by
  induction ms generalizing front with
  | nil =>
    cases h with
    | cons hc h =>
      cases h
      exact ⟨[], _, rfl, .nil, hc⟩
  | cons q ms ih =>
    cases h with
    | cons hq h =>
      obtain ⟨v, c, rfl, hv, hc⟩ := ih h
      exact ⟨_ :: v, c, rfl, .cons hq hv, hc⟩

theorem many_end (q : Option α) (t : List α) :
    many p (runAll (fun _ rest => some rest) []) q t = some (t.takeWhile p, [], t.dropWhile p) :=
  many_all (f := fun t => ([], t)) (fun _ _ => rfl) q t

/-- A match has the elements, and behind them a run that is not empty. -/
theorem runBehind_matchAt {m : Match α} {q : Option α} (h : (runBehind ms p).matchAt q s = some m) :
    ∃ v, List.Forall₂ (fun p c => p c = true) ms v ∧ s = v ++ m.run ms ++ m.rest ∧ m.run ms ≠ [] ∧
      (∀ c ∈ m.run ms, p c = true) ∧ ∀ c, m.rest.head? = some c → p c = false := by
  obtain ⟨⟨front, group, back, rest⟩, hx, rfl⟩ := Option.map_eq_some_iff.1 h
  obtain ⟨t, q', rfl, hall, hk⟩ := runAll_ones hx
  obtain ⟨hgroup, hrest⟩ := Prod.mk.inj (Option.some.inj ((many_end q' t).symm.trans hk))
  obtain ⟨-, rfl⟩ := Prod.mk.inj hrest
  subst hgroup
  obtain ⟨v, c, rfl, hv, hc⟩ := forall₂_concat hall
  have hrun : Match.run ms ⟨[], v ++ [c], t.takeWhile p, back, t.dropWhile p⟩ = c :: t.takeWhile p := by
    rw [Match.run, hv.length_eq, List.drop_left]
    rfl
  refine ⟨v, hv, ?_, ?_, ?_, fun d hd => ?_⟩
  · rw [hrun]
    simp
  · rw [hrun]
    exact List.cons_ne_nil _ _
  · rw [hrun, List.forall_mem_cons]
    exact ⟨hc, fun d hd => List.mem_takeWhile_imp hd⟩
  · have hnot := List.head?_dropWhile_not p t
    rw [hd] at hnot
    exact hnot

/-- Where the elements stand with such a run behind them, there is a match. -/
theorem matchAt_runBehind {v : List α} (hv : List.Forall₂ (fun p c => p c = true) ms v) (hc : p c = true)
    (t : List α) (prev : Option α) : (runBehind ms p).matchAt prev (v ++ c :: t) =
      some ⟨[], v ++ [c], t.takeWhile p, [], t.dropWhile p⟩ := by
  have hall : List.Forall₂ (fun p c => p c = true) (ms ++ [p]) (v ++ [c]) := List.rel_append hv (.cons hc .nil)
  obtain ⟨q, hq⟩ := runAll_ones_of (k := fun q t => many p (runAll (fun _ rest => some rest) []) q t) hall t prev
  rw [many_end, List.append_assoc, List.singleton_append] at hq
  exact (congrArg (Option.map _) hq).trans rfl

/-- `run` is what `p` holds of behind the first place in `s` that has the elements `ms` and one of `p`. -/
structure FirstRun (ms : List (α → Bool)) (p : α → Bool) (s run : List α) : Prop where
  place : ∃ u v t, s = u ++ v ++ run ++ t ∧ List.Forall₂ (fun p c => p c = true) ms v ∧
    (∀ c, t.head? = some c → p c = false) ∧
    ∀ u' v' c t', s = u' ++ v' ++ c :: t' → List.Forall₂ (fun p c => p c = true) ms v' → p c = true →
      u.length ≤ u'.length
  ne_nil : run ≠ []
  all : ∀ c ∈ run, p c = true

theorem matchAt_runBehind_none {q : Option α} (h : (runBehind ms p).matchAt q s = none) {v t : List α} {c : α}
    (hv : List.Forall₂ (fun p c => p c = true) ms v) (hs : s = v ++ c :: t) : p c = false := by
  refine Bool.eq_false_iff.2 fun hc => ?_
  rw [hs, matchAt_runBehind hv hc] at h
  cases h

/-- A search finds the first run, and nothing else. -/
theorem search_runBehind {run : List α} :
    ((runBehind ms p).search prev s).map (Match.run ms) = some run ↔ FirstRun ms p s run := by
  constructor
  · intro h
    obtain ⟨m, hm, rfl⟩ := Option.map_eq_some_iff.1 h
    obtain ⟨q, t, hs, hat⟩ := Pattern.exists_matchAt hm
    obtain ⟨v, hv, rfl, hne, hall, hrest⟩ := runBehind_matchAt hat
    refine ⟨⟨m.skipped, v, m.rest, by simpa [Match.run] using hs, hv, hrest, ?_⟩, hne, hall⟩
    intro u' v' c t' hs' hv' hc
    by_contra hlt
    rw [List.append_assoc] at hs'
    obtain ⟨q', hnone⟩ := Pattern.matchAt_before hm hs' (Nat.lt_of_not_le hlt)
    rw [matchAt_runBehind_none hnone hv' rfl] at hc
    cases hc
  · rintro ⟨⟨u, v, t, rfl, hv, ht, hfirst⟩, hne, hall⟩
    obtain ⟨c, run, rfl⟩ := List.exists_cons_of_ne_nil hne
    rw [List.forall_mem_cons] at hall
    have hat : ∀ q, (runBehind ms p).matchAt q (v ++ c :: (run ++ t)) =
        some ⟨[], v ++ [c], run, [], t⟩ := by
      intro q
      have hrun : (run ++ t).takeWhile p = run ∧ (run ++ t).dropWhile p = t := by
        rw [List.takeWhile_append_of_pos hall.2, List.dropWhile_append_of_pos hall.2]
        cases t with
        | nil => simp
        | cons d t => simp [ht d rfl]
      rw [matchAt_runBehind hv hall.1, hrun.1, hrun.2]
    have happ : u ++ v ++ (c :: run) ++ t = u ++ (v ++ c :: (run ++ t)) := by simp
    have hnone : ∀ x w, u = x ++ w → w ≠ [] →
        ∀ q, (runBehind ms p).matchAt q (w ++ (v ++ c :: (run ++ t))) = none := by
      intro x w hxw hw q
      refine Option.eq_none_iff_forall_not_mem.2 fun m hm => ?_
      obtain ⟨v', hv', hs, hne', hall', -⟩ := runBehind_matchAt hm
      obtain ⟨d, run', hrun⟩ := List.exists_cons_of_ne_nil hne'
      rw [hrun] at hs hall'
      have hle := hfirst x v' d (run' ++ m.rest) (by rw [happ, hxw, List.append_assoc, hs]; simp) hv'
        (hall' d List.mem_cons_self)
      rw [hxw, List.length_append] at hle
      have := List.length_pos_iff.2 hw
      omega
    have hsearch := Pattern.search_append hnone prev
    rw [Pattern.search_of_matchAt (hat _)] at hsearch
    rw [happ, hsearch]
    simp [Match.run, hv.length_eq]

/-! ### Places in a text that begins with a known one -/

/-- The elements are at the beginning of the text. -/
def fits (ms : List (α → Bool)) (s : List α) : Bool :=
  decide (ms.length ≤ s.length) && (ms.zip s).all fun x => x.1 x.2

theorem fits_of_forall₂ (h : List.Forall₂ (fun p c => p c = true) ms v) (t : List α) :
    fits ms (v ++ t) = true := by
  have hle : ms.length ≤ (v ++ t).length := by
    rw [List.length_append, h.length_eq]
    exact Nat.le_add_right _ _
  have hall : (ms.zip (v ++ t)).all (fun x => x.1 x.2) = true := by
    clear hle
    induction h with
    | nil => rfl
    | cons hc _ ih => simp [hc, ih]
  rw [fits, hall, Bool.and_true, decide_eq_true hle]

variable {u t : List α}

theorem fits_drop {u' v' t' : List α} (hv : List.Forall₂ (fun p c => p c = true) ms v')
    (hs : u ++ t = u' ++ v' ++ t') (hle : u'.length + v'.length ≤ u.length) :
    fits ms (u.drop u'.length) = true := by
  have hpre : u' ++ v' <+: u := by
    refine List.prefix_of_prefix_length_le ⟨t', hs.symm⟩ ⟨t, rfl⟩ ?_
    rwa [List.length_append]
  obtain ⟨w, rfl⟩ := hpre
  rw [List.append_assoc, List.drop_left]
  exact fits_of_forall₂ hv w

/-- The run behind the elements `v`, where there is no place for them further left. -/
theorem FirstRun.behind {run : List α} (hv : List.Forall₂ (fun p c => p c = true) ms v) (hne : run ≠ [])
    (hall : ∀ c ∈ run, p c = true) (ht : ∀ c, t.head? = some c → p c = false)
    (hfirst : ∀ i < u.length, fits ms ((u ++ v).drop i) = false) : FirstRun ms p (u ++ v ++ run ++ t) run := by
  refine ⟨⟨u, v, t, rfl, hv, ht, fun u' v' c t' hs hv' _ => ?_⟩, hne, hall⟩
  by_contra hlt
  have hlt := Nat.lt_of_not_le hlt
  have hlen : v.length = v'.length := hv.length_eq.symm.trans hv'.length_eq
  rw [List.append_assoc (u ++ v)] at hs
  have hfits := fits_drop hv' hs (by rw [List.length_append]; omega)
  rw [hfirst _ hlt] at hfits
  cases hfits

/-- There is no place for elements of which the last is not in the rest. -/
theorem not_firstRun {q : α → Bool} {run : List α} (ht : ∀ c ∈ t, q c = false)
    (hnone : ∀ i ≤ u.length, fits (ms ++ [q]) (u.drop i) = false) : ¬ FirstRun (ms ++ [q]) p (u ++ t) run := by
  rintro ⟨⟨u', v', t', hs, hv', -, -⟩, -, -⟩
  obtain ⟨v, c, rfl, hv, hc⟩ := forall₂_concat hv'
  have hle : u'.length + (v ++ [c]).length ≤ u.length := by
    by_contra hlt
    have hget : (u ++ t)[u'.length + v.length]? = some c := by
      rw [hs]
      simp
    rw [List.getElem?_append_right (by simp at hlt; omega)] at hget
    rw [ht c (List.mem_of_getElem? hget)] at hc
    cases hc
  rw [List.append_assoc (u' ++ (v ++ [c]))] at hs
  have hfits := fits_drop hv' hs hle
  rw [hnone _ (by omega)] at hfits
  cases hfits

end Regex
