import Cmlb.Lib.WorkerPool

/-!
# Workers that claim with a counter

The bodies of a pool take the units `0, …, size - 1` of their work by raising a counter `next`. A body that
finds no unit left has raised it too, and leaves; so the counter is below `size + n` as long as a worker runs
(`next_lt_of_running`). Every value below is reached: where the counter is bounded by `limit < size + n`, a
worker comes to claim at the bound (`Claims.exists_claim_at`).
-/

namespace WorkerPool

variable {σ τ ε ρ : Type*} {B : WorkerBody σ τ ε ρ} {n : Nat}

def hasLeft : WorkerStage τ → Nat
  | .left => 1
  | _ => 0

/-! ### How far the counter gets -/

section

variable {P : PoolState n σ τ ρ → PoolEvent n ε → Prop} {s s' : PoolState n σ τ ρ} {t : List (PoolEvent n ε)}
  {size : Nat} {v : Fin n → WorkerStage τ} {i : Fin n} {l : τ}

theorem sum_hasLeft_update (hv : hasLeft (v i) = 0) (st : WorkerStage τ) :
    ∑ j, hasLeft (Function.update v i st j) = ∑ j, hasLeft (v j) + hasLeft st := by
  have hsum := sum_update hasLeft v i st
  rwa [hv, Nat.add_zero] at hsum

theorem sum_hasLeft_lt (hv : v i = .running l) : ∑ j, hasLeft (v j) < n := by
  have hlt : ∑ j, hasLeft (v j) < ∑ _j : Fin n, 1 := by
    refine Finset.sum_lt_sum (fun j _ => ?_) ⟨i, Finset.mem_univ i, by simp [hv, hasLeft]⟩
    cases v j <;> simp [hasLeft]
  simpa using hlt

/-- A step raises the counter by one, and above `size` only when it is the last of its body. -/
theorem next_le (next : σ → Nat) (hstep : ∀ sh l e sh' o, B.step sh l e = some (sh', o) →
      next sh' ≤ size ∨ next sh' ≤ next sh + hasLeft (.after o))
    (h0 : next s.shared.body ≤ size) (h : (pool B n).machine.Steps P s t s') :
    next s'.shared.body ≤ size + ∑ i, hasLeft (stages s' i) := by
  refine notes_rule (fun _ _ _ => ([] : List Empty))
    (A := fun _ sh v => next sh ≤ size + ∑ i, hasLeft (v i)) ?_ ?_ (Nat.le_add_right_of_le h0) h
  · intro _ sh v i hle hv
    rw [sum_hasLeft_update (by rw [hv]; rfl)]
    exact hle
  · intro s _ i l e body o _ hle hw hb
    rw [sum_hasLeft_update (by simp [stages, hw, Worker.stage, hasLeft])]
    have := hstep _ _ _ _ _ hb
    omega

theorem next_lt_of_running (next : σ → Nat) (hstep : ∀ sh l e sh' o, B.step sh l e = some (sh', o) →
      next sh' ≤ size ∨ next sh' ≤ next sh + hasLeft (.after o))
    (h0 : next s.shared.body ≤ size) (h : (pool B n).machine.Steps P s t s') (hw : s'.locals i = .running l) :
    next s'.shared.body < size + n := by
  have hle := next_le next hstep h0 h
  have hlt := sum_hasLeft_lt (v := stages s') (Worker.stage_eq_running.2 hw)
  omega

end

/-! ### One worker alone -/

/-- A body goes from `l` to `o` by steps that keep to `Q`, with nobody else in between. -/
inductive Alone (B : WorkerBody σ τ ε ρ) (Q : τ → ε → Prop) : σ → τ → σ → Option τ → Prop
  | nil (sh : σ) (l : τ) : Alone B Q sh l sh (some l)
  | cons {sh sh' sh'' : σ} {l l' : τ} {e : ε} {o : Option τ} (hq : Q l e)
      (hs : B.step sh l e = some (sh', some l')) (h : Alone B Q sh' l' sh'' o) : Alone B Q sh l sh'' o
  | last {sh sh' : σ} {l : τ} {e : ε} (hq : Q l e) (hs : B.step sh l e = some (sh', none)) :
      Alone B Q sh l sh' none

/-- The guard of a pool for bodies that keep to `Q`. -/
structure Allows (P : PoolState n σ τ ρ → PoolEvent n ε → Prop) (Q : τ → ε → Prop) : Prop where
  spawn : ∀ s, P s (.env .spawn)
  start : ∀ s i, P s (.act i .start)
  run : ∀ s i l e, s.locals i = .running l → Q l e → P s (.act i (.run e))

variable {P : PoolState n σ τ ρ → PoolEvent n ε → Prop} {Q : τ → ε → Prop} {s : PoolState n σ τ ρ}

/-- What a body does alone, its worker does in the pool. -/
theorem Alone.steps (hP : Allows P Q) {i : Fin n} {sh body : σ} {l : τ} {o : Option τ} (h : Alone B Q sh l body o)
    (hsh : s.shared.body = sh) (hw : s.locals i = .running l) : ∃ t, (pool B n).machine.Steps P s t
      ⟨{ s.shared with body := body }, Function.update s.locals i (.after o)⟩ := by
  induction h generalizing s with
  | nil sh l =>
    subst hsh
    have hsame : Function.update s.locals i (.after (some l)) = s.locals := by
      rw [Worker.after, ← hw, Function.update_eq_self]
    rw [hsame]
    exact ⟨[], .nil s⟩
  | @cons sh sh' sh'' l l' e o hq hs h ih =>
    subst hsh
    obtain ⟨t, ht⟩ := ih (s := ⟨{ s.shared with body := sh' }, Function.update s.locals i (.after (some l'))⟩)
      rfl (Function.update_self ..)
    rw [Function.update_idem] at ht
    exact ⟨_, .cons (hP.run s i l e hw hq) (step_run hw hs) ht⟩
  | @last sh sh' l e hq hs =>
    subst hsh
    exact ⟨_, .cons (hP.run s i l e hw hq) (step_run hw hs) (.nil _)⟩

/-! ### That the counter gets there -/

/-- Bodies that can go on alone, up to a claim and from one claim to the next, while the shared state is
`good` and the counter is below `limit`. -/
structure Claims (B : WorkerBody σ τ ε ρ) (Q : τ → ε → Prop) (good : σ → Prop) (next : σ → Nat) (claim : τ)
    (size limit : Nat) : Prop where
  begins : ∀ sh, good sh → ∃ sh', Alone B Q sh B.init sh' (some claim) ∧ good sh' ∧ next sh' = next sh
  works : ∀ sh, good sh → next sh < size → next sh < limit →
    ∃ sh', Alone B Q sh claim sh' (some claim) ∧ good sh' ∧ next sh' = next sh + 1
  leaves : ∀ sh, good sh → size ≤ next sh → next sh < limit →
    ∃ sh', Alone B Q sh claim sh' none ∧ good sh' ∧ next sh' = next sh + 1

/-- A reachable state with all workers spawned, of which those from `j` on have not begun. -/
structure Poised (B : WorkerBody σ τ ε ρ) (P : PoolState n σ τ ρ → PoolEvent n ε → Prop) (good : σ → Prop)
    (next : σ → Nat) (sh : σ) (k j : Nat) (s : PoolState n σ τ ρ) : Prop where
  reached : ∃ t, (pool B n).machine.Steps P (start n sh) t s
  parent : s.shared.parent = .spawning n
  next : next s.shared.body = k
  good : good s.shared.body
  fresh : ∀ i : Fin n, j ≤ i → s.locals i = .fresh

namespace Poised

variable {good : σ → Prop} {next : σ → Nat} {sh body : σ} {k k' j : Nat} {i : Fin n} {l : τ} {o : Option τ}

theorem alone (h : Poised B P good next sh k j s) (hP : Allows P Q) (hij : i < j) (hw : s.locals i = .running l)
    (ha : Alone B Q s.shared.body l body o) (hgood : good body) (hnext : next body = k') :
    ∃ s', Poised B P good next sh k' j s' ∧ s'.locals i = .after o := by
  obtain ⟨t, ht⟩ := h.reached
  obtain ⟨t', ht'⟩ := ha.steps hP rfl hw
  refine ⟨_, ⟨⟨_, ht.append ht'⟩, h.parent, hnext, hgood, fun m hm => ?_⟩, Function.update_self ..⟩
  have hne : m ≠ i := by
    rintro rfl
    omega
  exact (Function.update_of_ne hne _ _).trans (h.fresh m hm)

theorem starts (h : Poised B P good next sh k i s) (hP : Allows P Q) :
    ∃ s', Poised B P good next sh k (i + 1) s' ∧ s'.shared = s.shared ∧ s'.locals i = .running B.init := by
  obtain ⟨t, ht⟩ := h.reached
  have hstart : (pool B n).machine.step s (.act i .start) =
      some ⟨s.shared, Function.update s.locals i (.running B.init)⟩ := by
    simp [Interleaving.machine, pool, workerStep, h.fresh i, h.parent, Parent.spawned]
  refine ⟨_, ⟨⟨_, ht.snoc (hP.start s i) hstart⟩, h.parent, h.next, h.good, fun m hm => ?_⟩, rfl,
    Function.update_self ..⟩
  have hne : m ≠ i := by
    rintro rfl
    omega
  exact (Function.update_of_ne hne _ _).trans (h.fresh m (by omega))

theorem spawned (hP : Allows P Q) (hgood : good sh) (hnext : next sh = k) :
    ∃ s : PoolState n σ τ ρ, Poised B P good next sh k 0 s := by
  have hspawn : ∀ m ≤ n, ∃ t, (pool B n).machine.Steps P (start n sh) t
      ⟨⟨.spawning m, n, sh⟩, fun _ => .fresh⟩ := by
    intro m hm
    induction m with
    | zero => exact ⟨[], .nil _⟩
    | succ m ih =>
      obtain ⟨t, ht⟩ := ih (by omega)
      refine ⟨_, ht.snoc (hP.spawn _) ?_⟩
      simp [Interleaving.machine, pool, parentStep, Nat.lt_of_succ_le hm]
  exact ⟨_, hspawn n (Nat.le_refl _), rfl, hnext, hgood, fun _ _ => rfl⟩

end Poised

namespace Claims

variable {good : σ → Prop} {next : σ → Nat} {claim : τ} {size limit : Nat} {sh : σ} {k j : Nat} {i : Fin n}

theorem toClaim (hB : Claims B Q good next claim size limit) (hP : Allows P Q)
    (h : Poised B P good next sh k i s) :
    ∃ s', Poised B P good next sh k (i + 1) s' ∧ s'.locals i = .running claim := by
  obtain ⟨s₁, h₁, -, hw⟩ := h.starts hP
  obtain ⟨body, ha, hgood, hnext⟩ := hB.begins _ h₁.good
  exact h₁.alone hP (Nat.lt_succ_self _) hw ha hgood (hnext.trans h₁.next)

/-- The first worker does the first `k` units. -/
theorem first (hB : Claims B Q good next claim size limit) (hP : Allows P Q) (hgood : good sh)
    (hnext : next sh = 0) (hn : 0 < n) (hsize : size < limit) (hk : k ≤ size) :
    ∃ s, Poised B P good next sh k 1 s ∧ s.locals ⟨0, hn⟩ = .running claim := by
  induction k with
  | zero =>
    obtain ⟨s, hs⟩ := Poised.spawned (B := B) hP hgood hnext
    exact hB.toClaim hP (i := ⟨0, hn⟩) hs
  | succ k ih =>
    obtain ⟨s, hs, hw⟩ := ih (by omega)
    have hlt := hs.next
    obtain ⟨body, ha, hgood', hnext'⟩ := hB.works _ hs.good (by omega) (by omega)
    exact hs.alone hP Nat.zero_lt_one hw ha hgood' (hnext'.trans (congrArg (· + 1) hlt))

/-- Then one worker after the other finds none. -/
theorem later (hB : Claims B Q good next claim size limit) (hP : Allows P Q) (hgood : good sh)
    (hnext : next sh = 0) (hsize : size < limit) (hj : size + j ≤ limit) (hjn : j < n) :
    ∃ s, Poised B P good next sh (size + j) (j + 1) s ∧ s.locals ⟨j, hjn⟩ = .running claim := by
  induction j with
  | zero => exact hB.first hP hgood hnext hjn hsize (Nat.le_refl _)
  | succ j ih =>
    obtain ⟨s, hs, hw⟩ := ih (by omega) (by omega)
    have heq := hs.next
    obtain ⟨body, ha, hgood', hnext'⟩ := hB.leaves _ hs.good (by omega) (by omega)
    obtain ⟨s₁, h₁, -⟩ := hs.alone hP (Nat.lt_succ_self j) hw ha hgood' (hnext'.trans (congrArg (· + 1) heq))
    exact hB.toClaim hP (i := ⟨j + 1, hjn⟩) h₁

/-- With too many units and workers for the bound, a worker comes to claim at it. -/
theorem exists_claim_at (hB : Claims B Q good next claim size limit) (hP : Allows P Q) (sh : σ) (hgood : good sh)
    (hnext : next sh = 0) (hsize : size < limit) (hmany : limit < size + n) :
    ∃ t s i, (pool B n).machine.Steps P (start n sh) t s ∧ s.locals i = .running claim ∧
      next s.shared.body = limit := by
  obtain ⟨j, rfl⟩ := Nat.exists_eq_add_of_le (Nat.le_of_lt hsize)
  have hjn : j < n := by omega
  obtain ⟨s, hs, hw⟩ := hB.later hP hgood hnext hsize (Nat.le_refl _) hjn
  obtain ⟨t, ht⟩ := hs.reached
  exact ⟨t, s, _, ht, hw, hs.next⟩

end Claims

end WorkerPool
