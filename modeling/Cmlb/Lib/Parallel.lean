import Mathlib.Data.List.Induction
import Mathlib.Logic.Function.Basic
import Cmlb.Lib.Prog

/-!
# Programs side by side

Threads `i : ι` over one state, each with what is left of its program. One step is one call of one
thread, which the server `S i` answers, so that the runs of `Parallel` are all the interleavings.

`p.Guards S R G Q s` says that the calls of `p` are in `G` and its result is in `Q`, when it starts in
`s` and the others do what `R` allows between its calls. `Parallel.guaranteed` is the rule of rely and
guarantee: threads that guarantee to each other what they rely on keep to it in every interleaving.
-/

namespace Prog

variable {ι γ σ η α β : Type} {ρ : γ → Type}

/-! ### One thread among others -/

section Guards

variable {S G G' : σ → (c : γ) → ρ c → σ → Prop} {R : σ → σ → Prop} {Q Q' : α → σ → Prop}
  {s s' : σ} {p : Prog γ ρ α}

def Guards (S : σ → (c : γ) → ρ c → σ → Prop) (R : σ → σ → Prop)
    (G : σ → (c : γ) → ρ c → σ → Prop) (Q : α → σ → Prop) : Prog γ ρ α → σ → Prop
  | .pure a, s => ∀ s', R s s' → Q a s'
  | .call c k, s => ∀ s' r s'', R s s' → S s' c r s'' → G s' c r s'' ∧ (k r).Guards S R G Q s''

/-- What the others do does not disturb it. -/
theorem Guards.rely (htrans : ∀ s s' s'', R s s' → R s' s'' → R s s'') (h : p.Guards S R G Q s)
    (hR : R s s') : p.Guards S R G Q s' := by
  cases p with
  | pure a => exact fun s'' hs => h s'' (htrans _ _ _ hR hs)
  | call c k => exact fun s₁ r s₂ hs hS => h s₁ r s₂ (htrans _ _ _ hR hs) hS

theorem Guards.mono (h : p.Guards S R G Q s) (hG : ∀ s c r s', S s c r s' → G s c r s' → G' s c r s')
    (hQ : ∀ a s, Q a s → Q' a s) : p.Guards S R G' Q' s := by
  induction p generalizing s with
  | pure a => exact fun s' hs => hQ a s' (h s' hs)
  | call c k ih =>
    intro s' r s'' hs hS
    obtain ⟨hcall, hrest⟩ := h s' r s'' hs hS
    exact ⟨hG _ _ _ _ hS hcall, ih r hrest⟩

theorem Guards.bind {f : α → Prog γ ρ β} {Q' : β → σ → Prop} (hrefl : ∀ s, R s s)
    (h : p.Guards S R G Q s) (hf : ∀ a s, Q a s → (f a).Guards S R G Q' s) :
    (p >>= f).Guards S R G Q' s := by
  induction p generalizing s with
  | pure a => exact hf a s (h s (hrefl s))
  | call c k ih =>
    intro s' r s'' hs hS
    obtain ⟨hcall, hrest⟩ := h s' r s'' hs hS
    exact ⟨hcall, ih r hrest⟩

theorem Guards.ask_bind {c : γ} {f : ρ c → Prog γ ρ α}
    (h : ∀ s' r s'', R s s' → S s' c r s'' → G s' c r s'' ∧ (f r).Guards S R G Q s'') :
    (Prog.ask c >>= f).Guards S R G Q s := h

/-- A program whose calls are in `G` wherever they are made. -/
theorem Only.guards {P : γ → Prop} (h : p.Only P)
    (hP : ∀ s c r s', P c → S s c r s' → G s c r s') : p.Guards S R G (fun _ _ => True) s := by
  induction h generalizing s with
  | pure a => exact fun _ _ => trivial
  | call hc _ ih => exact fun s' r s'' _ hS => ⟨hP _ _ _ _ hc hS, ih r⟩

end Guards

/-! ### The interleavings -/

variable [DecidableEq ι]

/-- The threads `p` go from `s` to `s'` by the calls of `log`, in this order, and `p'` is left of
them. -/
inductive Parallel (S : ι → σ → (c : γ) → ρ c → σ → Prop) :
    σ → (ι → Prog γ ρ α) → List (ι × Σ c, ρ c) → σ → (ι → Prog γ ρ α) → Prop
  | nil (s : σ) (p : ι → Prog γ ρ α) : Parallel S s p [] s p
  | snoc {s s' s'' : σ} {p p' : ι → Prog γ ρ α} {log : List (ι × Σ c, ρ c)} {i : ι} {c : γ}
      {k : ρ c → Prog γ ρ α} {r : ρ c} (h : Parallel S s p log s' p') (hp : p' i = .call c k)
      (hS : S i s' c r s'') :
      Parallel S s p (log ++ [(i, ⟨c, r⟩)]) s'' (Function.update p' i (k r))

namespace Parallel

variable {S S' : ι → σ → (c : γ) → ρ c → σ → Prop} {s s' : σ} {p p' : ι → Prog γ ρ α}
  {log log' : List (ι × Σ c, ρ c)}

theorem mono (h : Parallel S s p log s' p') (hS : ∀ i s c r s', S i s c r s' → S' i s c r s') :
    Parallel S' s p log s' p' := by
  induction h with
  | nil => exact .nil _ _
  | snoc _ hp hs ih => exact .snoc ih hp (hS _ _ _ _ _ hs)

theorem invariant {I : σ → Prop} (h : Parallel S s p log s' p')
    (hI : ∀ i s c r s', S i s c r s' → I s → I s') (h0 : I s) : I s' := by
  induction h with
  | nil => exact h0
  | snoc _ _ hs ih => exact hI _ _ _ _ _ hs ih

theorem snoc_inv {i : ι} {c : γ} {r : ρ c} (h : Parallel S s p (log ++ [(i, ⟨c, r⟩)]) s' p') :
    ∃ s₁ p₁ k, Parallel S s p log s₁ p₁ ∧ p₁ i = .call c k ∧ S i s₁ c r s' ∧
      p' = Function.update p₁ i (k r) := by
  generalize ht : log ++ [(i, (⟨c, r⟩ : Σ c, ρ c))] = l at h
  cases h with
  | nil => simp at ht
  | snoc h hp hs =>
    obtain ⟨rfl, he⟩ := List.append_inj' ht rfl
    cases he
    exact ⟨_, _, _, h, hp, hs, rfl⟩

theorem append_inv (h : Parallel S s p (log ++ log') s' p') :
    ∃ s₁ p₁, Parallel S s p log s₁ p₁ ∧ Parallel S s₁ p₁ log' s' p' := by
  induction log' using List.reverseRecOn generalizing s' p' with
  | nil => exact ⟨s', p', by simpa using h, .nil s' p'⟩
  | append_singleton log' e ih =>
    obtain ⟨i, c, r⟩ := e
    rw [← List.append_assoc] at h
    obtain ⟨s₁, p₁, k, h₁, hp, hS, rfl⟩ := h.snoc_inv
    obtain ⟨s₂, p₂, h₂, h₃⟩ := ih h₁
    exact ⟨s₂, p₂, h₂, .snoc h₃ hp hS⟩

/-- The states about a call of the run. -/
theorem call_inv {i : ι} {c : γ} {r : ρ c} (h : Parallel S s p (log ++ (i, ⟨c, r⟩) :: log') s' p') :
    ∃ s₁ s₂ p₁ p₂, Parallel S s p log s₁ p₁ ∧ S i s₁ c r s₂ ∧ Parallel S s₂ p₂ log' s' p' := by
  rw [← List.singleton_append, ← List.append_assoc] at h
  obtain ⟨s₂, p₂, h, h₂⟩ := h.append_inv
  obtain ⟨s₁, p₁, k, h₁, -, hS, -⟩ := h.snoc_inv
  exact ⟨s₁, s₂, p₁, p₂, h₁, hS, h₂⟩

/-- A second state that notes the calls. -/
theorem ghost (note : η → ι → (c : γ) → ρ c → η) (x : η) (h : Parallel S s p log s' p') :
    Parallel (fun i u c r u' => S i u.1 c r u'.1 ∧ u'.2 = note u.2 i c r) (s, x) p log
      (s', log.foldl (fun x e => note x e.1 e.2.1 e.2.2) x) p' := by
  induction h with
  | nil => exact .nil _ _
  | @snoc s₁ s₂ p p' log i c k r _ hp hs ih =>
    rw [List.foldl_append]
    exact .snoc ih hp ⟨hs, rfl⟩

/-- Rely and guarantee. -/
theorem guaranteed {R : ι → σ → σ → Prop} {G : ι → σ → (c : γ) → ρ c → σ → Prop}
    {Q : ι → α → σ → Prop} (hrefl : ∀ i s, R i s s)
    (htrans : ∀ i s s' s'', R i s s' → R i s' s'' → R i s s'')
    (hRG : ∀ i j, j ≠ i → ∀ s c r s', S j s c r s' → G j s c r s' → R i s s')
    (h0 : ∀ i, (p i).Guards (S i) (R i) (G i) (Q i) s) (h : Parallel S s p log s' p') :
    Parallel (fun i s c r s' => S i s c r s' ∧ G i s c r s') s p log s' p' ∧
      ∀ i, (p' i).Guards (S i) (R i) (G i) (Q i) s' := by
  induction h with
  | nil => exact ⟨.nil _ _, h0⟩
  | @snoc s₁ s₂ p p' log i c k r _ hp hs ih =>
    obtain ⟨hrun, hleft⟩ := ih h0
    have hi := hleft i
    rw [hp] at hi
    obtain ⟨hG, hk⟩ := hi s₁ r s₂ (hrefl i s₁) hs
    refine ⟨.snoc hrun hp ⟨hs, hG⟩, fun j => ?_⟩
    by_cases hj : j = i
    · subst hj
      rw [Function.update_self]
      exact hk
    · rw [Function.update_of_ne hj]
      exact (hleft j).rely (htrans j) (hRG j i (Ne.symm hj) _ _ _ _ hs hG)

end Parallel

end Prog
