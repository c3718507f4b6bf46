import Cmlb.Lib.Prog

/-!
# Programs and the server that answers them

A server has a state, and `S s c r s'` says that in `s` it can answer the call `c` by `r` and go on to
`s'`. `p.Served S s a s'` is a run of `p` against it, from `s` to `s'`, that ends with `a`.
-/

namespace Prog

variable {γ δ : Type} {ρ : γ → Type} {ρ' : δ → Type} {α β σ : Type}
  {S : σ → (c : γ) → ρ c → σ → Prop} {s s' s'' : σ}

inductive Served (S : σ → (c : γ) → ρ c → σ → Prop) : Prog γ ρ α → σ → α → σ → Prop
  | pure (a : α) (s : σ) : Served S (.pure a) s a s
  | call {c : γ} {k : ρ c → Prog γ ρ α} {r : ρ c} {a : α} {s s' s'' : σ} (hc : S s c r s')
      (h : Served S (k r) s' a s'') : Served S (.call c k) s a s''

namespace Served

variable {a : α} {b : β}

theorem pure_inv {a' : α} (h : (Prog.pure a' : Prog γ ρ α).Served S s a s') : a = a' ∧ s' = s := by
  cases h
  exact ⟨rfl, rfl⟩

theorem bind_inv {p : Prog γ ρ α} {f : α → Prog γ ρ β} (h : (p >>= f).Served S s b s'') :
    ∃ a s', p.Served S s a s' ∧ (f a).Served S s' b s'' := by
  induction p generalizing s with
  | pure a => exact ⟨a, s, .pure a s, h⟩
  | call c k ih =>
    cases h with
    | call hc h =>
      obtain ⟨a, s', h₁, h₂⟩ := ih _ h
      exact ⟨a, s', .call hc h₁, h₂⟩

theorem ask_inv {c : γ} {r : ρ c} (h : (ask c : Prog γ ρ (ρ c)).Served S s r s') : S s c r s' := by
  cases h with
  | call hc h =>
    obtain ⟨rfl, rfl⟩ := h.pure_inv
    exact hc

theorem ask_bind_inv {c : γ} {f : ρ c → Prog γ ρ β} (h : (Prog.ask c >>= f).Served S s b s'') :
    ∃ r s', S s c r s' ∧ (f r).Served S s' b s'' := by
  obtain ⟨r, s', h₁, h₂⟩ := h.bind_inv
  exact ⟨r, s', h₁.ask_inv, h₂⟩

theorem bind {p : Prog γ ρ α} {f : α → Prog γ ρ β} (h : p.Served S s a s')
    (h' : (f a).Served S s' b s'') : (p >>= f).Served S s b s'' := by
  induction h with
  | pure a s => exact h'
  | call hc _ ih => exact .call hc (ih h')

theorem ask_bind {c : γ} {f : ρ c → Prog γ ρ β} {r : ρ c} (hc : S s c r s')
    (h : (f r).Served S s' b s'') : (Prog.ask c >>= f).Served S s b s'' :=
  .call hc h

/-- A server that answers the calls of a program in the same way. -/
theorem mono {P : γ → Prop} {S' : σ → (c : γ) → ρ c → σ → Prop} {p : Prog γ ρ α} (h : p.Served S s a s')
    (hp : p.Only P) (hS : ∀ s c r s', P c → S s c r s' → S' s c r s') : p.Served S' s a s' := by
  induction h with
  | pure a s => exact .pure a s
  | call hc _ ih =>
    cases hp with
    | call hP hk => exact .call (hS _ _ _ _ hP hc) (ih (hk _))

/-- The run of an embedded program is its own run, against what the server is to its calls. -/
theorem embed_inv {S' : σ → (c : γ ⊕ δ) → Sum.elim ρ ρ' c → σ → Prop} {p : Prog γ ρ α}
    (h : (p.embed : Prog (γ ⊕ δ) (Sum.elim ρ ρ') α).Served S' s a s') :
    p.Served (fun s c r s' => S' s (.inl c) r s') s a s' := by
  induction p generalizing s with
  | pure b =>
    obtain ⟨rfl, rfl⟩ := h.pure_inv
    exact .pure _ _
  | call c k ih =>
    cases h with
    | call hc h => exact .call hc (ih _ h)

theorem embed {S' : σ → (c : γ ⊕ δ) → Sum.elim ρ ρ' c → σ → Prop} {p : Prog γ ρ α}
    (h : p.Served (fun s c r s' => S' s (.inl c) r s') s a s') :
    (p.embed : Prog (γ ⊕ δ) (Sum.elim ρ ρ') α).Served S' s a s' := by
  induction h with
  | pure a s => exact .pure a s
  | @call c k r a s s' s'' hc _ ih =>
    exact .call (c := Sum.inl c) (k := fun r => (k r).embed) hc ih

end Served

/-! ### Invariants of the server -/

/-- Every run of `p` keeps `I`. -/
def Keeps (S : σ → (c : γ) → ρ c → σ → Prop) (I : σ → Prop) (p : Prog γ ρ α) : Prop :=
  ∀ ⦃s a s'⦄, p.Served S s a s' → I s → I s'

namespace Keeps

variable {I : σ → Prop}

theorem pure (a : α) : Keeps S I (.pure a : Prog γ ρ α) := by
  intro s a' s' h hs
  rw [h.pure_inv.2]
  exact hs

theorem bind {p : Prog γ ρ α} {f : α → Prog γ ρ β} (hp : p.Keeps S I) (hf : ∀ a, (f a).Keeps S I) :
    (p >>= f).Keeps S I := by
  intro s b s'' h hs
  obtain ⟨a, s', h₁, h₂⟩ := h.bind_inv
  exact hf a h₂ (hp h₁ hs)

theorem ask_bind {c : γ} {f : ρ c → Prog γ ρ β} (hc : ∀ s r s', S s c r s' → I s → I s')
    (hf : ∀ r, (f r).Keeps S I) : (Prog.ask c >>= f).Keeps S I := by
  intro s b s'' h hs
  obtain ⟨r, s', h₁, h₂⟩ := h.ask_bind_inv
  exact hf r h₂ (hc _ _ _ h₁ hs)

theorem embed {S' : σ → (c : γ ⊕ δ) → Sum.elim ρ ρ' c → σ → Prop} {p : Prog γ ρ α}
    (h : p.Keeps (fun s c r s' => S' s (.inl c) r s') I) :
    (p.embed : Prog (γ ⊕ δ) (Sum.elim ρ ρ') α).Keeps S' I :=
  fun _ _ _ hs => h hs.embed_inv

end Keeps

end Prog
