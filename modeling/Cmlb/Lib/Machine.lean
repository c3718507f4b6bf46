import Mathlib.Data.List.Induction

/-!
# Labelled machines

A machine is a partial step function: `M.step s e` is the state after the event `e`, or `none` when
`e` cannot happen in `s`. `M.Steps P s t s'` says that the events `t` lead from `s` to `s'` and that
`P` held of the state and the event at every step; `P = fun _ _ => True` is an arbitrary run. The
rules the developments use: an invariant of the steps is an invariant of the runs
(`Steps.invariant`), and a run either keeps to a guard or has a first step that breaks it
(`Steps.guarded_or_break`). `drive` is for two machines that get the same events.
-/

structure Machine (σ ε : Type*) where
  step : σ → ε → Option σ

namespace Machine

variable {σ ε τ δ : Type*}

/-- The state after the events `t`, if each of them can happen in its turn and passes `p`. -/
def runIf (M : Machine σ ε) (p : σ → ε → Bool) : σ → List ε → Option σ
  | s, [] => some s
  | s, e :: t => if p s e then (M.step s e).bind fun s' => M.runIf p s' t else none

def next (M : Machine σ ε) (s : σ) (e : ε) : σ := (M.step s e).getD s

/-- The state after the events `t`, where an event that cannot happen is dropped. -/
def drive (M : Machine σ ε) (s : σ) (t : List ε) : σ := t.foldl M.next s

/-- Every state and event on the way of `drive` passes `p`. -/
def drivesIf (M : Machine σ ε) (p : σ → ε → Bool) : σ → List ε → Bool
  | _, [] => true
  | s, e :: t => p s e && M.drivesIf p (M.next s e) t

/-- The events `t` lead from `s` to `s'`, and `P` holds at every step. -/
inductive Steps (M : Machine σ ε) (P : σ → ε → Prop) : σ → List ε → σ → Prop
  | nil (s : σ) : Steps M P s [] s
  | snoc {s s' s'' : σ} {t : List ε} {e : ε} (h : Steps M P s t s') (hp : P s' e)
      (hs : M.step s' e = some s'') : Steps M P s (t ++ [e]) s''

abbrev Runs (M : Machine σ ε) : σ → List ε → σ → Prop := M.Steps fun _ _ => True

namespace Steps

variable {M : Machine σ ε} {P Q : σ → ε → Prop} {s s' s'' : σ} {t t' : List ε}

theorem mono (hPQ : ∀ s e, P s e → Q s e) (h : M.Steps P s t s') : M.Steps Q s t s' := by
  induction h with
  | nil => exact .nil _
  | snoc _ hp hs ih => exact .snoc ih (hPQ _ _ hp) hs

theorem runs (h : M.Steps P s t s') : M.Runs s t s' := h.mono fun _ _ _ => trivial

/-- A guard that every event of the run passes in any state. -/
theorem of_forall_mem (h : M.Runs s t s') (hP : ∀ s, ∀ e ∈ t, P s e) : M.Steps P s t s' := by
  induction h with
  | nil => exact .nil _
  | snoc _ _ hs ih =>
    refine .snoc (ih fun s e he => hP s e (List.mem_append_left _ he)) (hP _ _ ?_) hs
    exact List.mem_append_right _ List.mem_cons_self

theorem append (h : M.Steps P s t s') (h' : M.Steps P s' t' s'') : M.Steps P s (t ++ t') s'' := by
  induction h' with
  | nil => simpa using h
  | snoc _ hp hs ih => rw [← List.append_assoc]; exact .snoc ih hp hs

theorem cons {e : ε} (hp : P s e) (hs : M.step s e = some s') (h : M.Steps P s' t s'') :
    M.Steps P s (e :: t) s'' :=
  append (t := [e]) (.snoc (.nil s) hp hs) h

theorem snoc_inv {e : ε} (h : M.Steps P s (t ++ [e]) s'') :
    ∃ s', M.Steps P s t s' ∧ P s' e ∧ M.step s' e = some s'' := by
  generalize ht : t ++ [e] = u at h
  cases h with
  | nil => simp at ht
  | snoc h hp hs =>
    obtain ⟨rfl, he⟩ := List.append_inj' ht rfl
    cases he
    exact ⟨_, h, hp, hs⟩

theorem det (h : M.Steps P s t s') (h' : M.Steps Q s t s'') : s' = s'' := by
  induction h generalizing s'' with
  | nil =>
    generalize ht : ([] : List ε) = u at h'
    cases h' with
    | nil => rfl
    | snoc => simp at ht
  | snoc _ _ hs ih =>
    obtain ⟨s₁, h₁, -, hs₁⟩ := h'.snoc_inv
    cases ih h₁
    exact Option.some.inj (hs.symm.trans hs₁)

theorem append_inv (h : M.Steps P s (t ++ t') s'') : ∃ s', M.Steps P s t s' ∧ M.Steps P s' t' s'' := by
  induction t' using List.reverseRecOn generalizing s'' with
  | nil =>
    rw [List.append_nil] at h
    exact ⟨s'', h, .nil s''⟩
  | append_singleton t' e ih =>
    rw [← List.append_assoc] at h
    obtain ⟨s₁, h₁, hp, hs⟩ := h.snoc_inv
    obtain ⟨s', h', h₂⟩ := ih h₁
    exact ⟨s', h', .snoc h₂ hp hs⟩

theorem cons_inv {e : ε} (h : M.Steps P s (e :: t) s'') :
    ∃ s', P s e ∧ M.step s e = some s' ∧ M.Steps P s' t s'' := by
  obtain ⟨s', h₁, h₂⟩ := append_inv (t := [e]) h
  obtain ⟨s₀, h₀, hp, hs⟩ := snoc_inv (t := []) h₁
  cases h₀.det (.nil (P := P) s)
  exact ⟨s', hp, hs, h₂⟩

/-- A guarded run is guarded up to each of its prefixes. -/
theorem of_append (h : M.Steps P s (t ++ t') s'') (h' : M.Steps Q s t s') : M.Steps P s t s' := by
  induction t' using List.reverseRecOn generalizing s'' with
  | nil =>
    rw [List.append_nil] at h
    rwa [← h.det h']
  | append_singleton t' e ih =>
    rw [← List.append_assoc] at h
    obtain ⟨s₁, h₁, -, -⟩ := h.snoc_inv
    exact ih h₁

/-- An invariant of the guarded steps holds along every guarded run. -/
theorem invariant {I : σ → Prop} (h0 : I s)
    (hI : ∀ s e s', P s e → I s → M.step s e = some s' → I s') (h : M.Steps P s t s') : I s' := by
  induction h with
  | nil => exact h0
  | snoc _ hp hs ih => exact hI _ _ _ hp ih hs

/-- Along an invariant, a guard may be replaced by what it gives there. -/
theorem imp_of_invariant {I : σ → Prop} (h0 : I s)
    (hI : ∀ s e s', P s e → I s → M.step s e = some s' → I s')
    (hPQ : ∀ s e s', P s e → I s → M.step s e = some s' → Q s e) (h : M.Steps P s t s') :
    M.Steps Q s t s' := by
  induction h with
  | nil => exact .nil _
  | snoc h hp hs ih => exact .snoc ih (hPQ _ _ _ hp (h.invariant h0 hI) hs) hs

/-- A measure that every step of a guarded run lowers bounds the length of the guarded runs. -/
theorem length_add_le {μ : σ → Nat} (hμ : ∀ t s₁ e s₂, M.Steps P s t s₁ → P s₁ e →
    M.step s₁ e = some s₂ → μ s₂ < μ s₁) (h : M.Steps P s t s') : t.length + μ s' ≤ μ s := by
  induction h with
  | nil => simp
  | snoc h hp hs ih =>
    have hlt := hμ _ _ _ _ h hp hs
    rw [List.length_append, List.length_singleton]
    omega

/-- A guarded run keeps to a further guard `Q`, or it has a first step that breaks it. -/
theorem both_or_break (Q : σ → ε → Prop) (h : M.Steps P s t s') :
    M.Steps (fun s e => P s e ∧ Q s e) s t s' ∨ ∃ t₁ e t₂ s₁ s₂, t = t₁ ++ e :: t₂ ∧
      M.Steps (fun s e => P s e ∧ Q s e) s t₁ s₁ ∧ P s₁ e ∧ ¬ Q s₁ e ∧ M.step s₁ e = some s₂ ∧
      M.Steps P s₂ t₂ s' := by
  induction h with
  | nil => exact .inl (.nil _)
  | @snoc s₁ s₂ t e h hp hs ih =>
    rcases ih with ih | ⟨t₁, e', t₂, s₃, s₄, rfl, h1, h2, h3, h4, h5⟩
    · by_cases hq : Q s₁ e
      · exact .inl (.snoc ih ⟨hp, hq⟩ hs)
      · exact .inr ⟨t, e, [], s₁, s₂, rfl, ih, hp, hq, hs, .nil _⟩
    · exact .inr ⟨t₁, e', t₂ ++ [e], s₃, s₄, by simp, h1, h2, h3, h4, .snoc h5 hp hs⟩

/-- A run keeps to the guard `P`, or it has a first step that breaks it. -/
theorem guarded_or_break (P : σ → ε → Prop) (h : M.Runs s t s') :
    M.Steps P s t s' ∨ ∃ t₁ e t₂ s₁ s₂, t = t₁ ++ e :: t₂ ∧ M.Steps P s t₁ s₁ ∧ ¬ P s₁ e ∧
      M.step s₁ e = some s₂ ∧ M.Runs s₂ t₂ s' := by
  have hmono : ∀ s e, True ∧ P s e → P s e := fun _ _ h => h.2
  rcases h.both_or_break P with h | ⟨t₁, e, t₂, s₁, s₂, ht, h1, -, h2, h3, h4⟩
  · exact .inl (h.mono hmono)
  · exact .inr ⟨t₁, e, t₂, s₁, s₂, ht, h1.mono hmono, h2, h3, h4⟩

end Steps

variable {M : Machine σ ε}

theorem steps_of_runIf {p : σ → ε → Bool} {s s' : σ} {t : List ε} (h : M.runIf p s t = some s') :
    M.Steps (fun s e => p s e = true) s t s' := by
  induction t generalizing s with
  | nil => cases h; exact .nil _
  | cons e t ih =>
    unfold runIf at h
    split at h
    · obtain ⟨s₁, hs, h⟩ := Option.bind_eq_some_iff.1 h
      exact .cons ‹_› hs (ih h)
    · cases h

/-- What is observed at the end of an executable run is observed at the end of a run. -/
theorem exists_steps {β : Type*} {p : σ → ε → Bool} {s : σ} {t : List ε} {obs : σ → β} {o : β}
    (h : (M.runIf p s t).map obs = some o) :
    ∃ s', M.Steps (fun s e => p s e = true) s t s' ∧ obs s' = o := by
  obtain ⟨s', hs, ho⟩ := Option.map_eq_some_iff.1 h
  exact ⟨s', steps_of_runIf hs, ho⟩

def run (M : Machine σ ε) : σ → List ε → Option σ := M.runIf fun _ _ => true

theorem exists_runs {β : Type*} {s : σ} {t : List ε} {obs : σ → β} {o : β}
    (h : (M.run s t).map obs = some o) : ∃ s', M.Runs s t s' ∧ obs s' = o := by
  obtain ⟨s', hs, ho⟩ := exists_steps h
  exact ⟨s', hs.runs, ho⟩

/-! ### What is noted along a run -/

variable {ω : Type*} {obs : σ → ε → List ω}

/-- What `obs` notes at the steps of the events `t`. -/
def trail (M : Machine σ ε) (obs : σ → ε → List ω) : σ → List ε → List ω
  | _, [] => []
  | s, e :: t => obs s e ++ (M.step s e).elim [] fun s' => M.trail obs s' t

theorem Steps.trail_snoc {P : σ → ε → Prop} {s s' : σ} {t : List ε} {e : ε} (h : M.Steps P s t s') :
    M.trail obs s (t ++ [e]) = M.trail obs s t ++ obs s' e := by
  induction t generalizing s with
  | nil =>
    cases h.det (.nil (P := P) s)
    cases hs : M.step s' e <;> simp [trail, hs]
  | cons x t ih =>
    obtain ⟨s₁, -, hs, h₁⟩ := h.cons_inv
    simp only [List.cons_append, trail, hs, Option.elim_some, List.append_assoc]
    rw [ih h₁]

/-- What was noted at the first events stays noted. -/
theorem trail_prefix (s : σ) (t₁ t₂ : List ε) : M.trail obs s t₁ <+: M.trail obs s (t₁ ++ t₂) := by
  induction t₁ generalizing s with
  | nil => exact List.nil_prefix
  | cons e t₁ ih =>
    refine (List.prefix_append_right_inj _).2 ?_
    cases M.step s e with
    | none => exact List.prefix_rfl
    | some s' => exact ih s'

/-- An assertion about what was noted so far and the state. -/
theorem Steps.trail_invariant {P : σ → ε → Prop} {I : List ω → σ → Prop} {s s' : σ} {t : List ε}
    (h0 : I [] s) (hI : ∀ l s e s', P s e → I l s → M.step s e = some s' → I (l ++ obs s e) s')
    (h : M.Steps P s t s') : I (M.trail obs s t) s' := by
  induction h with
  | nil => exact h0
  | snoc h hp hs ih =>
    rw [h.trail_snoc]
    exact hI _ _ _ _ hp ih hs

/-! ### Driven machines -/

theorem drive_invariant {I : σ → Prop} {s : σ} {t : List ε} (h0 : I s)
    (hI : ∀ s e s', I s → M.step s e = some s' → I s') : I (M.drive s t) := by
  induction t generalizing s with
  | nil => exact h0
  | cons e t ih =>
    refine ih (s := M.next s e) ?_
    unfold next
    cases hs : M.step s e with
    | none => exact h0
    | some s' => exact hI s e s' h0 hs

/-- Two machines in step on the guarded events stay related when driven by the same events. -/
theorem drive_related {N : Machine τ ε} {R : σ → τ → Prop} {p : σ → ε → Bool} {s : σ} {u : τ}
    {t : List ε} (hR : ∀ s u e, R s u → p s e = true → R (M.next s e) (N.next u e)) (h0 : R s u)
    (hp : M.drivesIf p s t = true) : R (M.drive s t) (N.drive u t) := by
  induction t generalizing s u with
  | nil => exact h0
  | cons e t ih =>
    obtain ⟨hpe, hpt⟩ := Bool.and_eq_true_iff.1 hp
    exact ih (hR s u e h0 hpe) hpt

/-- Driven events that do not all pass `p` have a first one that does not. -/
theorem exists_of_not_drivesIf {p : σ → ε → Bool} {s : σ} {t : List ε} (h : M.drivesIf p s t = false) :
    ∃ t₁ e t₂, t = t₁ ++ e :: t₂ ∧ M.drivesIf p s t₁ = true ∧ p (M.drive s t₁) e = false := by
  induction t generalizing s with
  | nil => cases h
  | cons e t ih =>
    by_cases hpe : p s e = true
    · have ht : M.drivesIf p (M.next s e) t = false := by
        simpa only [drivesIf, hpe, Bool.true_and] using h
      obtain ⟨t₁, e', t₂, rfl, h₁, h₂⟩ := ih ht
      exact ⟨e :: t₁, e', t₂, rfl, by simp only [drivesIf, hpe, h₁, Bool.and_self], h₂⟩
    · exact ⟨[], e, t, rfl, rfl, Bool.eq_false_iff.2 hpe⟩

theorem drive_append (s : σ) (t₁ : List ε) (e : ε) (t₂ : List ε) :
    M.drive s (t₁ ++ e :: t₂) = M.drive (M.next (M.drive s t₁) e) t₂ := by
  unfold drive
  rw [List.foldl_append, List.foldl_cons]

end Machine
