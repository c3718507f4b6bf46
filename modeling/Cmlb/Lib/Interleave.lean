import Mathlib.Logic.Function.Basic
import Cmlb.Lib.Machine

/-!
# Interleaved coroutines

Coroutines `i : ι` of one kind, each with a local state in `τ`, over a shared state `σ`. One event is
one step of one coroutine (`act`) or of the rest of the world (`env`), so the runs of the machine are
all the interleavings. `Interleaving.each` is the rule for an assertion about each coroutine: its own
steps establish it, and nobody else's step disturbs it.
-/

/-- What stands at `j` after an update at `i` is the new value or was there before. -/
theorem eq_of_update_eq {ι α : Type*} [DecidableEq ι] {w : ι → α} {i j : ι} {v x : α}
    (h : Function.update w i v j = x) : j = i ∧ v = x ∨ j ≠ i ∧ w j = x := by
  by_cases hj : j = i
  · subst hj
    rw [Function.update_self] at h
    exact .inl ⟨rfl, h⟩
  · rw [Function.update_of_ne hj] at h
    exact .inr ⟨hj, h⟩

structure Sys (ι σ τ : Type*) where
  shared : σ
  locals : ι → τ

inductive SysEvent (ι η ε : Type*)
  | env (e : η)
  | act (i : ι) (e : ε)
deriving DecidableEq

structure Interleaving (ι σ τ η ε : Type*) where
  env : σ → η → Option σ
  act : ι → σ → τ → ε → Option (σ × τ)

namespace Interleaving

variable {ι σ τ η ε : Type*} [DecidableEq ι]

def machine (C : Interleaving ι σ τ η ε) : Machine (Sys ι σ τ) (SysEvent ι η ε) where
  step s
    | .env e => (C.env s.shared e).map fun sh => { s with shared := sh }
    | .act i e => (C.act i s.shared (s.locals i) e).map fun x => ⟨x.1, Function.update s.locals i x.2⟩

variable {C : Interleaving ι σ τ η ε} {s s' : Sys ι σ τ} {e : SysEvent ι η ε}
  {t : List (SysEvent ι η ε)}

theorem step_act {i : ι} {x : ε} {sh : σ} {l : τ} (h : C.act i s.shared (s.locals i) x = some (sh, l)) :
    C.machine.step s (.act i x) = some ⟨sh, Function.update s.locals i l⟩ :=
  congrArg (Option.map _) h

theorem step_inv (h : C.machine.step s e = some s') :
    (∃ x, e = .env x ∧ C.env s.shared x = some s'.shared ∧ s'.locals = s.locals) ∨
    ∃ i x l, e = .act i x ∧ C.act i s.shared (s.locals i) x = some (s'.shared, l) ∧
      s'.locals = Function.update s.locals i l := by
  cases e with
  | env x =>
    obtain ⟨sh, hsh, rfl⟩ := Option.map_eq_some_iff.1 h
    exact .inl ⟨x, rfl, hsh, rfl⟩
  | act i x =>
    obtain ⟨⟨sh, l⟩, hact, rfl⟩ := Option.map_eq_some_iff.1 h
    exact .inr ⟨i, x, l, rfl, hact, rfl⟩

/-- An assertion `A` about each coroutine holds along every guarded run when a step establishes it
for the coroutine that makes the step and keeps it for the others. -/
theorem each {A : ι → σ → τ → Prop} {P : Sys ι σ τ → SysEvent ι η ε → Prop}
    (h0 : ∀ i, A i s.shared (s.locals i))
    (own : ∀ s i x sh l, P s (.act i x) → (∀ j, A j s.shared (s.locals j)) →
      C.act i s.shared (s.locals i) x = some (sh, l) → A i sh l)
    (others : ∀ s i x sh l, P s (.act i x) → (∀ j, A j s.shared (s.locals j)) →
      C.act i s.shared (s.locals i) x = some (sh, l) → ∀ j, j ≠ i → A j sh (s.locals j))
    (env : ∀ s x sh, P s (.env x) → (∀ j, A j s.shared (s.locals j)) →
      C.env s.shared x = some sh → ∀ j, A j sh (s.locals j))
    (h : C.machine.Steps P s t s') : ∀ i, A i s'.shared (s'.locals i) := by
  refine h.invariant (I := fun s => ∀ i, A i s.shared (s.locals i)) h0 ?_
  intro s e s' hp hA hs j
  rcases step_inv hs with ⟨x, rfl, hx, hl⟩ | ⟨i, x, l, rfl, hx, hl⟩
  · rw [hl]
    exact env s x _ hp hA hx j
  · by_cases hj : j = i
    · subst hj
      rw [hl, Function.update_self]
      exact own s j x _ l hp hA hx
    · rw [hl, Function.update_of_ne hj]
      exact others s i x _ l hp hA hx j hj

end Interleaving
