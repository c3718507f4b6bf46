import Cmlb.Core.Error
import Cmlb.Lib.Prog

/-!
# Cancelled results

`Cancelled` is the one code that an error must keep on its way up. `decided_passOn` is the rule for a
program that passes errors on, mostly by `orReturn`: what is decided by the answers of a call stays so.
-/

namespace Cmlb

variable {γ : Type} {ρ : γ → Type} {α β : Type}

/-- A result with the code `Cancelled`. -/
def IsCancelled (r : Result α) : Prop := ∃ err, r = .error err ∧ err.code = .cancelled

theorem isCancelled_error {err : AppError} :
    IsCancelled (.error err : Result α) ↔ err.code = .cancelled := by
  simp [IsCancelled]

theorem not_isCancelled_ok {a : α} : ¬ IsCancelled (.ok a : Result α) := by
  simp [IsCancelled]

/-- `if (!res) co_return std::unexpected(res.error());` -/
def orReturn (res : Result α) (f : α → Prog γ ρ (Result β)) : Prog γ ρ (Result β) :=
  match res with
  | .error err => pure (.error err)
  | .ok a => f a

variable {stop : (Σ c, ρ c) → Prop}

theorem decided_error {err : AppError} (h : err.code ≠ .cancelled) :
    (pure (.error err) : Prog γ ρ (Result α)).Decided stop IsCancelled :=
  .pure (mt isCancelled_error.1 h)

theorem ends_error {err : AppError} (h : err.code = .cancelled) :
    (pure (.error err) : Prog γ ρ (Result α)).Ends IsCancelled :=
  .pure (isCancelled_error.2 h)

theorem decided_ok (a : α) : (pure (.ok a) : Prog γ ρ (Result α)).Decided stop IsCancelled :=
  .pure not_isCancelled_ok

/-- A program that passes the errors of `p` on. -/
theorem decided_passOn {p : Prog γ ρ (Result α)} {f : Result α → Prog γ ρ (Result β)}
    (hp : p.Decided stop IsCancelled) (herr : ∀ err, f (.error err) = pure (.error err))
    (hok : ∀ a, (f (.ok a)).Decided stop IsCancelled) : (p >>= f).Decided stop IsCancelled := by
  refine hp.bind ?_ ?_
  · rintro _ ⟨err, rfl, hcode⟩
    rw [herr]
    exact ends_error hcode
  · intro res hnot
    cases res with
    | error err =>
      rw [herr]
      exact decided_error (mt isCancelled_error.2 hnot)
    | ok a => exact hok a

theorem decided_orReturn {p : Prog γ ρ (Result α)} {f : α → Prog γ ρ (Result β)}
    (hp : p.Decided stop IsCancelled) (hf : ∀ a, (f a).Decided stop IsCancelled) :
    (p >>= fun res => orReturn res f).Decided stop IsCancelled :=
  decided_passOn hp (fun _ => rfl) hf

end Cmlb
