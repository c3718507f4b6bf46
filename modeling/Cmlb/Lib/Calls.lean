import Mathlib.Data.List.Basic

/-!
# Calls one after another

`history step s calls` are the results of the calls and the state they leave. Two objects that give the
same results from related states, and stay related, cannot be told apart by any calls
(`history_related`).
-/

namespace Calls

variable {σ τ ε ρ : Type*}

def history (step : σ → ε → ρ × σ) (s : σ) : List ε → List ρ × σ
  | [] => ([], s)
  | e :: es =>
    let rest := history step (step s e).2 es
    ((step s e).1 :: rest.1, rest.2)

theorem history_related {step : σ → ε → ρ × σ} {step' : τ → ε → ρ × τ} {Rel : σ → τ → Prop} {P : ε → Prop}
    (hstep : ∀ s u e, Rel s u → P e → (step s e).1 = (step' u e).1 ∧ Rel (step s e).2 (step' u e).2)
    {es : List ε} (hes : ∀ e ∈ es, P e) {s : σ} {u : τ} (h : Rel s u) :
    (history step s es).1 = (history step' u es).1 ∧ Rel (history step s es).2 (history step' u es).2 := by
  induction es generalizing s u with
  | nil => exact ⟨rfl, h⟩
  | cons e es ih =>
    obtain ⟨hresult, hrel⟩ := hstep s u e h (hes e List.mem_cons_self)
    obtain ⟨hresults, hrest⟩ := ih (fun e he => hes e (List.mem_cons_of_mem _ he)) hrel
    exact ⟨congrArg₂ List.cons hresult hresults, hrest⟩

end Calls
