import Cmlb.Lib.Prog

/-!
# Programs whose calls are programs

`p.interp h` is `p` with the program `h c` in the place of each call `c`. Its dialogs are those of `p`,
with every call drawn out into a dialog of its program (`Dialog.interp_inv`).
-/

namespace Prog

variable {γ δ : Type} {ρ : γ → Type} {ρ' : δ → Type} {α β : Type} {h : (c : γ) → Prog δ ρ' (ρ c)}

def interp (h : (c : γ) → Prog δ ρ' (ρ c)) : Prog γ ρ α → Prog δ ρ' α
  | .pure a => .pure a
  | .call c k => h c >>= fun r => (k r).interp h

theorem Only.interp {P : γ → Prop} {Q : δ → Prop} {p : Prog γ ρ α} (hp : p.Only P)
    (hh : ∀ c, P c → (h c).Only Q) : (p.interp h).Only Q := by
  induction hp with
  | pure a => exact .pure a
  | call hc _ ih => exact (hh _ hc).bind ih

/-- The log `log` of the calls, each drawn out into a log of its program. -/
inductive DrawnOut (h : (c : γ) → Prog δ ρ' (ρ c)) : List (Σ c, ρ c) → List (Σ c, ρ' c) → Prop
  | nil : DrawnOut h [] []
  | cons {c : γ} {r : ρ c} {log : List (Σ c, ρ c)} {below below' : List (Σ c, ρ' c)}
      (hc : (h c).Dialog below r) (ht : DrawnOut h log below') :
      DrawnOut h (⟨c, r⟩ :: log) (below ++ below')

theorem Dialog.interp_inv {p : Prog γ ρ α} {below : List (Σ c, ρ' c)} {a : α}
    (hd : (p.interp h).Dialog below a) : ∃ log, p.Dialog log a ∧ DrawnOut h log below := by
  induction p generalizing below with
  | pure b =>
    obtain ⟨rfl, rfl⟩ := hd.pure_inv
    exact ⟨[], .pure a, .nil⟩
  | call c k ih =>
    obtain ⟨below₁, below₂, r, rfl, h₁, h₂⟩ := hd.bind_inv
    obtain ⟨log, hlog, hdrawn⟩ := ih r h₂
    exact ⟨⟨c, r⟩ :: log, .call r hlog, .cons h₁ hdrawn⟩

theorem Dialog.interp {p : Prog γ ρ α} {log : List (Σ c, ρ c)} {below : List (Σ c, ρ' c)} {a : α}
    (hd : p.Dialog log a) (hlog : DrawnOut h log below) : (p.interp h).Dialog below a := by
  induction hd generalizing below with
  | pure a =>
    cases hlog
    exact .pure a
  | call r _ ih =>
    cases hlog with
    | cons hc ht => exact hc.bind (ih ht)

theorem Only.embed {P : γ → Prop} {p : Prog γ ρ α} (hp : p.Only P) (Q : δ → Prop) :
    (p.embed : Prog (γ ⊕ δ) (Sum.elim ρ ρ') α).Only (Sum.elim P Q) := by
  induction hp with
  | pure a => exact .pure a
  | @call c k hc _ ih =>
    exact .call (ρ := Sum.elim ρ ρ') (P := Sum.elim P Q) (c := Sum.inl c) (k := fun r => (k r).embed) hc ih

end Prog
