import Mathlib.Logic.Basic
import Mathlib.Data.List.Basic

/-!
# Programs over ports

A sequential program that talks to the outside world by calls and reacts to the answers. What the
outside answers is not part of the program: `p.Trace calls a` says that `p` can make exactly the
calls `calls`, in this order, and end with the result `a`, for some answers; `p.Dialog log a` also
says which. `p.Only P` says that no call of `p` leaves `P`, whatever is answered. `Erases clean f p q`
says that `q` is `p` with less of a result. `p.run w []` has the calls and the result of `p` in a world
`w` that answers each call by what was called before.
-/

/-- A program whose calls `c : γ` are answered in `ρ c`. -/
inductive Prog (γ : Type) (ρ : γ → Type) (α : Type) : Type
  | pure (a : α) : Prog γ ρ α
  | call (c : γ) (k : ρ c → Prog γ ρ α) : Prog γ ρ α

namespace Prog

variable {γ : Type} {ρ : γ → Type} {α β : Type} {P Q : γ → Prop}

protected def bind : Prog γ ρ α → (α → Prog γ ρ β) → Prog γ ρ β
  | .pure a, f => f a
  | .call c k, f => .call c fun r => (k r).bind f

instance : Monad (Prog γ ρ) where
  pure := .pure
  bind := Prog.bind

def ask (c : γ) : Prog γ ρ (ρ c) := .call c .pure

/-- `p` can make the calls `calls` and end with `a`. -/
inductive Trace : Prog γ ρ α → List γ → α → Prop
  | pure (a : α) : Trace (.pure a) [] a
  | call {c : γ} {k : ρ c → Prog γ ρ α} {calls : List γ} {a : α} (r : ρ c)
      (h : Trace (k r) calls a) : Trace (.call c k) (c :: calls) a

/-- Every call of `p` is in `P`. -/
inductive Only (P : γ → Prop) : Prog γ ρ α → Prop
  | pure (a : α) : Only P (.pure a)
  | call {c : γ} {k : ρ c → Prog γ ρ α} (h : P c) (hk : ∀ r, Only P (k r)) : Only P (.call c k)

theorem Only.bind {p : Prog γ ρ α} {f : α → Prog γ ρ β} (hp : p.Only P) (hf : ∀ a, (f a).Only P) :
    (p >>= f).Only P := by
  induction hp with
  | pure a => exact hf a
  | call h _ ih => exact .call h ih

theorem Only.ask {c : γ} (h : P c) : (ask c : Prog γ ρ (ρ c)).Only P :=
  .call h .pure

theorem Only.ask_bind {c : γ} {f : ρ c → Prog γ ρ β} (h : P c) (hf : ∀ r, (f r).Only P) :
    (Prog.ask c >>= f).Only P :=
  (Only.ask h).bind hf

theorem Only.mono {p : Prog γ ρ α} (h : p.Only P) (hPQ : ∀ c, P c → Q c) : p.Only Q := by
  induction h with
  | pure a => exact .pure a
  | call h _ ih => exact .call (hPQ _ h) ih

theorem Only.trace {p : Prog γ ρ α} {calls : List γ} {a : α} (h : p.Only P) (ht : p.Trace calls a) :
    ∀ c ∈ calls, P c := by
  induction ht with
  | pure a => exact fun c hc => absurd hc List.not_mem_nil
  | call r _ ih =>
    intro c hc
    cases h with
    | call h hk =>
      rcases List.mem_cons.1 hc with rfl | hc
      · exact h
      · exact ih (hk r) c hc

/-- When every call has an answer, every program has a trace. -/
theorem exists_trace [∀ c, Nonempty (ρ c)] (p : Prog γ ρ α) : ∃ calls a, p.Trace calls a := by
  induction p with
  | pure a => exact ⟨[], a, .pure a⟩
  | call c k ih =>
    obtain ⟨r⟩ := (inferInstance : Nonempty (ρ c))
    obtain ⟨calls, a, h⟩ := ih r
    exact ⟨c :: calls, a, .call r h⟩

/-- A program that starts with the call `c` has a trace with it. -/
theorem exists_trace_call [∀ c, Nonempty (ρ c)] (c : γ) (k : ρ c → Prog γ ρ α) :
    ∃ calls a, (Prog.call c k).Trace calls a ∧ c ∈ calls := by
  obtain ⟨r⟩ := (inferInstance : Nonempty (ρ c))
  obtain ⟨calls, a, h⟩ := exists_trace (k r)
  exact ⟨c :: calls, a, .call r h, List.mem_cons_self⟩

/-! ### Calls with their answers -/

/-- `p` makes the calls of `log`, is answered as `log` says, and ends with `a`. -/
inductive Dialog : Prog γ ρ α → List (Σ c, ρ c) → α → Prop
  | pure (a : α) : Dialog (.pure a) [] a
  | call {c : γ} {k : ρ c → Prog γ ρ α} {log : List (Σ c, ρ c)} {a : α} (r : ρ c)
      (h : Dialog (k r) log a) : Dialog (.call c k) (⟨c, r⟩ :: log) a

namespace Dialog

variable {log : List (Σ c, ρ c)} {a : α} {b : β}

theorem pure_inv {a' : α} (h : (Prog.pure a' : Prog γ ρ α).Dialog log a) : log = [] ∧ a = a' := by
  cases h
  exact ⟨rfl, rfl⟩

theorem bind_inv {p : Prog γ ρ α} {f : α → Prog γ ρ β} (h : (p >>= f).Dialog log b) :
    ∃ log₁ log₂ a, log = log₁ ++ log₂ ∧ p.Dialog log₁ a ∧ (f a).Dialog log₂ b := by
  induction p generalizing log with
  | pure a => exact ⟨[], log, a, rfl, .pure a, h⟩
  | call c k ih =>
    cases h with
    | call r h =>
      obtain ⟨log₁, log₂, a, rfl, h₁, h₂⟩ := ih r h
      exact ⟨⟨c, r⟩ :: log₁, log₂, a, rfl, .call r h₁, h₂⟩

theorem bind {p : Prog γ ρ α} {f : α → Prog γ ρ β} {log' : List (Σ c, ρ c)} (h : p.Dialog log a)
    (h' : (f a).Dialog log' b) : (p >>= f).Dialog (log ++ log') b := by
  induction h with
  | pure a => exact h'
  | call r _ ih => exact .call r (ih h')

theorem ask_bind {c : γ} {f : ρ c → Prog γ ρ β} (r : ρ c) (h : (f r).Dialog log b) :
    (Prog.ask c >>= f).Dialog (⟨c, r⟩ :: log) b :=
  .call r h

theorem ask_inv {c : γ} {r : ρ c} (h : (ask c : Prog γ ρ (ρ c)).Dialog log r) : log = [⟨c, r⟩] := by
  cases h with
  | call r h =>
    obtain ⟨rfl, rfl⟩ := h.pure_inv
    rfl

theorem ask_bind_inv {c : γ} {f : ρ c → Prog γ ρ β} (h : (Prog.ask c >>= f).Dialog log b) :
    ∃ r log', log = ⟨c, r⟩ :: log' ∧ (f r).Dialog log' b := by
  obtain ⟨log₁, log₂, r, rfl, h₁, h₂⟩ := h.bind_inv
  rw [h₁.ask_inv]
  exact ⟨r, log₂, rfl, h₂⟩

end Dialog

theorem Only.dialog {p : Prog γ ρ α} {log : List (Σ c, ρ c)} {a : α} (h : p.Only P)
    (hd : p.Dialog log a) : ∀ e ∈ log, P e.1 := by
  induction hd with
  | pure a => exact fun e he => absurd he List.not_mem_nil
  | call r _ ih =>
    intro e he
    cases h with
    | call h hk =>
      rcases List.mem_cons.1 he with rfl | he
      · exact h
      · exact ih (hk r) e he

/-- The calls of `p` with the answers of `w`, and its result. -/
def converse (w : (c : γ) → ρ c) : Prog γ ρ α → List (Σ c, ρ c) × α
  | .pure a => ([], a)
  | .call c k => ((⟨c, w c⟩ :: ((k (w c)).converse w).1), ((k (w c)).converse w).2)

theorem dialog_converse (w : (c : γ) → ρ c) (p : Prog γ ρ α) :
    p.Dialog (p.converse w).1 (p.converse w).2 := by
  induction p with
  | pure a => exact .pure a
  | call c k ih => exact .call (w c) (ih (w c))

/-! ### Results that the answers decide -/

/-- Whatever is answered, `p` ends in `good`. -/
def Ends (good : α → Prop) (p : Prog γ ρ α) : Prop := ∀ log a, p.Dialog log a → good a

/-- `p` ends in `good` exactly if one of its answers is in `stop`. -/
def Decided (stop : (Σ c, ρ c) → Prop) (good : α → Prop) (p : Prog γ ρ α) : Prop :=
  ∀ log a, p.Dialog log a → (good a ↔ ∃ x ∈ log, stop x)

variable {stop : (Σ c, ρ c) → Prop} {good : α → Prop} {good' : β → Prop}

theorem Ends.pure {a : α} (h : good a) : Ends good (.pure a : Prog γ ρ α) := by
  intro log a' hd
  rw [hd.pure_inv.2]
  exact h

theorem Ends.ask_bind {c : γ} {f : ρ c → Prog γ ρ β} (h : ∀ r, (f r).Ends good') :
    (Prog.ask c >>= f).Ends good' := by
  intro log b hd
  obtain ⟨r, log', -, hd⟩ := hd.ask_bind_inv
  exact h r log' b hd

theorem Decided.pure {a : α} (h : ¬ good a) : Decided stop good (.pure a : Prog γ ρ α) := by
  intro log a' hd
  obtain ⟨rfl, rfl⟩ := hd.pure_inv
  simp [h]

/-- A program goes on only where it is not decided yet. -/
theorem Decided.bind {p : Prog γ ρ α} {f : α → Prog γ ρ β} (hp : p.Decided stop good)
    (hgood : ∀ a, good a → (f a).Ends good') (hf : ∀ a, ¬ good a → (f a).Decided stop good') :
    (p >>= f).Decided stop good' := by
  intro log b hd
  obtain ⟨log₁, log₂, a, rfl, h₁, h₂⟩ := hd.bind_inv
  have hfirst := hp log₁ a h₁
  by_cases ha : good a
  · obtain ⟨x, hx, hstop⟩ := hfirst.1 ha
    exact iff_of_true (hgood a ha log₂ b h₂) ⟨x, List.mem_append_left _ hx, hstop⟩
  · rw [hf a ha log₂ b h₂]
    have hnone : ¬∃ x ∈ log₁, stop x := fun h => ha (hfirst.2 h)
    constructor
    · rintro ⟨x, hx, hstop⟩
      exact ⟨x, List.mem_append_right _ hx, hstop⟩
    · rintro ⟨x, hx, hstop⟩
      rcases List.mem_append.1 hx with hx | hx
      · exact absurd ⟨x, hx, hstop⟩ hnone
      · exact ⟨x, hx, hstop⟩

theorem Decided.ask (c : γ) : (Prog.ask c : Prog γ ρ (ρ c)).Decided stop fun r => stop ⟨c, r⟩ := by
  intro log r hd
  rw [hd.ask_inv]
  simp

theorem Decided.ask_bind {c : γ} {f : ρ c → Prog γ ρ β} (hstop : ∀ r, stop ⟨c, r⟩ → (f r).Ends good')
    (hf : ∀ r, ¬ stop ⟨c, r⟩ → (f r).Decided stop good') : (Prog.ask c >>= f).Decided stop good' :=
  (Decided.ask c).bind hstop hf

/-- A program that ends with what it makes of an answer. -/
theorem Decided.ask_map {c : γ} {g : ρ c → β} (h : ∀ r, good' (g r) ↔ stop ⟨c, r⟩) :
    (Prog.ask c >>= fun r => (.pure (g r) : Prog γ ρ β)).Decided stop good' := by
  refine .ask_bind (fun r hr => ?_) fun r hr => ?_
  · exact .pure ((h r).2 hr)
  · exact .pure (mt (h r).1 hr)

/-! ### Programs among further calls -/

section Embed

variable {δ : Type} {ρ' : δ → Type}

/-- The same program, where there are calls of another kind too. -/
def embed : Prog γ ρ α → Prog (γ ⊕ δ) (Sum.elim ρ ρ') α
  | .pure a => .pure a
  | .call c k => .call (.inl c) fun r => (k r).embed

theorem Dialog.embed_inv {p : Prog γ ρ α} {log : List (Σ c, Sum.elim ρ ρ' c)} {a : α}
    (h : p.embed.Dialog log a) :
    ∃ log₀ : List (Σ c, ρ c), log = log₀.map (fun x => ⟨.inl x.1, x.2⟩) ∧ p.Dialog log₀ a := by
  induction p generalizing log with
  | pure b =>
    obtain ⟨rfl, rfl⟩ := h.pure_inv
    exact ⟨[], rfl, .pure a⟩
  | call c k ih =>
    cases h with
    | call r h =>
      obtain ⟨log₀, rfl, h₀⟩ := ih r h
      exact ⟨⟨c, r⟩ :: log₀, rfl, .call (c := c) (k := k) r h₀⟩

theorem Dialog.embed {p : Prog γ ρ α} {log : List (Σ c, ρ c)} {a : α} (h : p.Dialog log a) :
    (p.embed : Prog (γ ⊕ δ) (Sum.elim ρ ρ') α).Dialog (log.map fun x => ⟨.inl x.1, x.2⟩) a := by
  induction h with
  | pure a => exact .pure a
  | @call c k log a r _ ih => exact .call (c := Sum.inl c) (k := fun r => (k r).embed) r ih

theorem Decided.embed {p : Prog γ ρ α} {stop' : (Σ c, Sum.elim ρ ρ' c) → Prop}
    (h : p.Decided stop good) (hstop : ∀ (c : γ) (r : ρ c), stop' ⟨.inl c, r⟩ ↔ stop ⟨c, r⟩) :
    p.embed.Decided stop' good := by
  intro log a hd
  obtain ⟨log₀, rfl, h₀⟩ := hd.embed_inv
  rw [h log₀ a h₀]
  constructor
  · rintro ⟨x, hx, hs⟩
    exact ⟨_, List.mem_map_of_mem hx, (hstop x.1 x.2).2 hs⟩
  · rintro ⟨y, hy, hs⟩
    obtain ⟨x, hx, rfl⟩ := List.mem_map.1 hy
    exact ⟨x, hx, (hstop x.1 x.2).1 hs⟩

end Embed

/-! ### Programs with a further result -/

/-- Where the answers are in `clean`, `q` does what `p` does, and ends with the image of the result. -/
def Erases (clean : (Σ c, ρ c) → Prop) (f : α → β) (p : Prog γ ρ α) (q : Prog γ ρ β) : Prop :=
  ∀ log a, p.Dialog log a → (∀ x ∈ log, clean x) → q.Dialog log (f a)

namespace Erases

variable {clean : (Σ c, ρ c) → Prop} {f : α → β} {α' β' : Type} {g : α' → β'}

theorem pure {a : α} {b : β} (h : f a = b) : Erases clean f (.pure a : Prog γ ρ α) (.pure b) := by
  intro log a' hd _
  obtain ⟨rfl, rfl⟩ := hd.pure_inv
  subst h
  exact .pure _

theorem refl (p : Prog γ ρ α) : Erases clean id p p := fun _ _ hd _ => hd

theorem bind {p : Prog γ ρ α} {q : Prog γ ρ β} {k : α → Prog γ ρ α'} {k' : β → Prog γ ρ β'}
    (h : Erases clean f p q) (hk : ∀ a, Erases clean g (k a) (k' (f a))) :
    Erases clean g (p >>= k) (q >>= k') := by
  intro log b hd hlog
  obtain ⟨log₁, log₂, a, rfl, h₁, h₂⟩ := hd.bind_inv
  have hq := h log₁ a h₁ fun x hx => hlog x (List.mem_append_left _ hx)
  exact hq.bind (hk a log₂ b h₂ fun x hx => hlog x (List.mem_append_right _ hx))

theorem ask_bind {c : γ} {k : ρ c → Prog γ ρ α'} {k' : ρ c → Prog γ ρ β'}
    (hk : ∀ r, clean ⟨c, r⟩ → Erases clean g (k r) (k' r)) :
    Erases clean g (Prog.ask c >>= k) (Prog.ask c >>= k') := by
  intro log b hd hlog
  obtain ⟨r, log', rfl, h⟩ := hd.ask_bind_inv
  have hr := hlog ⟨c, r⟩ List.mem_cons_self
  exact .ask_bind r (hk r hr log' b h fun x hx => hlog x (List.mem_cons_of_mem _ hx))

theorem embed {δ : Type} {ρ' : δ → Type} {clean' : (Σ c, Sum.elim ρ ρ' c) → Prop} {p : Prog γ ρ α}
    {q : Prog γ ρ β} (h : Erases clean f p q) (hclean : ∀ c r, clean' ⟨.inl c, r⟩ → clean ⟨c, r⟩) :
    Erases clean' f (p.embed : Prog (γ ⊕ δ) (Sum.elim ρ ρ') α) q.embed := by
  intro log a hd hlog
  obtain ⟨log₀, rfl, h₀⟩ := hd.embed_inv
  refine (h log₀ a h₀ fun x hx => hclean x.1 x.2 (hlog _ ?_)).embed
  exact List.mem_map_of_mem hx

end Erases

/-! ### Programs that can be given up -/

section Interruptible

variable {c₀ c : γ} {quits : ρ c₀ → Bool} {susp : γ → Bool} {log : List (Σ c, ρ c)}

/-- Before each call in `susp` the program asks `c₀`, and where the answer is in `quits` it ends there,
with `none`. -/
def interruptible (c₀ : γ) (quits : ρ c₀ → Bool) (susp : γ → Bool) : Prog γ ρ α → Prog γ ρ (Option α)
  | .pure a => .pure (some a)
  | .call c k =>
    if susp c then
      .call c₀ fun r => if quits r then .pure none
        else .call c fun r => (k r).interruptible c₀ quits susp
    else .call c fun r => (k r).interruptible c₀ quits susp

theorem interruptible_of_susp (hc : susp c = true) (k : ρ c → Prog γ ρ α) :
    (Prog.call c k).interruptible c₀ quits susp = .call c₀ fun r => if quits r then .pure none
      else .call c fun r => (k r).interruptible c₀ quits susp := by
  rw [interruptible, if_pos hc]

theorem interruptible_of_not_susp (hc : susp c = false) (k : ρ c → Prog γ ρ α) :
    (Prog.call c k).interruptible c₀ quits susp =
      .call c fun r => (k r).interruptible c₀ quits susp := by
  rw [interruptible, if_neg (by simp [hc])]

theorem interruptible_bind (p : Prog γ ρ α) (f : α → Prog γ ρ β) :
    (p >>= f).interruptible c₀ quits susp =
      p.interruptible c₀ quits susp >>= fun
        | none => .pure none
        | some a => (f a).interruptible c₀ quits susp := by
  induction p with
  | pure a => rfl
  | call c k ih =>
    show Prog.interruptible c₀ quits susp (.call c fun r => k r >>= f) = _
    cases hc : susp c with
    | true =>
      rw [interruptible_of_susp hc, interruptible_of_susp hc]
      simp only [ih]
      show Prog.call c₀ _ = Prog.call c₀ _
      congr 1
      funext r
      by_cases hr : quits r
      · simp only [hr]
        rfl
      · simp only [hr]
        rfl
    | false =>
      rw [interruptible_of_not_susp hc, interruptible_of_not_susp hc]
      simp only [ih]
      rfl

theorem Only.interruptible {p : Prog γ ρ α} (h : p.Only P) (h₀ : P c₀) :
    (p.interruptible c₀ quits susp).Only P := by
  induction h with
  | pure a => exact .pure _
  | call hc _ ih =>
    unfold Prog.interruptible
    split
    · refine .call h₀ fun r => ?_
      split
      · exact .pure _
      · exact .call hc ih
    · exact .call hc ih

namespace Dialog

theorem interruptible_bind_inv {p : Prog γ ρ α} {f : α → Prog γ ρ β} {x : Option β}
    (h : ((p >>= f).interruptible c₀ quits susp).Dialog log x) :
    ((p.interruptible c₀ quits susp).Dialog log none ∧ x = none) ∨
    ∃ log₁ log₂ a, log = log₁ ++ log₂ ∧ (p.interruptible c₀ quits susp).Dialog log₁ (some a) ∧
      ((f a).interruptible c₀ quits susp).Dialog log₂ x := by
  rw [interruptible_bind] at h
  obtain ⟨log₁, log₂, y, rfl, h₁, h₂⟩ := h.bind_inv
  cases y with
  | none =>
    obtain ⟨rfl, rfl⟩ := h₂.pure_inv
    rw [List.append_nil]
    exact .inl ⟨h₁, rfl⟩
  | some a => exact .inr ⟨log₁, log₂, a, rfl, h₁, h₂⟩

/-- A call before which the program is not given up. -/
theorem interruptible_free_inv {f : ρ c → Prog γ ρ β} {x : Option β} (hc : susp c = false)
    (h : ((Prog.ask c >>= f).interruptible c₀ quits susp).Dialog log x) :
    ∃ r log', log = ⟨c, r⟩ :: log' ∧ ((f r).interruptible c₀ quits susp).Dialog log' x := by
  have hfree : (Prog.ask c >>= f).interruptible c₀ quits susp =
      Prog.ask c >>= fun r => (f r).interruptible c₀ quits susp := interruptible_of_not_susp hc f
  rw [hfree] at h
  exact h.ask_bind_inv

theorem interruptible_ask_inv {f : ρ c → Prog γ ρ β} {x : Option β} (hc : susp c = true)
    (h : ((Prog.ask c >>= f).interruptible c₀ quits susp).Dialog log x) :
    (∃ r₀, quits r₀ = true ∧ log = [⟨c₀, r₀⟩] ∧ x = none) ∨
    ∃ r₀ r log', quits r₀ = false ∧ log = ⟨c₀, r₀⟩ :: ⟨c, r⟩ :: log' ∧
      ((f r).interruptible c₀ quits susp).Dialog log' x := by
  have hasks : (Prog.ask c >>= f).interruptible c₀ quits susp = Prog.ask c₀ >>= fun r₀ =>
      if quits r₀ then .pure none else Prog.ask c >>= fun r => (f r).interruptible c₀ quits susp :=
    interruptible_of_susp hc f
  rw [hasks] at h
  obtain ⟨r₀, log', rfl, h'⟩ := h.ask_bind_inv
  by_cases hr : quits r₀
  · rw [if_pos hr] at h'
    obtain ⟨rfl, rfl⟩ := h'.pure_inv
    exact .inl ⟨r₀, hr, rfl, rfl⟩
  · rw [if_neg hr] at h'
    obtain ⟨r, log'', rfl, h''⟩ := h'.ask_bind_inv
    exact .inr ⟨r₀, r, log'', eq_false_of_ne_true hr, rfl, h''⟩

/-- A program that has not been given up was never told to. -/
theorem interruptible_kept {p : Prog γ ρ α} {a : α} (hp : p.Only (· ≠ c₀))
    (h : (p.interruptible c₀ quits susp).Dialog log (some a)) (r : ρ c₀)
    (hr : (⟨c₀, r⟩ : Σ c, ρ c) ∈ log) : quits r = false := by
  induction hp generalizing log with
  | pure b =>
    obtain ⟨rfl, -⟩ := h.pure_inv
    exact absurd hr List.not_mem_nil
  | @call c k hne _ ih =>
    have hcall : ∀ {r' log'}, ((k r').interruptible c₀ quits susp).Dialog log' (some a) →
        (⟨c₀, r⟩ : Σ c, ρ c) ∈ (⟨c, r'⟩ : Σ c, ρ c) :: log' → quits r = false := by
      intro r' log' h' hmem
      rcases List.mem_cons.1 hmem with heq | hmem
      · exact absurd (congrArg Sigma.fst heq).symm hne
      · exact ih r' h' hmem
    cases hc : susp c with
    | false =>
      obtain ⟨r', log', rfl, h'⟩ := interruptible_free_inv (f := k) hc h
      exact hcall h' hr
    | true =>
      rcases interruptible_ask_inv (f := k) hc h with ⟨_, -, -, hnone⟩ | ⟨r₀, r', log', hr₀, rfl, h'⟩
      · cases hnone
      · rcases List.mem_cons.1 hr with heq | hr
        · cases heq
          exact hr₀
        · exact hcall h' hr

end Dialog

end Interruptible

/-! ### Runs in a world -/

/-- The calls of `p`, after the calls `past`, and its result; `w past c` answers the call `c`. -/
def run (w : List γ → (c : γ) → ρ c) (past : List γ) : Prog γ ρ α → List γ × α
  | .pure a => (past, a)
  | .call c k => (k (w past c)).run w (past ++ [c])

/-- Two worlds that agree on every call in `P` are the same to a program that makes no other. -/
theorem run_congr {p : Prog γ ρ α} {w w' : List γ → (c : γ) → ρ c} (h : p.Only P)
    (hw : ∀ past c, P c → w past c = w' past c) (past : List γ) : p.run w past = p.run w' past := by
  induction h generalizing past with
  | pure a => rfl
  | call hc _ ih =>
    unfold run
    rw [hw past _ hc]
    exact ih _ _

end Prog
