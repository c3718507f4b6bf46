import Mathlib.Logic.Function.Basic
import Mathlib.Data.List.Nodup
import Cmlb.Lib.Interleave

/-!
# A one-token semaphore

A channel with room for one token, used as a lock by coroutines `i : ι`. `tryReceive` takes the token
if it is there. `asyncReceive` takes it, or waits for it in a queue; in both cases the coroutine goes
on later, when it is `resumed`. `trySend` gives the token back: to the first in the queue, else to
the channel. The semaphore does not know what the coroutines do: `ph i` says where `i` is, and
`Sem.Valid s ph` that it fits together. Each operation keeps it, so the token is in the channel or one
coroutine has it (`Valid.token_or_holder`).
-/

inductive Phase
  | outside
  | waiting
  | inside
deriving DecidableEq

/-- `token`: it is in the channel; `handed`: it is on its way to a coroutine that waited for it. -/
structure Sem (ι : Type*) where
  token : Bool
  waiters : List ι
  handed : Option ι

namespace Sem

variable {ι : Type*}

def tryReceive (s : Sem ι) : Option (Sem ι) := if s.token then some { s with token := false } else none

def asyncReceive (s : Sem ι) (i : ι) : Sem ι :=
  if s.token then { s with token := false, handed := some i }
  else { s with waiters := s.waiters ++ [i] }

/-- The token arrives at `i`. -/
def resumed [DecidableEq ι] (s : Sem ι) (i : ι) : Option (Sem ι) :=
  if s.handed = some i then some { s with handed := none } else none

/-- The wait of `i` is cancelled, unless the token is already on its way. -/
def cancel [DecidableEq ι] (s : Sem ι) (i : ι) : Option (Sem ι) :=
  if i ∈ s.waiters then some { s with waiters := s.waiters.erase i } else none

def trySend (s : Sem ι) : Sem ι :=
  match s.waiters with
  | [] => { s with token := true }
  | i :: rest => { s with waiters := rest, handed := some i }

def start : Sem ι := ⟨true, [], none⟩

/-- `i` has the token, or will have it when it goes on. -/
def Holds (s : Sem ι) (ph : ι → Phase) (i : ι) : Prop := ph i = .inside ∨ s.handed = some i

/-- Who has the token, if it is not in the channel. -/
structure Owned (s : Sem ι) (ph : ι → Phase) (o : Option ι) : Prop where
  token : s.token = o.isNone
  holds_iff : ∀ i, s.Holds ph i ↔ o = some i
  idle : o = none → s.waiters = []

structure Valid (s : Sem ι) (ph : ι → Phase) : Prop where
  owned : ∃ o, s.Owned ph o
  waiting_iff : ∀ i, ph i = .waiting ↔ i ∈ s.waiters ∨ s.handed = some i
  nodup : s.waiters.Nodup
  handed : ∀ i, s.handed = some i → i ∉ s.waiters

theorem valid_start {ph : ι → Phase} (h : ∀ i, ph i = .outside) : Valid start ph where
  owned := ⟨none, rfl, fun i => by simp [Holds, h, start], fun _ => rfl⟩
  waiting_iff i := by simp [h, start]
  nodup := List.nodup_nil
  handed i hi := nomatch hi

theorem Valid.token_or_holder {s : Sem ι} {ph : ι → Phase} (h : Valid s ph) :
    (s.token = true ∧ ∀ i, ¬ s.Holds ph i) ∨
    s.token = false ∧ ∃ i, s.Holds ph i ∧ ∀ j, s.Holds ph j → j = i := by
  obtain ⟨o, ht, ho, -⟩ := h.owned
  cases o with
  | none => exact .inl ⟨ht, fun i hi => nomatch (ho i).1 hi⟩
  | some i => exact .inr ⟨ht, i, (ho i).2 rfl, fun j hj => (Option.some.inj ((ho j).1 hj)).symm⟩

variable {s s' : Sem ι} {ph : ι → Phase} {i j : ι}

theorem Valid.inside_unique (h : Valid s ph) (hi : ph i = .inside) (hj : ph j = .inside) : i = j := by
  obtain ⟨o, -, ho, -⟩ := h.owned
  exact Option.some.inj (((ho i).1 (.inl hi)).symm.trans ((ho j).1 (.inl hj)))

theorem Owned.eq_none {o : Option ι} (h : s.Owned ph o) (ht : s.token = true) : o = none :=
  Option.isNone_iff_eq_none.1 (h.token.symm.trans ht)

variable [DecidableEq ι]

namespace Valid

theorem tryReceive (h : Valid s ph) (hi : ph i = .outside) (hs : s.tryReceive = some s') :
    Valid s' (Function.update ph i .inside) := by
  obtain ⟨⟨o, hown⟩, hwait, hnodup, hhanded⟩ := h
  unfold Sem.tryReceive at hs
  split at hs
  · rename_i ht
    cases hs
    -- nobody had it, and nobody else has it now
    obtain rfl := hown.eq_none ht
    have hnot : ∀ j, ¬ (ph j = .inside ∨ s.handed = some j) := fun j hj => nomatch (hown.holds_iff j).1 hj
    refine ⟨⟨some i, rfl, ?_, fun h => nomatch h⟩, ?_, hnodup, hhanded⟩
    · grind [Function.update_apply, Holds]
    · grind [Function.update_apply]
  · cases hs

theorem asyncReceive (h : Valid s ph) (hi : ph i = .outside) :
    Valid (s.asyncReceive i) (Function.update ph i .waiting) := by
  obtain ⟨⟨o, hown⟩, hwait, hnodup, hhanded⟩ := h
  have hholds : ∀ j, ph j = .inside ∨ s.handed = some j ↔ o = some j := hown.holds_iff
  unfold Sem.asyncReceive
  split
  · -- the token is on its way to `i`
    rename_i ht
    obtain rfl := hown.eq_none ht
    have hidle := hown.idle rfl
    refine ⟨⟨some i, rfl, ?_, fun h => nomatch h⟩, ?_, hnodup, ?_⟩
    · grind [Function.update_apply, Holds]
    · grind [Function.update_apply]
    · grind
  · -- the owner stays, and `i` is the last in the queue
    rename_i ht
    have hsome : o ≠ none := by
      rintro rfl
      exact ht hown.token
    have hnot : i ∉ s.waiters ∧ s.handed ≠ some i := by grind
    refine ⟨⟨o, hown.token, ?_, fun h => absurd h hsome⟩, ?_, ?_, ?_⟩
    · grind [Function.update_apply, Holds]
    · grind [Function.update_apply]
    · grind
    · grind

theorem resumed (h : Valid s ph) (hs : s.resumed i = some s') :
    Valid s' (Function.update ph i .inside) := by
  obtain ⟨⟨o, hown⟩, hwait, hnodup, hhanded⟩ := h
  have hholds : ∀ j, ph j = .inside ∨ s.handed = some j ↔ o = some j := hown.holds_iff
  unfold Sem.resumed at hs
  split at hs
  · rename_i hi
    cases hs
    obtain rfl : o = some i := (hholds i).1 (.inr hi)
    refine ⟨⟨some i, hown.token, ?_, fun h => nomatch h⟩, ?_, hnodup, fun j hj => nomatch hj⟩
    · grind [Function.update_apply, Holds]
    · grind [Function.update_apply]
  · cases hs

theorem cancel (h : Valid s ph) (hs : s.cancel i = some s') :
    Valid s' (Function.update ph i .outside) := by
  obtain ⟨⟨o, hown⟩, hwait, hnodup, hhanded⟩ := h
  have hholds : ∀ j, ph j = .inside ∨ s.handed = some j ↔ o = some j := hown.holds_iff
  unfold Sem.cancel at hs
  split at hs
  · rename_i hi
    cases hs
    have hwaiting : ph i = .waiting := (hwait i).2 (.inl hi)
    have hnot : s.handed ≠ some i := fun h => hhanded i h hi
    refine ⟨⟨o, hown.token, ?_, ?_⟩, ?_, hnodup.erase i, ?_⟩
    · grind [Function.update_apply, Holds]
    · grind [hown.idle]
    · grind [Function.update_apply]
    · grind
  · cases hs

theorem trySend (h : Valid s ph) (hi : ph i = .inside) :
    Valid s.trySend (Function.update ph i .outside) := by
  obtain ⟨⟨o, hown⟩, hwait, hnodup, hhanded⟩ := h
  have hholds : ∀ j, ph j = .inside ∨ s.handed = some j ↔ o = some j := hown.holds_iff
  obtain rfl : o = some i := (hholds i).1 (.inl hi)
  -- `i` goes on with the token, so it is on its way to nobody
  have hnone : s.handed = none := by
    cases hh : s.handed with
    | none => rfl
    | some j =>
      cases (hholds j).1 (.inr hh)
      rw [(hwait i).2 (.inr hh)] at hi
      cases hi
  unfold Sem.trySend
  split
  · rename_i hw
    refine ⟨⟨none, rfl, ?_, fun _ => hw⟩, ?_, hnodup, hhanded⟩
    · grind [Function.update_apply, Holds]
    · grind [Function.update_apply]
  · rename_i j rest hw
    refine ⟨⟨some j, hown.token, ?_, fun h => nomatch h⟩, ?_, ?_, ?_⟩
    · grind [Function.update_apply, Holds]
    · grind [Function.update_apply]
    · grind
    · grind

end Valid

end Sem
