import Mathlib.Algebra.BigOperators.Group.Finset.Piecewise
import Mathlib.Algebra.Order.BigOperators.Group.Finset
import Mathlib.Data.Fintype.BigOperators
import Mathlib.Data.Int.Basic
import Cmlb.Lib.Interleave

/-!
# Worker pools joined by a timer

A parent coroutine spawns `n` workers and waits on a timer that never expires. Each worker runs the
same body over a shared state; its exit guard then takes one off the live count and, if the count was
one, cancels the timer. A cancel wakes the parent only if the parent is waiting already. `pool B n` is
every interleaving of the parent with its workers, for a body `B`.

The rules: the live count is the number of workers that have not passed their exit guard (`JoinInv`);
a pool loses its wake-up exactly when the last worker cancels the timer before the parent waits on it
(`keepsWakeup_iff`); a parent that is not cancelled leaves no worker behind (`joined_of_over`);
`rule` is for what a pool returns, and `progress` and `rank_lt` for that it returns.
-/

/-- What a worker does. `step` is one step of a running worker, with `none` where the body ends;
`verdict` is what the parent returns once it is awake. -/
structure WorkerBody (σ τ ε ρ : Type*) where
  init : τ
  step : σ → τ → ε → Option (σ × Option τ)
  verdict : σ → ρ

namespace WorkerPool

inductive Parent (ρ : Type*)
  | spawning (k : Nat)
  | waiting
  | woken
  | returned (r : ρ)
  -- cancelled before its wait could start
  | threw

structure Shared (σ ρ : Type*) where
  parent : Parent ρ
  live : Int
  body : σ

/-- `leaving`: the body has ended; `cancelling`: the live count is off, the cancel is to come. -/
inductive Worker (τ : Type*)
  | fresh
  | running (l : τ)
  | leaving
  | cancelling
  | gone

/-- `interrupt` is a cancellation of the parent: an outstanding wait ends, and a wait that is to start
throws instead. -/
inductive ParentEvent
  | spawn
  | startWait
  | interrupt
  | resume
deriving DecidableEq

inductive WorkerEvent (ε : Type*)
  | start
  | run (e : ε)
  | exit
  | cancel
deriving DecidableEq

variable {σ τ ε ρ : Type*} {n : Nat}

def Parent.spawned (n : Nat) : Parent ρ → Nat
  | .spawning k => k
  | _ => n

/-- `cancel()` on the timer: only an outstanding wait ends. -/
def Parent.cancelled : Parent ρ → Parent ρ
  | .waiting => .woken
  | p => p

def Worker.after : Option τ → Worker τ
  | some l => .running l
  | none => .leaving

def parentStep (B : WorkerBody σ τ ε ρ) (n : Nat) (sh : Shared σ ρ) (e : ParentEvent) :
    Option (Shared σ ρ) :=
  match sh.parent, e with
  | .spawning k, .spawn => if k < n then some { sh with parent := .spawning (k + 1) } else none
  | .spawning k, .startWait => if k = n then some { sh with parent := .waiting } else none
  | .spawning k, .interrupt => if k = n then some { sh with parent := .threw } else none
  | .waiting, .interrupt => some { sh with parent := .woken }
  | .woken, .resume => some { sh with parent := .returned (B.verdict sh.body) }
  | _, _ => none

def workerStep (B : WorkerBody σ τ ε ρ) (i : Fin n) (sh : Shared σ ρ) (w : Worker τ)
    (e : WorkerEvent ε) : Option (Shared σ ρ × Worker τ) :=
  match w, e with
  | .fresh, .start => if i < sh.parent.spawned n then some (sh, .running B.init) else none
  | .running l, .run e =>
    (B.step sh.body l e).map fun x => ({ sh with body := x.1 }, .after x.2)
  | .leaving, .exit =>
    some ({ sh with live := sh.live - 1 }, if sh.live = 1 then .cancelling else .gone)
  | .cancelling, .cancel => some ({ sh with parent := sh.parent.cancelled }, .gone)
  | _, _ => none

def pool (B : WorkerBody σ τ ε ρ) (n : Nat) :
    Interleaving (Fin n) (Shared σ ρ) (Worker τ) ParentEvent (WorkerEvent ε) where
  env := parentStep B n
  act := workerStep B

abbrev PoolState (n : Nat) (σ τ ρ : Type*) := Sys (Fin n) (Shared σ ρ) (Worker τ)

abbrev PoolEvent (n : Nat) (ε : Type*) := SysEvent (Fin n) ParentEvent (WorkerEvent ε)

/-- The live count is set before the first worker is spawned. -/
def start (n : Nat) (sh : σ) : PoolState n σ τ ρ where
  shared := ⟨.spawning 0, n, sh⟩
  locals _ := .fresh

variable {B : WorkerBody σ τ ε ρ} {s s' : PoolState n σ τ ρ} {e : PoolEvent n ε}
  {t : List (PoolEvent n ε)}

/-- What a step of the pool can do. -/
inductive PoolStep (B : WorkerBody σ τ ε ρ) (s : PoolState n σ τ ρ) :
    PoolEvent n ε → PoolState n σ τ ρ → Prop
  | spawn {k} (hp : s.shared.parent = .spawning k) (hk : k < n) :
      PoolStep B s (.env .spawn) ⟨{ s.shared with parent := .spawning (k + 1) }, s.locals⟩
  | startWait (hp : s.shared.parent = .spawning n) :
      PoolStep B s (.env .startWait) ⟨{ s.shared with parent := .waiting }, s.locals⟩
  | abandon (hp : s.shared.parent = .spawning n) :
      PoolStep B s (.env .interrupt) ⟨{ s.shared with parent := .threw }, s.locals⟩
  | interrupt (hp : s.shared.parent = .waiting) :
      PoolStep B s (.env .interrupt) ⟨{ s.shared with parent := .woken }, s.locals⟩
  | resume (hp : s.shared.parent = .woken) : PoolStep B s (.env .resume)
      ⟨{ s.shared with parent := .returned (B.verdict s.shared.body) }, s.locals⟩
  | start {i} (hw : s.locals i = .fresh) (hi : i < s.shared.parent.spawned n) :
      PoolStep B s (.act i .start) ⟨s.shared, Function.update s.locals i (.running B.init)⟩
  | run {i l e body o} (hw : s.locals i = .running l) (hs : B.step s.shared.body l e = some (body, o)) :
      PoolStep B s (.act i (.run e))
        ⟨{ s.shared with body := body }, Function.update s.locals i (.after o)⟩
  | exit {i} (hw : s.locals i = .leaving) : PoolStep B s (.act i .exit)
      ⟨{ s.shared with live := s.shared.live - 1 },
        Function.update s.locals i (if s.shared.live = 1 then .cancelling else .gone)⟩
  | cancel {i} (hw : s.locals i = .cancelling) : PoolStep B s (.act i .cancel)
      ⟨{ s.shared with parent := s.shared.parent.cancelled }, Function.update s.locals i .gone⟩

theorem parentStep_inv {sh sh' : Shared σ ρ} {w : Fin n → Worker τ} {x : ParentEvent}
    (h : parentStep B n sh x = some sh') : PoolStep B ⟨sh, w⟩ (.env x) ⟨sh', w⟩ := by
  unfold parentStep at h
  split at h
  · rename_i k hp
    split at h
    · cases h
      exact .spawn hp ‹_›
    · cases h
  · rename_i k hp
    split at h
    · cases h
      subst k
      exact .startWait hp
    · cases h
  · rename_i k hp
    split at h
    · cases h
      subst k
      exact .abandon hp
    · cases h
  · rename_i hp
    cases h
    exact .interrupt hp
  · rename_i hp
    cases h
    exact .resume hp
  · cases h

theorem workerStep_inv {sh sh' : Shared σ ρ} {w : Fin n → Worker τ} {v : Worker τ} {i : Fin n}
    {x : WorkerEvent ε} (h : workerStep B i sh (w i) x = some (sh', v)) :
    PoolStep B ⟨sh, w⟩ (.act i x) ⟨sh', Function.update w i v⟩ := by
  unfold workerStep at h
  split at h
  · rename_i hw
    split at h
    · cases h
      exact .start hw ‹_›
    · cases h
  · rename_i l e hw
    obtain ⟨⟨body, o⟩, hs, hx⟩ := Option.map_eq_some_iff.1 h
    cases hx
    exact .run hw hs
  · rename_i hw
    cases h
    exact .exit hw
  · rename_i hw
    cases h
    exact .cancel hw
  · cases h

theorem step_inv (h : (pool B n).machine.step s e = some s') : PoolStep B s e s' := by
  obtain ⟨sh, w⟩ := s
  obtain ⟨sh', w'⟩ := s'
  rcases Interleaving.step_inv h with ⟨x, rfl, hx, hw⟩ | ⟨i, x, v, rfl, hx, hw⟩
  · cases hw
    exact parentStep_inv hx
  · cases hw
    exact workerStep_inv hx

/-- A running worker stays where it is but for a step of its own body. -/
theorem PoolStep.running {i : Fin n} {l : τ} (hs : PoolStep B s e s') (hw : s.locals i = .running l) :
    s'.locals i = .running l ∨ ∃ x, e = .act i (.run x) := by
  have hother : ∀ {j v}, s.locals j ≠ .running l → Function.update s.locals j v i = .running l := by
    intro j v hj
    have hne : i ≠ j := fun h => hj (h ▸ hw)
    rw [Function.update_of_ne hne, hw]
  cases hs with
  | spawn | startWait | abandon | interrupt | resume => exact .inl hw
  | start hj | exit hj | cancel hj => exact .inl (hother (by rw [hj]; exact fun h => by cases h))
  | @run j l' x body o hj =>
    by_cases hne : i = j
    · exact .inr ⟨x, by rw [hne]⟩
    · exact .inl ((Function.update_of_ne hne _ _).trans hw)

theorem step_run {i : Fin n} {l : τ} {x : ε} {body : σ} {o : Option τ} (hw : s.locals i = .running l)
    (hs : B.step s.shared.body l x = some (body, o)) :
    (pool B n).machine.step s (.act i (.run x)) =
      some ⟨{ s.shared with body := body }, Function.update s.locals i (.after o)⟩ := by
  simp [Interleaving.machine, pool, workerStep, hw, hs]

/-! ### The live count -/

theorem sum_update {ι α M : Type*} [Fintype ι] [DecidableEq ι] [AddCommMonoid M] (g : α → M)
    (w : ι → α) (i : ι) (v : α) :
    ∑ j, g (Function.update w i v j) + g (w i) = ∑ j, g (w j) + g v := by
  have hcomp : (fun j => g (Function.update w i v j)) = Function.update (fun j => g (w j)) i (g v) := by
    funext j
    by_cases hj : j = i
    · subst hj
      simp
    · simp [hj]
  rw [hcomp, Finset.sum_update_of_mem (Finset.mem_univ i), Finset.sdiff_singleton_eq_erase,
    ← Finset.add_sum_erase _ (fun j => g (w j)) (Finset.mem_univ i)]
  ac_rfl

/-- One for a worker that has not passed its exit guard. -/
def Worker.count : Worker τ → Int
  | .fresh | .running _ | .leaving => 1
  | .cancelling | .gone => 0

theorem Worker.count_nonneg (w : Worker τ) : 0 ≤ w.count := by
  cases w <;> simp [count]

@[simp] theorem Worker.count_after (o : Option τ) : (Worker.after o).count = 1 := by
  cases o <;> rfl

structure JoinInv (s : PoolState n σ τ ρ) : Prop where
  live : s.shared.live = ∑ i, (s.locals i).count
  cancelling : ∀ i, s.locals i = .cancelling → s.shared.live = 0
  unique : ∀ i j, s.locals i = .cancelling → s.locals j = .cancelling → i = j
  spawned : s.shared.parent.spawned n ≤ n

namespace JoinInv

theorem start (sh : σ) : JoinInv (start n sh : PoolState n σ τ ρ) where
  live := by simp [WorkerPool.start, Worker.count]
  cancelling i h := by cases h
  unique i j h := by cases h
  spawned := Nat.zero_le n

/-- A worker whose place in the count does not change, next to its own step. -/
theorem of_update {sh : Shared σ ρ} {i : Fin n} {v : Worker τ} (h : JoinInv s)
    (hlive : sh.live = s.shared.live) (hsp : sh.parent.spawned n ≤ n)
    (hv : v.count = (s.locals i).count) (hc : v ≠ .cancelling) :
    JoinInv (⟨sh, Function.update s.locals i v⟩ : PoolState n σ τ ρ) where
  live := by
    have hsum := sum_update Worker.count s.locals i v
    have := h.live
    simp only
    omega
  cancelling j hj := by
    rcases eq_of_update_eq hj with ⟨-, hv⟩ | ⟨-, hj⟩
    · exact absurd hv hc
    · rw [hlive]
      exact h.cancelling j hj
  unique j k hj hk := by
    rcases eq_of_update_eq hj with ⟨-, hv⟩ | ⟨-, hj⟩
    · exact absurd hv hc
    · rcases eq_of_update_eq hk with ⟨-, hv⟩ | ⟨-, hk⟩
      · exact absurd hv hc
      · exact h.unique j k hj hk
  spawned := hsp

theorem live_pos {i : Fin n} (h : JoinInv s) (hw : s.locals i = .leaving) : 1 ≤ s.shared.live := by
  rw [h.live]
  have := Finset.single_le_sum (f := fun j => (s.locals j).count)
    (fun j _ => (s.locals j).count_nonneg) (Finset.mem_univ i)
  simpa [hw, Worker.count] using this

theorem exit {i : Fin n} (h : JoinInv s) (hw : s.locals i = .leaving) :
    JoinInv (⟨{ s.shared with live := s.shared.live - 1 },
      Function.update s.locals i (if s.shared.live = 1 then .cancelling else .gone)⟩ :
        PoolState n σ τ ρ) := by
  -- the leaving worker is counted, so no cancel is under way
  have hpos := h.live_pos hw
  have hnone : ∀ j, s.locals j ≠ .cancelling := fun j hj => by
    have := h.cancelling j hj
    omega
  have hcount : (if s.shared.live = 1 then Worker.cancelling else .gone : Worker τ).count = 0 := by
    split <;> rfl
  have hself : ∀ j, Function.update s.locals i (if s.shared.live = 1 then .cancelling else .gone) j
      = .cancelling → j = i ∧ s.shared.live = 1 := by
    intro j hj
    rcases eq_of_update_eq hj with ⟨rfl, hv⟩ | ⟨-, hj⟩
    · refine ⟨rfl, ?_⟩
      by_contra hne
      simp [hne] at hv
    · exact absurd hj (hnone j)
  refine ⟨?_, ?_, ?_, h.spawned⟩
  · have hsum := sum_update Worker.count s.locals i (if s.shared.live = 1 then .cancelling else .gone)
    rw [hcount, hw, ← h.live] at hsum
    simp only [Worker.count] at hsum ⊢
    omega
  · intro j hj
    have := (hself j hj).2
    simp only
    omega
  · intro j k hj hk
    rw [(hself j hj).1, (hself k hk).1]

theorem cancelled_spawned {p : Parent ρ} (h : p.spawned n ≤ n) : p.cancelled.spawned n ≤ n := by
  cases p with
  | waiting => exact Nat.le_refl n
  | _ => exact h

theorem step (h : JoinInv s) (hs : PoolStep B s e s') : JoinInv s' := by
  cases hs with
  | spawn hp hk => exact ⟨h.live, h.cancelling, h.unique, hk⟩
  | startWait | abandon | interrupt | resume =>
    exact ⟨h.live, h.cancelling, h.unique, Nat.le_refl n⟩
  | start hw hi => exact h.of_update rfl h.spawned (by rw [hw]; rfl) (fun h => by cases h)
  | @run i l e body o hw hs =>
    refine h.of_update rfl h.spawned (by rw [hw, Worker.count_after]; rfl) ?_
    cases o <;> exact fun h => by cases h
  | exit hw => exact h.exit hw
  | cancel hw =>
    exact h.of_update rfl (cancelled_spawned h.spawned) (by rw [hw]; rfl) (fun h => by cases h)

theorem steps {P : PoolState n σ τ ρ → PoolEvent n ε → Prop} (h0 : JoinInv s)
    (h : (pool B n).machine.Steps P s t s') : JoinInv s' :=
  h.invariant h0 fun _ _ _ _ hi hs => hi.step (step_inv hs)

/-- When the count is zero every worker has passed its exit guard. -/
theorem count_eq_zero (h : JoinInv s) (hl : s.shared.live = 0) (i : Fin n) :
    (s.locals i).count = 0 := by
  rw [h.live, Finset.sum_eq_zero_iff_of_nonneg fun j _ => (s.locals j).count_nonneg] at hl
  exact hl i (Finset.mem_univ i)

end JoinInv

/-! ### Lost wake-ups -/

/-- The parent waits on the timer or is still about to. -/
def Parent.joining : Parent ρ → Bool
  | .spawning _ | .waiting => true
  | .woken | .returned _ | .threw => false

structure LostWakeup (s : PoolState n σ τ ρ) : Prop where
  live : s.shared.live = 0
  joining : s.shared.parent.joining = true
  noCancel : ∀ i, s.locals i ≠ .cancelling

instance (w : Worker τ) : Decidable (w = .cancelling) :=
  match w with
  | .cancelling => isTrue rfl
  | .fresh | .running _ | .leaving | .gone => isFalse fun h => by cases h

instance (s : PoolState n σ τ ρ) : Decidable (LostWakeup s) :=
  decidable_of_iff (s.shared.live = 0 ∧ s.shared.parent.joining = true ∧ ∀ i, s.locals i ≠ .cancelling)
    ⟨fun h => ⟨h.1, h.2.1, h.2.2⟩, fun h => ⟨h.live, h.joining, h.noCancel⟩⟩

/-- The timer is cancelled only once the parent has started its wait. -/
def CancelsWait (s : PoolState n σ τ ρ) : PoolEvent n ε → Prop
  | .act _ .cancel => ∀ k, s.shared.parent ≠ .spawning k
  | _ => True

/-- With no live worker left, the cancel that will wake a joining parent is still to come. -/
def WakePending (s : PoolState n σ τ ρ) : Prop :=
  s.shared.live = 0 → s.shared.parent.joining = true → ∃ i, s.locals i = .cancelling

theorem WakePending.of_update {i : Fin n} {v : Worker τ} {body : σ} (h : WakePending s)
    (hw : s.locals i ≠ .cancelling) :
    WakePending (⟨{ s.shared with body := body }, Function.update s.locals i v⟩ : PoolState n σ τ ρ) := by
  intro hl hj
  obtain ⟨j, hc⟩ := h hl hj
  have hne : j ≠ i := fun hji => hw (hji ▸ hc)
  exact ⟨j, by simpa [hne] using hc⟩

theorem WakePending.step (h : WakePending s) (hp : CancelsWait s e) (hs : PoolStep B s e s') :
    WakePending s' := by
  cases hs with
  | spawn hq | startWait hq => exact fun hl _ => h hl (by rw [hq]; rfl)
  | abandon | interrupt | resume => exact fun _ hj => by cases hj
  | start hw => exact h.of_update (by rw [hw]; exact fun h => by cases h)
  | run hw => exact h.of_update (by rw [hw]; exact fun h => by cases h)
  | @exit i hw =>
    intro hl _
    have hone : s.shared.live = 1 := by simpa [sub_eq_zero] using hl
    exact ⟨i, by simp [hone]⟩
  | cancel hw =>
    -- the parent is not spawning, so if it was waiting it is awake now
    intro _ hj
    exfalso
    cases hq : s.shared.parent with
    | spawning k => exact hp k hq
    | waiting | woken | returned | threw => simp [hq, Parent.cancelled, Parent.joining] at hj

theorem wakePending_steps {sh : σ} (hn : 0 < n)
    (h : (pool B n).machine.Steps CancelsWait (start n sh) t s) : WakePending s := by
  refine h.invariant ?_ fun _ _ _ hp hi hs => hi.step hp (step_inv hs)
  intro hl
  have : (n : Int) = 0 := hl
  omega

theorem not_lost {sh : σ} (hn : 0 < n) (h : (pool B n).machine.Steps CancelsWait (start n sh) t s) :
    ¬ LostWakeup s := by
  intro hlost
  obtain ⟨i, hi⟩ := wakePending_steps hn h hlost.live hlost.joining
  exact hlost.noCancel i hi

/-- The last worker cancels a timer that nobody waits on yet. -/
theorem lost_of_early_cancel (hj : JoinInv s) (hp : ¬ CancelsWait s e) (hs : PoolStep B s e s') :
    LostWakeup s' := by
  cases hs with
  | @cancel i hw =>
    obtain ⟨k, hk⟩ : ∃ k, s.shared.parent = .spawning k := by
      simpa [CancelsWait] using hp
    refine ⟨hj.cancelling i hw, by simp [hk, Parent.cancelled, Parent.joining], ?_⟩
    intro j hc
    rcases eq_of_update_eq hc with ⟨-, hv⟩ | ⟨hji, hc⟩
    · cases hv
    · exact hji (hj.unique j i hc hw)
  | _ => exact absurd trivial hp

/-- No state on the way of the run `t` has lost the wake-up. -/
def KeepsWakeup (M : Machine (PoolState n σ τ ρ) (PoolEvent n ε)) (s : PoolState n σ τ ρ)
    (t : List (PoolEvent n ε)) : Prop :=
  ∀ t₁ s₁, t₁ <+: t → M.Runs s t₁ s₁ → ¬ LostWakeup s₁

/-- A run has no lost wake-up on its way exactly if every cancel came after the wait had started. -/
theorem keepsWakeup_iff {sh : σ} (hn : 0 < n) (h : (pool B n).machine.Runs (start n sh) t s) :
    KeepsWakeup (pool B n).machine (start n sh) t ↔
      (pool B n).machine.Steps CancelsWait (start n sh) t s := by
  constructor
  · intro hno
    rcases h.guarded_or_break CancelsWait with hP | ⟨t₁, e, t₂, s₁, s₂, rfl, h1, hbad, hs, -⟩
    · exact hP
    · have hlost := lost_of_early_cancel (JoinInv.steps (.start sh) h1) hbad (step_inv hs)
      exact absurd hlost (hno (t₁ ++ [e]) s₂ ⟨t₂, by simp⟩ (.snoc h1.runs trivial hs))
  · rintro hP t₁ s₁ ⟨t₂, rfl⟩ h1
    -- the states of a run are fixed by its events, so the prefix of a guarded run is guarded
    exact not_lost hn (hP.of_append h1)

/-- A pool without workers is never woken. -/
theorem not_keepsWakeup_empty {sh : σ} (hn : n = 0) :
    ¬ KeepsWakeup (pool B n).machine (start n sh) t := by
  intro h
  refine h [] _ (List.nil_prefix) (.nil _) ⟨?_, rfl, fun i hi => by cases hi⟩
  show (n : Int) = 0
  omega

theorem returned_steps {r : ρ} {P : PoolState n σ τ ρ → PoolEvent n ε → Prop}
    (h0 : s.shared.parent = .returned r) (h : (pool B n).machine.Steps P s t s') :
    s'.shared.parent = .returned r := by
  refine h.invariant (I := fun s => s.shared.parent = .returned r) h0 ?_
  intro s e s' _ hr hs
  cases step_inv hs with
  | spawn hp | startWait hp | abandon hp | interrupt hp | resume hp => cases hr.symm.trans hp
  | start | run | exit => exact hr
  | cancel => simp [hr, Parent.cancelled]

/-- A parent that has returned waits for nothing. -/
theorem keepsWakeup_iff_of_returned {r : ρ} (h0 : s.shared.parent = .returned r)
    (h : (pool B n).machine.Runs s t s') :
    KeepsWakeup (pool B n).machine s t ↔ (pool B n).machine.Steps CancelsWait s t s' := by
  constructor
  · intro _
    rcases h.guarded_or_break CancelsWait with hP | ⟨t₁, e, t₂, s₁, s₂, rfl, h1, hbad, hs, -⟩
    · exact hP
    · have hr := returned_steps h0 h1
      cases step_inv hs with
      | cancel => exact absurd (fun k hk => by cases hr.symm.trans hk) hbad
      | _ => exact absurd trivial hbad
  · intro _ t₁ s₁ _ h1 hlost
    have := hlost.joining
    simp [returned_steps h0 h1, Parent.joining] at this

/-! ### Workers that outlive the call -/

/-- The call is over: the parent has returned or thrown. -/
def Parent.over : Parent ρ → Bool
  | .returned _ | .threw => true
  | .spawning _ | .waiting | .woken => false

theorem Parent.joining_of_over {p : Parent ρ} (h : p.over = true) : p.joining = false := by
  cases p <;> simp [Parent.over, joining] at h ⊢

/-- The parent is cancelled only when no worker is live. -/
def CancelledIdle (s : PoolState n σ τ ρ) : PoolEvent n ε → Prop
  | .env .interrupt => s.shared.live = 0
  | _ => True

/-- The parent has the join behind it only when no worker is live. -/
def JoinsAll (s : PoolState n σ τ ρ) : Prop := s.shared.parent.joining = false → s.shared.live = 0

theorem JoinsAll.step (hj : JoinInv s) (h : JoinsAll s) (hp : CancelledIdle s e)
    (hs : PoolStep B s e s') : JoinsAll s' := by
  cases hs with
  | spawn | startWait => exact fun h => by cases h
  | abandon | interrupt => exact fun _ => hp
  | resume hq => exact fun _ => h (by rw [hq]; rfl)
  | start | run => exact h
  | exit hw =>
    -- a worker that is leaving is live, so the parent is still joining
    intro hq
    have hpos := hj.live_pos hw
    have hzero := h hq
    omega
  | @cancel i hw => exact fun _ => hj.cancelling i hw

/-- In a run that cancels the parent only when no worker is live, the call is over only when every
worker has passed its exit guard. -/
theorem joined_of_over (hj : JoinInv s) (h0 : JoinsAll s)
    (h : (pool B n).machine.Steps CancelledIdle s t s') (ho : s'.shared.parent.over = true) :
    s'.shared.live = 0 ∧ ∀ i, (s'.locals i).count = 0 := by
  have hinv : JoinInv s' ∧ JoinsAll s' := by
    refine h.invariant (I := fun s => JoinInv s ∧ JoinsAll s) ⟨hj, h0⟩ ?_
    rintro s e s' hp ⟨hj, hi⟩ hs
    exact ⟨hj.step (step_inv hs), hi.step hj hp (step_inv hs)⟩
  have hl := hinv.2 (Parent.joining_of_over ho)
  exact ⟨hl, hinv.1.count_eq_zero hl⟩

theorem joinsAll_start (sh : σ) : JoinsAll (start n sh : PoolState n σ τ ρ) := fun h => by cases h

/-! ### The first failure of a worker -/

section Failures

variable {δ : Type*} {err : σ → Option δ} {failure : τ → ε → Option δ} {d : δ}

/-- The body keeps in `err` the first failure of its workers. -/
def KeepsFirst (B : WorkerBody σ τ ε ρ) (err : σ → Option δ) (failure : τ → ε → Option δ) : Prop :=
  ∀ sh l e sh' o, B.step sh l e = some (sh', o) → err sh' = (err sh).or (failure l e)

/-- The failure that the worker of the event makes by it. -/
def failureAt (failure : τ → ε → Option δ) (s : PoolState n σ τ ρ) : PoolEvent n ε → Option δ
  | .act i (.run e) =>
    match s.locals i with
    | .running l => failure l e
    | _ => none
  | _ => none

/-- `d` is the first failure of a worker in the events `t`. -/
def FailsFirst (B : WorkerBody σ τ ε ρ) (failure : τ → ε → Option δ) (s : PoolState n σ τ ρ)
    (t : List (PoolEvent n ε)) (d : δ) : Prop :=
  ∃ t₁ e t₂ s₁, t = t₁ ++ e :: t₂ ∧
    (pool B n).machine.Steps (fun s e => failureAt failure s e = none) s t₁ s₁ ∧
    failureAt failure s₁ e = some d

namespace KeepsFirst

theorem step (hB : KeepsFirst B err failure) (hs : PoolStep B s e s') :
    err s'.shared.body = (err s.shared.body).or (failureAt failure s e) := by
  cases hs with
  | run hw hs =>
    simp only [failureAt, hw]
    exact hB _ _ _ _ _ hs
  | spawn | startWait | abandon | interrupt | resume | start | exit | cancel => simp [failureAt]

theorem none_of_steps (hB : KeepsFirst B err failure) (h0 : err s.shared.body = none)
    (h : (pool B n).machine.Steps (fun s e => failureAt failure s e = none) s t s') :
    err s'.shared.body = none := by
  refine h.invariant (I := fun s => err s.shared.body = none) h0 ?_
  intro s e s' hp hi hs
  rw [hB.step (step_inv hs), hi, hp]
  rfl

theorem some_of_runs (hB : KeepsFirst B err failure) (h0 : err s.shared.body = some d)
    (h : (pool B n).machine.Runs s t s') : err s'.shared.body = some d := by
  refine h.invariant (I := fun s => err s.shared.body = some d) h0 ?_
  intro s e s' _ hi hs
  rw [hB.step (step_inv hs), hi]
  rfl

/-- What the body has kept is the first failure of a worker. -/
theorem iff (hB : KeepsFirst B err failure) (h0 : err s.shared.body = none)
    (h : (pool B n).machine.Runs s t s') : err s'.shared.body = some d ↔ FailsFirst B failure s t d := by
  constructor
  · intro hd
    rcases h.guarded_or_break (fun s e => failureAt failure s e = none) with
      hP | ⟨t₁, e, t₂, s₁, s₂, rfl, h₁, hfails, hs, h₂⟩
    · rw [hB.none_of_steps h0 hP] at hd
      cases hd
    · obtain ⟨d', hd'⟩ := Option.ne_none_iff_exists'.1 hfails
      have hkept : err s₂.shared.body = some d' := by
        rw [hB.step (step_inv hs), hB.none_of_steps h0 h₁, hd']
        rfl
      rw [hB.some_of_runs hkept h₂] at hd
      cases hd
      exact ⟨t₁, e, t₂, s₁, rfl, h₁, hd'⟩
  · rintro ⟨t₁, e, t₂, s₁, rfl, h₁, hfails⟩
    obtain ⟨s₁', h₁', h₂⟩ := h.append_inv
    cases h₁'.det h₁
    obtain ⟨s₂, -, hs, h₃⟩ := h₂.cons_inv
    refine hB.some_of_runs ?_ h₃
    rw [hB.step (step_inv hs), hB.none_of_steps h0 h₁, hfails]
    rfl

end KeepsFirst

end Failures

/-! ### The end of the wait -/

/-- A run of a pool up to where its parent is awake. -/
structure Join (B : WorkerBody σ τ ε ρ) (n : Nat) (sh : σ) where
  events : List (PoolEvent n ε)
  state : PoolState n σ τ ρ
  run : (pool B n).machine.Runs (start n sh) events state
  woken : state.shared.parent = .woken

/-- What the parent goes on to return. -/
def Join.result {sh : σ} (j : Join B n sh) : ρ := B.verdict j.state.shared.body

/-! ### What a pool returns -/

/-- A worker as its body sees it. -/
inductive WorkerStage (τ : Type*)
  | fresh
  | running (l : τ)
  | left

def WorkerStage.after : Option τ → WorkerStage τ
  | some l => .running l
  | none => .left

@[simp] theorem WorkerStage.after_none : WorkerStage.after (none : Option τ) = .left := rfl
@[simp] theorem WorkerStage.after_some (l : τ) : WorkerStage.after (some l) = .running l := rfl

def Worker.stage : Worker τ → WorkerStage τ
  | .fresh => .fresh
  | .running l => .running l
  | .leaving | .cancelling | .gone => .left

@[simp] theorem Worker.stage_after (o : Option τ) : (Worker.after o).stage = .after o := by
  cases o <;> rfl

theorem Worker.stage_eq_running {w : Worker τ} {l : τ} : w.stage = .running l ↔ w = .running l := by
  cases w <;> simp [stage]

theorem Worker.stage_of_count {w : Worker τ} (h : w.count = 0) : w.stage = .left := by
  cases w <;> simp [count, stage] at h ⊢

def stages (s : PoolState n σ τ ρ) : Fin n → WorkerStage τ := fun i => (s.locals i).stage

theorem stages_update (sh : Shared σ ρ) (i : Fin n) (v : Worker τ) :
    stages (⟨sh, Function.update s.locals i v⟩ : PoolState n σ τ ρ) =
      Function.update (stages s) i v.stage := by
  funext j
  by_cases hj : j = i
  · subst hj
    simp [stages]
  · simp [stages, hj]

/-- The exit guard's steps change no worker's stage. -/
theorem stages_update_left (sh : Shared σ ρ) {i : Fin n} {v : Worker τ}
    (hw : (s.locals i).stage = .left) (hv : v.stage = .left) :
    stages (⟨sh, Function.update s.locals i v⟩ : PoolState n σ τ ρ) = stages s := by
  rw [stages_update, hv, ← hw]
  exact Function.update_eq_self i (stages s)

/-- `woken`: the join is behind the parent, which may have thrown. -/
inductive Phase (ρ : Type*)
  | joining
  | woken
  | returned (r : ρ)

def Parent.phase : Parent ρ → Phase ρ
  | .spawning _ | .waiting => .joining
  | .woken | .threw => .woken
  | .returned r => .returned r

/-- An assertion about the phase of the parent, the body's state and the stages of the workers. It is
kept by the steps of the body, and it is handed on where the parent wakes, whether by the last
worker's cancel (then all workers have left) or by a cancellation of its own, and where it returns. -/
theorem rule {A : Phase ρ → σ → (Fin n → WorkerStage τ) → Prop}
    {P : PoolState n σ τ ρ → PoolEvent n ε → Prop}
    (hstart : ∀ p sh v i, A p sh v → v i = .fresh → A p sh (Function.update v i (.running B.init)))
    (hrun : ∀ (s : PoolState n σ τ ρ) i l e body o, P s (.act i (.run e)) →
      A s.shared.parent.phase s.shared.body (stages s) → s.locals i = .running l →
      B.step s.shared.body l e = some (body, o) →
      A s.shared.parent.phase body (Function.update (stages s) i (.after o)))
    (hjoin : ∀ sh v, A .joining sh v → (∀ i, v i = .left) → A .woken sh v)
    (hinterrupt : ∀ s, P s (.env .interrupt) → A .joining s.shared.body (stages s) →
      A .woken s.shared.body (stages s))
    (hresume : ∀ sh v, A .woken sh v → A (.returned (B.verdict sh)) sh v)
    (hj : JoinInv s) (h0 : A s.shared.parent.phase s.shared.body (stages s))
    (h : (pool B n).machine.Steps P s t s') :
    A s'.shared.parent.phase s'.shared.body (stages s') := by
  refine (h.invariant (I := fun s => JoinInv s ∧ A s.shared.parent.phase s.shared.body (stages s))
    ⟨hj, h0⟩ ?_).2
  rintro s e s' hp ⟨hj, hA⟩ hs
  have hs := step_inv hs
  refine ⟨hj.step hs, ?_⟩
  cases hs with
  | spawn hq | startWait hq => rwa [hq] at hA
  | abandon hq | interrupt hq =>
    rw [hq] at hA
    exact hinterrupt s hp hA
  | resume hq =>
    rw [hq] at hA
    exact hresume _ _ hA
  | start hw =>
    rw [stages_update]
    exact hstart _ _ _ _ hA (by simp [stages, hw, Worker.stage])
  | run hw hb =>
    rw [stages_update, Worker.stage_after]
    exact hrun s _ _ _ _ _ hp hA hw hb
  | exit hw =>
    rw [stages_update_left _ (by rw [hw]; rfl) (by split <;> rfl)]
    exact hA
  | @cancel i hw =>
    rw [stages_update_left _ (by rw [hw]; rfl) (by rfl)]
    cases hq : s.shared.parent with
    | waiting =>
      rw [hq] at hA
      refine hjoin _ _ hA fun j => ?_
      exact Worker.stage_of_count (hj.count_eq_zero (hj.cancelling i hw) j)
    | _ => rwa [hq] at hA

/-- What is noted at the steps of the bodies. -/
def bodyNotes {ω : Type*} (note : σ → τ → ε → List ω) (s : PoolState n σ τ ρ) : PoolEvent n ε → List ω
  | .act i (.run e) =>
    match s.locals i with
    | .running l => note s.shared.body l e
    | _ => []
  | _ => []

/-- An assertion about what was noted, the body's state and the stages of the workers. -/
theorem notes_rule {ω : Type*} (note : σ → τ → ε → List ω)
    {A : List ω → σ → (Fin n → WorkerStage τ) → Prop} {P : PoolState n σ τ ρ → PoolEvent n ε → Prop}
    (hstart : ∀ l sh v i, A l sh v → v i = .fresh → A l sh (Function.update v i (.running B.init)))
    (hrun : ∀ (s : PoolState n σ τ ρ) l i pc e body o, P s (.act i (.run e)) →
      A l s.shared.body (stages s) → s.locals i = .running pc →
      B.step s.shared.body pc e = some (body, o) →
      A (l ++ note s.shared.body pc e) body (Function.update (stages s) i (.after o)))
    (h0 : A [] s.shared.body (stages s)) (h : (pool B n).machine.Steps P s t s') :
    A ((pool B n).machine.trail (bodyNotes note) s t) s'.shared.body (stages s') := by
  refine h.trail_invariant (I := fun l s => A l s.shared.body (stages s)) h0 ?_
  intro l s e s' hp hA hs
  have hidle : ∀ {x}, e = x → bodyNotes note s x = [] → A (l ++ bodyNotes note s e) s.shared.body (stages s) := by
    rintro x rfl hx
    rwa [hx, List.append_nil]
  cases step_inv hs with
  | spawn | startWait | abandon | interrupt | resume => exact hidle rfl rfl
  | start hw =>
    rw [stages_update]
    exact hstart _ _ _ _ (hidle rfl rfl) (by simp [stages, hw, Worker.stage])
  | run hw hb =>
    rw [stages_update, Worker.stage_after]
    have hrun := hrun s l _ _ _ _ _ hp hA hw hb
    simpa only [bodyNotes, hw] using hrun
  | exit hw =>
    rw [stages_update_left _ (by rw [hw]; rfl) (by split <;> rfl)]
    exact hidle rfl rfl
  | cancel hw =>
    rw [stages_update_left _ (by rw [hw]; rfl) (by rfl)]
    exact hidle rfl rfl

/-! ### That a pool returns -/

/-- The parent's wait is not interrupted, and the steps of the bodies pass `Q`. -/
def Undisturbed (Q : σ → τ → ε → Prop) (s : PoolState n σ τ ρ) : PoolEvent n ε → Prop
  | .env .interrupt => False
  | .act i (.run e) =>
    match s.locals i with
    | .running l => Q s.shared.body l e
    | _ => True
  | _ => True

/-- Undisturbed, and the timer is cancelled only once the parent waits. -/
def Orderly (Q : σ → τ → ε → Prop) (s : PoolState n σ τ ρ) (e : PoolEvent n ε) : Prop :=
  Undisturbed Q s e ∧ CancelsWait s e

theorem undisturbed_run {Q : σ → τ → ε → Prop} {i : Fin n} {x : ε} {l : τ}
    (hw : s.locals i = .running l) : Undisturbed Q s (.act i (.run x)) ↔ Q s.shared.body l x := by
  simp only [Undisturbed, hw]

variable {Q Q' : σ → τ → ε → Prop}

/-- Two guards on the bodies differ only at a step of a body. -/
theorem Undisturbed.exists_of_not (h : Undisturbed Q s e) (h' : ¬ Undisturbed Q' s e) :
    ∃ i x l, e = .act i (.run x) ∧ s.locals i = .running l ∧ Q s.shared.body l x ∧
      ¬ Q' s.shared.body l x := by
  cases e with
  | env x =>
    cases x with
    | interrupt => exact h.elim
    | _ => exact absurd trivial h'
  | act i x =>
    cases x with
    | run x =>
      cases hw : s.locals i with
      | running l =>
        rw [undisturbed_run hw] at h h'
        exact ⟨i, x, l, rfl, hw, h, h'⟩
      | _ => exact absurd (by simp [Undisturbed, hw]) h'
    | _ => exact absurd trivial h'

theorem Undisturbed.and (h : Undisturbed Q s e) (h' : Undisturbed Q' s e) :
    Undisturbed (fun sh l x => Q sh l x ∧ Q' sh l x) s e := by
  by_contra hn
  obtain ⟨i, x, l, rfl, hw, hq, hno⟩ := h.exists_of_not hn
  exact hno ⟨hq, (undisturbed_run hw).1 h'⟩

theorem act_enabled (i : Fin n) (x : WorkerEvent ε) (hq : Orderly Q s (.act i x))
    (h : (workerStep B i s.shared (s.locals i) x).isSome = true) :
    ∃ e s', Orderly Q s e ∧ (pool B n).machine.step s e = some s' := by
  obtain ⟨y, hy⟩ := Option.isSome_iff_exists.1 h
  exact ⟨.act i x, _, hq, Option.map_eq_some_iff.2 ⟨y, hy, rfl⟩⟩

theorem env_enabled (x : ParentEvent) (hq : Orderly Q s (.env x))
    (h : (parentStep B n s.shared x).isSome = true) :
    ∃ e s', Orderly Q s e ∧ (pool B n).machine.step s e = some s' := by
  obtain ⟨y, hy⟩ := Option.isSome_iff_exists.1 h
  exact ⟨.env x, _, hq, Option.map_eq_some_iff.2 ⟨y, hy, rfl⟩⟩

/-- A pool whose parent waits can go on as long as some running worker can. -/
theorem progress_waiting (hj : JoinInv s) (hw : WakePending s) (hp : s.shared.parent = .waiting)
    (hrun : (∃ i l, s.locals i = .running l) → ∃ i l e x, s.locals i = .running l ∧
      Q s.shared.body l e ∧ B.step s.shared.body l e = some x) :
    ∃ e s', Orderly Q s e ∧ (pool B n).machine.step s e = some s' := by
  by_cases hr : ∃ i l, s.locals i = .running l
  · obtain ⟨i, l, e, x, hi, hq, hx⟩ := hrun hr
    exact act_enabled i (.run e) ⟨(undisturbed_run hi).2 hq, trivial⟩ (by simp [workerStep, hi, hx])
  by_cases hl : s.shared.live = 0
  · obtain ⟨i, hi⟩ := hw hl (by rw [hp]; rfl)
    refine act_enabled i .cancel ⟨trivial, fun k hk => ?_⟩ (by simp [workerStep, hi])
    cases hp.symm.trans hk
  · -- a live worker that is not running has yet to start or has yet to pass its exit guard
    obtain ⟨i, -, hi⟩ := Finset.exists_ne_zero_of_sum_ne_zero (hj.live ▸ hl)
    cases hwi : s.locals i with
    | running l => exact absurd ⟨i, l, hwi⟩ hr
    | cancelling | gone => simp [hwi, Worker.count] at hi
    | fresh => exact act_enabled i .start ⟨trivial, trivial⟩ (by simp [workerStep, hwi, hp, Parent.spawned])
    | leaving => exact act_enabled i .exit ⟨trivial, trivial⟩ (by simp [workerStep, hwi])

theorem progress (hj : JoinInv s) (hw : WakePending s) (hnt : s.shared.parent ≠ .threw)
    (hrun : (∃ i l, s.locals i = .running l) → ∃ i l e x, s.locals i = .running l ∧
      Q s.shared.body l e ∧ B.step s.shared.body l e = some x) :
    (∃ e s', Orderly Q s e ∧ (pool B n).machine.step s e = some s') ∨
      ∃ r, s.shared.parent = .returned r := by
  cases hp : s.shared.parent with
  | spawning k =>
    have hk : k ≤ n := by simpa [hp, Parent.spawned] using hj.spawned
    rcases Nat.lt_or_eq_of_le hk with hk | rfl
    · exact .inl (env_enabled .spawn ⟨trivial, trivial⟩ (by simp [parentStep, hp, hk]))
    · exact .inl (env_enabled .startWait ⟨trivial, trivial⟩ (by simp [parentStep, hp]))
  | waiting => exact .inl (progress_waiting hj hw hp hrun)
  | woken => exact .inl (env_enabled .resume ⟨trivial, trivial⟩ (by simp [parentStep, hp]))
  | returned r => exact .inr ⟨r, rfl⟩
  | threw => exact absurd hp hnt

end WorkerPool
