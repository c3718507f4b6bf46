import Cmlb.Lib.Interleave

/-!
# Signals to a child (`CancelHandle`)

The POSIX `spawn_sync` on its worker thread, from the `fork` on, and any number of `kill_now` calls on
other threads. Atomic operations are steps of their own and sequentially consistent; a round of a loop
that changes nothing is left out. `waitpid` has the outcomes that the code distinguishes.

`kill_now` signals the pid it has loaded, and by then the worker may have reaped the child. A run sends
no such signal, and comes to no state where one is bound to follow, exactly if it is `Timely`
(`timely_iff`).
-/

namespace Cmlb.System

/-- What `fork` returns in the parent. -/
structure Child where
  pid : Int
  positive : 0 < pid

namespace CancelHandle

inductive WorkerPc
  | forked
  | published
  -- cancelled before the worker observed it: SIGTERM is next
  | lateCancel
  | draining
  | timedOut
  | waiting
  -- the five seconds of grace
  | escalating
  | killing
  | lastWait
  | clearing
  | returned
  | threw
deriving DecidableEq

/-- `other`: an error other than `EINTR`. -/
inductive Waitpid
  | reaped
  | other
deriving DecidableEq

inductive WorkerEvent
  | publish
  | check
  | signal
  | deadline
  | observe
  -- both pipes are at their end, or `poll` fails
  | drained
  -- a line callback or an allocation throws
  | throw
  | waitpid (r : Waitpid)
  | graceOver
  | clear
deriving DecidableEq

/-- The members `pid` and `cancelled`, the worker, and what has become of the child. -/
structure State where
  worker : WorkerPc := .forked
  pid : Int := 0
  cancelled : Bool := false
  reaped : Bool := false
  -- `kill` was called for the pid of the child after `waitpid` had reaped it
  lateKill : Bool := false
deriving DecidableEq

variable (c : Child)

/-- `::kill(p, _)` -/
def State.kill (s : State) (p : Int) : State :=
  { s with lateKill := s.lateKill || (s.reaped && p == c.pid) }

/-- A step of `spawn_sync`. -/
def spawnSync (s : State) (e : WorkerEvent) : Option State :=
  match s.worker, e with
  | .forked, .publish => some { s with worker := .published, pid := c.pid }
  | .published, .check => some { s with worker := if s.cancelled then .lateCancel else .draining }
  | .lateCancel, .signal => some { s.kill c c.pid with worker := .draining }
  | .draining, .deadline => some { s with worker := .timedOut }
  | .draining, .observe => if s.cancelled then some { s with worker := .escalating } else none
  | .draining, .drained => some { s with worker := .waiting }
  | .draining, .throw => some { s with worker := .threw }
  | .timedOut, .signal => some { s.kill c c.pid with worker := .escalating }
  | .waiting, .waitpid .reaped => some { s with worker := .clearing, reaped := true }
  | .waiting, .waitpid .other => some { s with worker := .clearing }
  | .waiting, .deadline => some { s with worker := .timedOut }
  | .waiting, .observe => if s.cancelled then some { s with worker := .escalating } else none
  | .escalating, .waitpid .reaped => some { s with worker := .clearing, reaped := true }
  | .escalating, .waitpid .other => some { s with worker := .killing }
  | .escalating, .graceOver => some { s with worker := .killing }
  | .killing, .signal => some { s.kill c c.pid with worker := .lastWait }
  | .lastWait, .waitpid .reaped => some { s with worker := .clearing, reaped := true }
  | .lastWait, .waitpid .other => some { s with worker := .clearing }
  | .clearing, .clear => some { s with worker := .returned, pid := 0 }
  | _, _ => none

inductive KillPc
  | called
  | stored
  | loaded (p : Int)
  | returned
deriving DecidableEq

inductive KillEvent
  | store
  | load
  | signal
deriving DecidableEq

/-- A step of a `kill_now` call. -/
def killNow (s : State) (pc : KillPc) (e : KillEvent) : Option (State × KillPc) :=
  match pc, e with
  | .called, .store => some ({ s with cancelled := true }, .stored)
  | .stored, .load => some (s, .loaded s.pid)
  | .loaded p, .signal => some (if 0 < p then s.kill c p else s, .returned)
  | _, _ => none

abbrev Threads := Sys Nat State KillPc

abbrev Event := SysEvent Nat WorkerEvent KillEvent

def threads : Interleaving Nat State KillPc WorkerEvent KillEvent where
  env := spawnSync c
  act _ := killNow c

def start : Threads := ⟨{}, fun _ => .called⟩

/-- The child is not reaped while a call holds its pid, and its pid is not loaded between the reap and
the `store` that clears it. -/
def Timely (s : Threads) : Event → Prop
  | .env (.waitpid .reaped) => ∀ i, s.locals i ≠ .loaded c.pid
  | .act _ .load => s.shared.reaped = true → s.shared.pid ≠ c.pid
  | _ => True

/-- A signal was sent to the pid of the reaped child, or a call that holds it is about to send one. -/
def Misdirected (s : Threads) : Prop :=
  s.shared.lateKill = true ∨ s.shared.reaped = true ∧ ∃ i, s.locals i = .loaded c.pid

variable {c} {s s' : State}

theorem kill_of_live {p : Int} (h : s.reaped = true → p ≠ c.pid) : s.kill c p = s := by
  have hnot : (s.reaped && p == c.pid) = false := by
    rw [← Bool.not_eq_true, Bool.and_eq_true, beq_iff_eq]
    exact fun hboth => h hboth.1 hboth.2
  rw [State.kill, hnot, Bool.or_false]

theorem kill_of_reaped (h : s.reaped = true) : s.kill c c.pid = { s with lateKill := true } := by
  rw [State.kill, h, BEq.rfl, Bool.and_self, Bool.or_true]

/-! ### The worker -/

variable {e : WorkerEvent}

/-- After the reap the worker only clears the pid. -/
structure WorkerInv (c : Child) (s : State) : Prop where
  reaped : s.reaped = true → s.worker = .clearing ∨ s.worker = .returned
  pid : s.pid = 0 ∨ s.pid = c.pid

/-- The worker sends its own signals before it reaps. -/
theorem spawnSync_spec (hinv : WorkerInv c s) (h : spawnSync c s e = some s') :
    WorkerInv c s' ∧ s'.lateKill = s.lateKill ∧
      (s'.reaped = s.reaped ∨ e = .waitpid .reaped ∧ s'.reaped = true) := by
  obtain ⟨hreaped, hpid⟩ := hinv
  have hlive (hw : s.worker ≠ .clearing) (hw' : s.worker ≠ .returned) : s.reaped = false := by
    rw [← Bool.not_eq_true]
    exact fun hr => (hreaped hr).elim hw hw'
  unfold spawnSync at h
  split at h
  all_goals try split at h
  all_goals cases h
  -- the step that clears the pid is the only one after the reap
  case h_19 hworker _ =>
    exact ⟨⟨fun _ => .inr rfl, .inl rfl⟩, rfl, .inl rfl⟩
  all_goals
    have hr : s.reaped = false := hlive (by simp_all) (by simp_all)
    refine ⟨⟨?_, ?_⟩, ?_, ?_⟩ <;> simp [State.kill, hr, hpid]

/-! ### The calls -/

theorem killNow_spec {pc pc' : KillPc} {e : KillEvent} (h : killNow c s pc e = some (s', pc')) :
    e = .store ∧ pc = .called ∧ s' = { s with cancelled := true } ∧ pc' = .stored ∨
    e = .load ∧ pc = .stored ∧ s' = s ∧ pc' = .loaded s.pid ∨
    e = .signal ∧ ∃ p, pc = .loaded p ∧ s' = (if 0 < p then s.kill c p else s) ∧ pc' = .returned := by
  unfold killNow at h
  split at h
  · cases h
    exact .inl ⟨rfl, rfl, rfl, rfl⟩
  · cases h
    exact .inr (.inl ⟨rfl, rfl, rfl, rfl⟩)
  · cases h
    exact .inr (.inr ⟨rfl, _, rfl, rfl, rfl⟩)
  · cases h

/-- A signal goes to the reaped child, or it changes nothing. -/
theorem kill_cases (s : State) (p : Int) :
    ¬(s.reaped = true ∧ p = c.pid) ∧ (if 0 < p then s.kill c p else s) = s ∨
      s.reaped = true ∧ p = c.pid ∧
        (if 0 < p then s.kill c p else s) = { s with lateKill := true } := by
  by_cases h : s.reaped = true ∧ p = c.pid
  · obtain ⟨hr, rfl⟩ := h
    rw [if_pos c.positive, kill_of_reaped hr]
    exact .inr ⟨hr, rfl, rfl⟩
  · rw [kill_of_live fun hr hp => h ⟨hr, hp⟩, ite_self]
    exact .inl ⟨h, rfl⟩

variable {y y' : Threads} {x : Event} {t : List Event}

theorem workerInv_congr (h : WorkerInv c s) (hw : s'.worker = s.worker) (hr : s'.reaped = s.reaped)
    (hp : s'.pid = s.pid) : WorkerInv c s' :=
  ⟨by rw [hw, hr]; exact h.reaped, by rw [hp]; exact h.pid⟩

/-- Every step keeps the worker's invariant, and a misdirected signal stays one. -/
theorem step_keeps (hinv : WorkerInv c y.shared) (h : (threads c).machine.step y x = some y') :
    WorkerInv c y'.shared ∧ (Misdirected c y → Misdirected c y') := by
  rcases Interleaving.step_inv h with ⟨e, rfl, hstep, hl⟩ | ⟨i, e, pc, rfl, hstep, hl⟩
  · obtain ⟨hinv', hlate, hreaped⟩ := spawnSync_spec hinv hstep
    refine ⟨hinv', ?_⟩
    unfold Misdirected
    rw [hl, hlate]
    refine Or.imp_right fun ⟨hr, hi⟩ => ⟨?_, hi⟩
    exact hreaped.elim (fun heq => heq.trans hr) fun hr' => hr'.2
  · -- a call that holds the pid keeps it when another one takes a step
    have hheld {q : KillPc} (hq : y.locals i = q) (hne : q ≠ .loaded c.pid)
        (hi : ∃ i, y.locals i = .loaded c.pid) : ∃ i, y'.locals i = .loaded c.pid := by
      obtain ⟨j, hj⟩ := hi
      refine ⟨j, ?_⟩
      rw [hl, Function.update_of_ne, hj]
      rintro rfl
      exact hne (hq.symm.trans hj)
    unfold Misdirected
    rcases killNow_spec hstep with ⟨-, hpc, hs, -⟩ | ⟨-, hpc, hs, -⟩ | ⟨-, p, hpc, hs, -⟩
    · rw [hs]
      exact ⟨workerInv_congr hinv rfl rfl rfl, Or.imp_right (And.imp_right (hheld hpc nofun))⟩
    · rw [hs]
      exact ⟨hinv, Or.imp_right (And.imp_right (hheld hpc nofun))⟩
    · rcases kill_cases (c := c) y.shared p with ⟨hnot, hkill⟩ | ⟨-, -, hkill⟩
      · rw [hs, hkill]
        refine ⟨hinv, Or.imp_right fun ⟨hr, hi⟩ => ⟨hr, hheld hpc ?_ hi⟩⟩
        rintro ⟨⟩
        exact hnot ⟨hr, rfl⟩
      · rw [hs, hkill]
        exact ⟨workerInv_congr hinv rfl rfl rfl, fun _ => .inl rfl⟩

/-- A timely step does not misdirect a signal. -/
theorem timely_step (hinv : WorkerInv c y.shared) (htimely : Timely c y x) (hsafe : ¬Misdirected c y)
    (h : (threads c).machine.step y x = some y') : ¬Misdirected c y' := by
  rw [Misdirected, not_or, not_and] at hsafe ⊢
  obtain ⟨hlate, hheld⟩ := hsafe
  rcases Interleaving.step_inv h with ⟨e, rfl, hstep, hl⟩ | ⟨i, e, pc, rfl, hstep, hl⟩
  · obtain ⟨-, hlate', hreaped⟩ := spawnSync_spec hinv hstep
    rw [hl, hlate']
    refine ⟨hlate, fun hr => ?_⟩
    rcases hreaped with hsame | ⟨rfl, -⟩
    · exact hheld (hsame.symm.trans hr)
    · exact not_exists.2 htimely
  · -- a call holds the pid after the step if it held it before, or if it is the one that loads it
    have hnone (hr : y.shared.reaped = true) (hpc : pc ≠ .loaded c.pid) :
        ¬∃ j, y'.locals j = .loaded c.pid := by
      rintro ⟨j, hj⟩
      rw [hl] at hj
      rcases eq_of_update_eq hj with ⟨-, hj⟩ | ⟨-, hj⟩
      · exact hpc hj
      · exact hheld hr ⟨j, hj⟩
    rcases killNow_spec hstep with ⟨-, -, hs, rfl⟩ | ⟨rfl, -, hs, rfl⟩ | ⟨-, p, hp, hs, rfl⟩
    · rw [hs]
      exact ⟨hlate, fun hr => hnone hr nofun⟩
    · rw [hs]
      exact ⟨hlate, fun hr => hnone hr fun hpid => htimely hr (KillPc.loaded.inj hpid)⟩
    · rcases kill_cases (c := c) y.shared p with ⟨-, hkill⟩ | ⟨hr, rfl, -⟩
      · rw [hs, hkill]
        exact ⟨hlate, fun hr => hnone hr nofun⟩
      · exact absurd ⟨i, hp⟩ (hheld hr)

theorem reaped_of_waitpid (h : spawnSync c s (.waitpid .reaped) = some s') : s'.reaped = true := by
  cases hw : s.worker
  all_goals
    simp only [spawnSync, hw, reduceCtorEq, Option.some.injEq] at h
  all_goals rw [← h]

/-- A step that is not timely misdirects a signal. -/
theorem misdirected_of_not_timely (hnot : ¬Timely c y x) (h : (threads c).machine.step y x = some y') :
    Misdirected c y' := by
  right
  rcases Interleaving.step_inv h with ⟨e, rfl, hstep, hl⟩ | ⟨i, e, pc, rfl, hstep, hl⟩
  · unfold Timely at hnot
    split at hnot
    · rename_i he
      cases he
      rw [hl]
      exact ⟨reaped_of_waitpid hstep, not_forall_not.1 hnot⟩
    · rename_i he
      cases he
    · exact absurd trivial hnot
  · rcases killNow_spec hstep with ⟨rfl, -, -, -⟩ | ⟨rfl, -, hs, rfl⟩ | ⟨rfl, -, -, -, -⟩
    · exact absurd trivial hnot
    · obtain ⟨hr, hpid⟩ : y.shared.reaped = true ∧ y.shared.pid = c.pid := by
        simpa only [Timely, Classical.not_imp, not_not] using hnot
      rw [hs, hl]
      exact ⟨hr, i, by rw [Function.update_self, hpid]⟩
    · exact absurd trivial hnot

/-! ### Runs -/

theorem workerInv_start : WorkerInv c start.shared := ⟨nofun, .inl rfl⟩

theorem not_misdirected_start : ¬Misdirected c start := by
  rintro (h | ⟨h, -⟩) <;> cases h

theorem not_misdirected_of_timely (h : (threads c).machine.Steps (Timely c) start t y) :
    ¬Misdirected c y := by
  refine (h.invariant (I := fun y => WorkerInv c y.shared ∧ ¬Misdirected c y)
    ⟨workerInv_start, not_misdirected_start⟩ ?_).2
  rintro y x y' htimely ⟨hinv, hsafe⟩ hstep
  exact ⟨(step_keeps hinv hstep).1, timely_step hinv htimely hsafe hstep⟩

theorem workerInv_of_runs (h : (threads c).machine.Runs start t y) : WorkerInv c y.shared :=
  h.invariant (I := fun y => WorkerInv c y.shared) workerInv_start
    fun _ _ _ _ hinv hstep => (step_keeps hinv hstep).1

theorem misdirected_runs (hinv : WorkerInv c y.shared) (hmis : Misdirected c y)
    (h : (threads c).machine.Runs y t y') : Misdirected c y' :=
  (h.invariant (I := fun y => WorkerInv c y.shared ∧ Misdirected c y) ⟨hinv, hmis⟩
    fun _ _ _ _ hI hstep => ⟨(step_keeps hI.1 hstep).1, (step_keeps hI.1 hstep).2 hI.2⟩).2

/-- A run sends no signal to the pid of the reaped child, and leaves none to be sent, exactly if it is
timely. -/
theorem timely_iff (h : (threads c).machine.Runs start t y) :
    (y.shared.lateKill = false ∧ ∀ i, y.shared.reaped = true → y.locals i ≠ .loaded c.pid) ↔
      (threads c).machine.Steps (Timely c) start t y := by
  have hmis : (y.shared.lateKill = false ∧ ∀ i, y.shared.reaped = true → y.locals i ≠ .loaded c.pid) ↔
      ¬Misdirected c y := by
    rw [Misdirected, not_or, Bool.not_eq_true, not_and, not_exists, forall_comm]
  rw [hmis]
  refine ⟨fun hsafe => ?_, not_misdirected_of_timely⟩
  rcases h.guarded_or_break (Timely c) with htimely | ⟨t₁, x, t₂, y₁, y₂, -, h₁, hnot, hstep, h₂⟩
  · exact htimely
  · have hinv := workerInv_of_runs h₁.runs
    exact absurd (misdirected_runs (step_keeps hinv hstep).1 (misdirected_of_not_timely hnot hstep) h₂)
      hsafe

/-- `kill_now` loads the pid, the worker reaps the child and clears the pid, and then the signal is
sent. -/
def racingTrace : List Event :=
  [.env .publish, .env .check, .env .drained, .act 0 .store, .act 0 .load, .env (.waitpid .reaped),
    .env .clear, .act 0 .signal]

def aChild : Child := ⟨42, by decide⟩

/-- A child that has ended by itself. -/
theorem late_kill : ¬∀ c t y, (threads c).machine.Runs start t y → y.shared.lateKill = false := by
  intro h
  have hrun : ((threads aChild).machine.run start racingTrace).map (·.shared.lateKill) = some true := by
    decide
  obtain ⟨y, hy, hlate⟩ := Machine.exists_runs hrun
  rw [h _ _ _ hy] at hlate
  cases hlate

/-- The same run with the call behind the `store` that clears the pid. -/
theorem timely_iff_late_call : ∃ y, (threads aChild).machine.Steps (Timely aChild) start
    [.env .publish, .env .check, .env .drained, .env (.waitpid .reaped), .env .clear, .act 0 .store,
      .act 0 .load, .act 0 .signal] y := by
  have hrun : (threads aChild).machine.run start [.env .publish, .env .check, .env .drained,
      .env (.waitpid .reaped), .env .clear, .act 0 .store, .act 0 .load, .act 0 .signal] =
        some ⟨⟨.returned, 0, true, true, false⟩, Function.update (Function.update (Function.update
          (fun _ => .called) 0 .stored) 0 (.loaded 0)) 0 .returned⟩ := rfl
  refine ⟨_, (timely_iff (Machine.steps_of_runIf hrun).runs).1 ⟨rfl, fun i _ hi => ?_⟩⟩
  rcases eq_of_update_eq hi with ⟨-, hi⟩ | ⟨hne, hi⟩
  · cases hi
  · rw [Function.update_of_ne hne, Function.update_of_ne hne] at hi
    cases hi

end CancelHandle

end Cmlb.System
