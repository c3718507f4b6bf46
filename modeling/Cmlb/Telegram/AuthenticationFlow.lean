import Cmlb.Core.Error
import Cmlb.Lib.Machine

/-!
# The authentication flow (`AuthenticationFlow::authenticate`)

`authenticate` posts its listener to the gateway's strand and then waits on a timer that the listener
cancels. The listener sets `completed` before that, but `authenticate` does not look at it before the
wait, and a cancel wakes only a wait that is outstanding. So the flow is stranded exactly by a cancel
that comes before the wait has started (`not_stranded_iff`), and then it stays where it is until TDLib
reports another final state (`Stranded.stays`).
-/

namespace Cmlb.Telegram

/-- `td_api::AuthorizationState`; `unlisted` is one that `dispatch_auth_state` has no case for. -/
inductive AuthorizationState
  | waitTdlibParameters | waitPhoneNumber | ready | loggingOut | closing | closed
  | unlisted (id : Int)
deriving DecidableEq, Repr

/-- `TelegramGateway::AuthState` -/
inductive AuthState
  | waitTdlibParameters | waitPhoneOrBotToken | ready | loggingOut | closing | closed | other
deriving DecidableEq, Repr

def AuthState.ofUpdate : AuthorizationState → AuthState
  | .waitTdlibParameters => .waitTdlibParameters
  | .waitPhoneNumber => .waitPhoneOrBotToken
  | .ready => .ready
  | .loggingOut => .loggingOut
  | .closing => .closing
  | .closed => .closed
  | .unlisted _ => .other

/-- The states in which the listener cancels the timer. -/
def AuthState.terminal : AuthState → Bool
  | .ready | .closed | .loggingOut | .closing => true
  | .waitTdlibParameters | .waitPhoneOrBotToken | .other => false

namespace AuthenticationFlow

/-- The requests that the listener spawns and does not wait for. -/
inductive Spawned
  | setTdlibParameters | checkBotToken | applyRuntimeOptions
deriving DecidableEq, Repr

/-- `State`, without its timer: that is the wait of `authenticate`. -/
structure Listener where
  completed : Bool
  ready : Bool
  lastState : AuthState
  spawned : List Spawned
deriving DecidableEq, Repr

/-- What the listener does, up to its `cancel`. -/
def Listener.onAuthState (l : Listener) (s : AuthState) : Listener :=
  let l := { l with lastState := s }
  match s with
  | .waitTdlibParameters => { l with spawned := l.spawned ++ [.setTdlibParameters] }
  | .waitPhoneOrBotToken => { l with spawned := l.spawned ++ [.checkBotToken] }
  | .ready =>
    { l with ready := true, completed := true, spawned := l.spawned ++ [.applyRuntimeOptions] }
  | .closed | .loggingOut | .closing => { l with ready := false, completed := true }
  | .other => l

inductive Pc
  | entered
  | created
  | aboutToWait
  | waiting
  | woken
  | returned (r : Result Unit)
  | threw

/-- Waiting on the timer, or still about to. -/
def Pc.waits : Pc → Bool
  | .aboutToWait | .waiting => true
  | .entered | .created | .woken | .returned _ | .threw => false

/-- `state->done.cancel()`: only a wait that is outstanding ends. -/
def Pc.cancelled : Pc → Pc
  | .waiting => .woken
  | pc => pc

/-- One call of `authenticate` and what the strand holds for it. `tasks` are the posted bodies of
`set_auth_state_handler`, with whether the handler is the listener or an empty one; `authHandler` says
the same of the handler that is installed. In `cancelling` the strand is inside the listener, before
its `cancel`. -/
structure Flow where
  pc : Pc
  listener : Listener
  tasks : List Bool
  authHandler : Bool
  lastAuthState : Option AuthState
  cancelling : Bool

namespace Flow

/-- The gateway may have seen any state before. -/
def start (lastAuthState : Option AuthState) : Flow :=
  ⟨.entered, ⟨false, false, .other, []⟩, [], false, lastAuthState, false⟩

def callListener (f : Flow) (s : AuthState) : Flow :=
  { f with listener := f.listener.onAuthState s, cancelling := s.terminal }

/-- `none` is a null update, or one with a null state. -/
def dispatchAuthState (f : Flow) : Option AuthorizationState → Flow
  | none => f
  | some u =>
    let s := AuthState.ofUpdate u
    let f := { f with lastAuthState := some s }
    if f.authHandler then f.callListener s else f

/-- The task that `set_auth_state_handler` posts. -/
def setAuthStateHandler (f : Flow) (handler : Bool) : Flow :=
  let f := { f with authHandler := handler }
  match f.lastAuthState with
  | some s => if handler then f.callListener s else f
  | none => f

def result (l : Listener) : Result Unit :=
  if !l.completed then
    .error ⟨.internal, "authentication_flow: timer fired before completion"⟩
  else if !l.ready then
    .error ⟨.unauthenticated, "authentication_flow: terminated before reaching Ready state"⟩
  else .ok ()

/-- The next step of `authenticate`. -/
def proceed (botToken : String) (f : Flow) : Option Flow :=
  match f.pc with
  | .entered =>
    if botToken.isEmpty then
      some { f with pc := .returned (.error ⟨.invalidConfiguration,
        "authentication_flow: bot_token is empty; v1 supports bot-token auth only"⟩) }
    else some { f with pc := .created }
  | .created => some { f with pc := .aboutToWait, tasks := f.tasks ++ [true] }
  | .aboutToWait => some { f with pc := .waiting }
  | .woken => some { f with pc := .returned (result f.listener), tasks := f.tasks ++ [false] }
  | .waiting | .returned _ | .threw => none

/-- The caller is cancelled: a wait that is outstanding ends, and one that is not throws. -/
def interrupt (f : Flow) : Option Flow :=
  match f.pc with
  | .aboutToWait => some { f with pc := .threw }
  | .waiting => some { f with pc := .woken }
  | .entered | .created | .woken | .returned _ | .threw => none

end Flow

inductive Event
  | proceed
  | interrupt
  | update (u : Option AuthorizationState)
  | task
  | cancel
deriving DecidableEq, Repr

/-- `authenticate` and the strand take steps in any order; the strand does one thing at a time. -/
def machine (botToken : String) : Machine Flow Event where
  step f
    | .proceed => f.proceed botToken
    | .interrupt => f.interrupt
    | .update u => if f.cancelling then none else some (f.dispatchAuthState u)
    | .task =>
      if f.cancelling then none
      else
        match f.tasks with
        | [] => none
        | handler :: tasks => some ({ f with tasks := tasks }.setAuthStateHandler handler)
    | .cancel => if f.cancelling then some { f with pc := f.pc.cancelled, cancelling := false } else none

/-- The flow has completed, but nothing is left that ends its wait. -/
structure Stranded (f : Flow) : Prop where
  completed : f.listener.completed = true
  waits : f.pc.waits = true
  noCancel : f.cancelling = false

/-- The listener cancels the timer only once the wait on it has started. -/
def CancelsWait (f : Flow) : Event → Prop
  | .cancel => f.pc ≠ .aboutToWait
  | _ => True

variable {botToken : String} {last : Option AuthState} {f f' : Flow} {e : Event} {t : List Event}

@[simp]
theorem Listener.onAuthState_completed (l : Listener) (s : AuthState) :
    (l.onAuthState s).completed = (l.completed || s.terminal) := by
  cases s <;> simp [onAuthState, AuthState.terminal]

/-! ### What the strand does -/

/-- A task of the strand leaves `authenticate` where it is, and calls the listener at most once. -/
structure Serves (f f' : Flow) : Prop where
  pc : f'.pc = f.pc
  calls : f'.listener = f.listener ∧ f'.cancelling = f.cancelling ∨
    ∃ s, f'.lastAuthState = some s ∧ f'.authHandler = true ∧
      f'.listener = f.listener.onAuthState s ∧ f'.cancelling = s.terminal

theorem serves_dispatchAuthState (f : Flow) (u : Option AuthorizationState) :
    Serves f (f.dispatchAuthState u) := by
  cases u with
  | none => exact ⟨rfl, .inl ⟨rfl, rfl⟩⟩
  | some u =>
    simp only [Flow.dispatchAuthState]
    by_cases hf : f.authHandler = true
    · rw [if_pos hf]
      exact ⟨rfl, .inr ⟨_, rfl, hf, rfl, rfl⟩⟩
    · rw [if_neg hf]
      exact ⟨rfl, .inl ⟨rfl, rfl⟩⟩

theorem serves_setAuthStateHandler (f : Flow) (handler : Bool) :
    Serves f (f.setAuthStateHandler handler) := by
  unfold Flow.setAuthStateHandler
  dsimp only
  split
  · rename_i s hs
    by_cases hh : handler = true
    · rw [if_pos hh]
      exact ⟨rfl, .inr ⟨s, hs, hh, rfl, rfl⟩⟩
    · rw [if_neg hh]
      exact ⟨rfl, .inl ⟨rfl, rfl⟩⟩
  · exact ⟨rfl, .inl ⟨rfl, rfl⟩⟩

theorem dispatchAuthState_strand (f : Flow) (u : Option AuthorizationState) :
    (f.dispatchAuthState u).tasks = f.tasks ∧ (f.dispatchAuthState u).authHandler = f.authHandler := by
  cases u with
  | none => exact ⟨rfl, rfl⟩
  | some u =>
    simp only [Flow.dispatchAuthState]
    split <;> exact ⟨rfl, rfl⟩

theorem setAuthStateHandler_tasks (f : Flow) (handler : Bool) :
    (f.setAuthStateHandler handler).tasks = f.tasks := by
  unfold Flow.setAuthStateHandler
  dsimp only
  split
  · split <;> rfl
  · rfl

theorem Serves.completed_of_cancelling (h : Serves f f')
    (hf : f.cancelling = true → f.listener.completed = true) (hc : f'.cancelling = true) :
    f'.listener.completed = true := by
  rcases h.calls with ⟨hl, hcan⟩ | ⟨s, -, -, hl, hcan⟩
  · rw [hl]
    exact hf (hcan ▸ hc)
  · rw [hl, Listener.onAuthState_completed, ← hcan, hc, Bool.or_true]

/-- What completes the flow also cancels its timer. -/
theorem Serves.pending (h : Serves f f') (hf : f.listener.completed = true → f.cancelling = true)
    (hc : f'.listener.completed = true) : f.cancelling = true ∨ f'.cancelling = true := by
  rcases h.calls with ⟨hl, -⟩ | ⟨s, -, -, hl, hcan⟩
  · exact .inl (hf (hl ▸ hc))
  · rw [hl, Listener.onAuthState_completed, Bool.or_eq_true] at hc
    rcases hc with hc | hc
    · exact .inl (hf hc)
    · exact .inr (hcan.trans hc)

/-! ### The listener is installed once, before the wait -/

/-- The listener is not installed and has not completed the flow. -/
def Unheard (f : Flow) : Prop := f.authHandler = false ∧ f.listener.completed = false

structure Inv (f : Flow) : Prop where
  cancelling : f.cancelling = true → f.listener.completed = true
  begins : f.pc = .entered ∨ f.pc = .created → f.tasks = [] ∧ Unheard f
  waits : f.pc.waits = true → f.tasks = [] ∨ f.tasks = [true] ∧ Unheard f

theorem inv_start : Inv (Flow.start last) :=
  ⟨fun h => (by cases h), fun _ => ⟨rfl, rfl, rfl⟩, fun h => (by cases h)⟩

/-- A step of `authenticate` touches neither the listener nor the handler. -/
theorem proceed_inv (hs : f.proceed botToken = some f') :
    (f'.listener = f.listener ∧ f'.authHandler = f.authHandler ∧ f'.cancelling = f.cancelling) ∧
    ((f.pc = .entered ∧ f'.pc = .created ∧ f'.tasks = f.tasks) ∨
      (f.pc = .created ∧ f'.pc = .aboutToWait ∧ f'.tasks = f.tasks ++ [true]) ∨
      (f.pc = .aboutToWait ∧ f'.pc = .waiting ∧ f'.tasks = f.tasks) ∨
      (f.pc.waits = false ∧ ∃ r, f'.pc = .returned r)) := by
  unfold Flow.proceed at hs
  split at hs
  · rename_i hpc
    split at hs
    · cases hs
      exact ⟨⟨rfl, rfl, rfl⟩, .inr (.inr (.inr ⟨by rw [hpc]; rfl, _, rfl⟩))⟩
    · cases hs
      exact ⟨⟨rfl, rfl, rfl⟩, .inl ⟨hpc, rfl, rfl⟩⟩
  · cases hs
    exact ⟨⟨rfl, rfl, rfl⟩, .inr (.inl ⟨‹_›, rfl, rfl⟩)⟩
  · cases hs
    exact ⟨⟨rfl, rfl, rfl⟩, .inr (.inr (.inl ⟨‹_›, rfl, rfl⟩))⟩
  · rename_i hpc
    cases hs
    exact ⟨⟨rfl, rfl, rfl⟩, .inr (.inr (.inr ⟨by rw [hpc]; rfl, _, rfl⟩))⟩
  all_goals cases hs

theorem interrupt_inv (hs : f.interrupt = some f') :
    ∃ pc, f' = { f with pc := pc } ∧ (pc = .threw ∨ pc = .woken) := by
  unfold Flow.interrupt at hs
  split at hs
  · cases hs
    exact ⟨_, rfl, .inl rfl⟩
  · cases hs
    exact ⟨_, rfl, .inr rfl⟩
  all_goals cases hs

theorem Inv.proceed (h : Inv f) (hs : f.proceed botToken = some f') : Inv f' := by
  obtain ⟨⟨hl, hh, hc⟩, hpc⟩ := proceed_inv hs
  have hcan : f'.cancelling = true → f'.listener.completed = true := by
    rw [hl, hc]
    exact h.cancelling
  have hunheard : Unheard f → Unheard f' := by
    unfold Unheard
    rw [hl, hh]
    exact id
  rcases hpc with ⟨hpc, hpc', ht⟩ | ⟨hpc, hpc', ht⟩ | ⟨hpc, hpc', ht⟩ | ⟨-, r, hpc'⟩
  · refine ⟨hcan, fun _ => ?_, fun hw => ?_⟩
    · rw [ht]
      exact (h.begins (.inl hpc)).imp_right hunheard
    · simp [hpc', Pc.waits] at hw
  · obtain ⟨htasks, hu⟩ := h.begins (.inr hpc)
    refine ⟨hcan, fun hb => ?_, fun _ => .inr ⟨?_, hunheard hu⟩⟩
    · simp [hpc'] at hb
    · rw [ht, htasks, List.nil_append]
  · refine ⟨hcan, fun hb => ?_, fun _ => ?_⟩
    · simp [hpc'] at hb
    · rw [ht]
      exact (h.waits (by rw [hpc]; rfl)).imp_right fun hw => hw.imp_right hunheard
  · refine ⟨hcan, fun hb => ?_, fun hw => ?_⟩
    · simp [hpc'] at hb
    · simp [hpc', Pc.waits] at hw

theorem Inv.interrupt (h : Inv f) (hs : f.interrupt = some f') : Inv f' := by
  obtain ⟨pc, rfl, hpc⟩ := interrupt_inv hs
  rcases hpc with rfl | rfl
  all_goals exact ⟨h.cancelling, fun hb => by simp at hb, fun hw => by cases hw⟩

theorem Unheard.update (h : Unheard f) (u : Option AuthorizationState) :
    Unheard (f.dispatchAuthState u) := by
  have hh := (dispatchAuthState_strand f u).2.trans h.1
  rcases (serves_dispatchAuthState f u).calls with ⟨hl, -⟩ | ⟨s, -, hf, -⟩
  · exact ⟨hh, by rw [hl, h.2]⟩
  · rw [hh] at hf
    cases hf

theorem Inv.update (h : Inv f) (u : Option AuthorizationState) : Inv (f.dispatchAuthState u) := by
  have hserves := serves_dispatchAuthState f u
  have ht := (dispatchAuthState_strand f u).1
  refine ⟨hserves.completed_of_cancelling h.cancelling, ?_, ?_⟩
  · rw [hserves.pc, ht]
    exact fun hb => (h.begins hb).imp_right fun hu => hu.update u
  · rw [hserves.pc, ht]
    exact fun hw => (h.waits hw).imp_right fun hw => hw.imp_right fun hu => hu.update u

theorem Inv.task {handler : Bool} {tasks : List Bool} (h : Inv f) (ht : f.tasks = handler :: tasks) :
    Inv ({ f with tasks := tasks }.setAuthStateHandler handler) := by
  have hserves := serves_setAuthStateHandler { f with tasks := tasks } handler
  refine ⟨hserves.completed_of_cancelling h.cancelling, ?_, ?_⟩
  · rw [hserves.pc]
    intro hb
    have htasks := (h.begins hb).1
    rw [ht] at htasks
    cases htasks
  · rw [hserves.pc, setAuthStateHandler_tasks]
    intro hw
    rcases h.waits hw with htasks | ⟨htasks, -⟩
    · rw [ht] at htasks
      cases htasks
    · rw [ht, List.cons.injEq] at htasks
      exact .inl htasks.2

theorem Inv.cancel (h : Inv f) : Inv { f with pc := f.pc.cancelled, cancelling := false } := by
  obtain ⟨-, hbegins, hwaits⟩ := h
  cases hpc : f.pc with
  | waiting => exact ⟨fun hc => (by cases hc), fun hb => by simp [Pc.cancelled] at hb, fun hw => by cases hw⟩
  | entered | created | aboutToWait | woken | returned | threw =>
    rw [hpc] at hbegins hwaits
    exact ⟨fun hc => (by cases hc), hbegins, hwaits⟩

/-- What the strand needs for its steps. -/
theorem step_inv (hs : (machine botToken).step f e = some f') :
    (e = .proceed ∧ f.proceed botToken = some f') ∨ (e = .interrupt ∧ f.interrupt = some f') ∨
    (∃ u, e = .update u ∧ f.cancelling = false ∧ f' = f.dispatchAuthState u) ∨
    (e = .task ∧ f.cancelling = false ∧ ∃ handler tasks, f.tasks = handler :: tasks ∧
      f' = { f with tasks := tasks }.setAuthStateHandler handler) ∨
    (e = .cancel ∧ f.cancelling = true ∧ f' = { f with pc := f.pc.cancelled, cancelling := false }) := by
  cases e with
  | proceed => exact .inl ⟨rfl, hs⟩
  | interrupt => exact .inr (.inl ⟨rfl, hs⟩)
  | update u =>
    simp only [machine] at hs
    split at hs
    · cases hs
    · cases hs
      exact .inr (.inr (.inl ⟨u, rfl, eq_false_of_ne_true ‹_›, rfl⟩))
  | task =>
    simp only [machine] at hs
    split at hs
    · cases hs
    · split at hs
      · cases hs
      · cases hs
        exact .inr (.inr (.inr (.inl ⟨rfl, eq_false_of_ne_true ‹_›, _, _, ‹_›, rfl⟩)))
  | cancel =>
    simp only [machine] at hs
    split at hs
    · cases hs
      exact .inr (.inr (.inr (.inr ⟨rfl, ‹_›, rfl⟩)))
    · cases hs

theorem Inv.step (h : Inv f) (hs : (machine botToken).step f e = some f') : Inv f' := by
  rcases step_inv hs with ⟨-, hs⟩ | ⟨-, hs⟩ | ⟨u, -, -, rfl⟩ | ⟨-, -, handler, tasks, ht, rfl⟩ | ⟨-, -, rfl⟩
  · exact h.proceed hs
  · exact h.interrupt hs
  · exact h.update u
  · exact h.task ht
  · exact h.cancel

theorem inv_steps {P : Flow → Event → Prop} (h : (machine botToken).Steps P (.start last) t f) : Inv f :=
  h.invariant inv_start fun _ _ _ _ hi hs => hi.step hs

/-! ### Lost cancels -/

/-- A completed flow that waits has its cancel still to come. -/
def WakePending (f : Flow) : Prop :=
  f.listener.completed = true → f.pc.waits = true → f.cancelling = true

theorem WakePending.serves (h : WakePending f) (hidle : f.cancelling = false) (hs : Serves f f') :
    WakePending f' := by
  intro hc hw
  rw [hs.pc] at hw
  rcases hs.pending (fun hc => h hc hw) hc with hcan | hcan
  · rw [hidle] at hcan
    cases hcan
  · exact hcan

theorem WakePending.step (h : WakePending f) (hi : Inv f) (hp : CancelsWait f e)
    (hs : (machine botToken).step f e = some f') : WakePending f' := by
  rcases step_inv hs with ⟨-, hs⟩ | ⟨-, hs⟩ | ⟨u, -, hidle, rfl⟩ | ⟨-, hidle, handler, tasks, ht, rfl⟩ |
    ⟨rfl, -, rfl⟩
  · obtain ⟨⟨hl, -, hcan⟩, hpc⟩ := proceed_inv hs
    intro hc hw
    rw [hl] at hc
    rw [hcan]
    rcases hpc with ⟨-, hpc', -⟩ | ⟨hpc, -, -⟩ | ⟨hpc, -, -⟩ | ⟨-, r, hpc'⟩
    · simp [hpc', Pc.waits] at hw
    · rw [(hi.begins (.inr hpc)).2.2] at hc
      cases hc
    · exact h hc (by rw [hpc]; rfl)
    · simp [hpc', Pc.waits] at hw
  · obtain ⟨pc, rfl, hpc⟩ := interrupt_inv hs
    intro _ hw
    rcases hpc with rfl | rfl <;> cases hw
  · exact h.serves hidle (serves_dispatchAuthState f u)
  · exact WakePending.serves (f := { f with tasks := tasks }) h hidle (serves_setAuthStateHandler _ handler)
  · -- the flow is not about to wait, so if it was waiting it is awake now
    intro _ hw
    exfalso
    cases hpc : f.pc with
    | aboutToWait => exact hp hpc
    | entered | created | waiting | woken | returned | threw =>
      simp [hpc, Pc.cancelled, Pc.waits] at hw

theorem not_stranded (h : (machine botToken).Steps CancelsWait (.start last) t f) : ¬ Stranded f := by
  have hboth : Inv f ∧ WakePending f :=
    h.invariant (I := fun f => Inv f ∧ WakePending f) ⟨inv_start, fun hc => by cases hc⟩
      fun _ _ _ hp hi hs => ⟨hi.1.step hs, hi.2.step hi.1 hp hs⟩
  intro hstranded
  have hcan := hboth.2 hstranded.completed hstranded.waits
  rw [hstranded.noCancel] at hcan
  cases hcan

/-- The listener cancels a timer that nobody waits on yet. -/
theorem stranded_of_early_cancel (hi : Inv f) (hp : ¬ CancelsWait f e)
    (hs : (machine botToken).step f e = some f') : Stranded f' := by
  rcases step_inv hs with ⟨rfl, -⟩ | ⟨rfl, -⟩ | ⟨u, rfl, -⟩ | ⟨rfl, -⟩ | ⟨rfl, hcan, rfl⟩
  · exact absurd trivial hp
  · exact absurd trivial hp
  · exact absurd trivial hp
  · exact absurd trivial hp
  · have hpc : f.pc = .aboutToWait := not_not.1 hp
    exact ⟨hi.cancelling hcan, by rw [hpc]; rfl, rfl⟩

/-- No state on the way of the events `t` is stranded. -/
def NeverStranded (botToken : String) (last : Option AuthState) (t : List Event) : Prop :=
  ∀ t₁ f₁, t₁ <+: t → (machine botToken).Runs (.start last) t₁ f₁ → ¬ Stranded f₁

/-- The flow is never stranded exactly if every cancel comes after the wait has started. -/
theorem not_stranded_iff (h : (machine botToken).Runs (.start last) t f) :
    NeverStranded botToken last t ↔ (machine botToken).Steps CancelsWait (.start last) t f := by
  constructor
  · intro hnever
    rcases h.guarded_or_break CancelsWait with hP | ⟨t₁, e, t₂, f₁, f₂, rfl, h₁, hbad, hs, -⟩
    · exact hP
    · have hstranded := stranded_of_early_cancel (inv_steps h₁) hbad hs
      exact absurd hstranded (hnever (t₁ ++ [e]) f₂ ⟨t₂, by simp⟩ (.snoc h₁.runs trivial hs))
  · rintro hP t₁ f₁ ⟨t₂, rfl⟩ h₁
    exact not_stranded (hP.of_append h₁)

/-- The caller is not cancelled, and TDLib reports no final state. -/
def Quiet : Event → Prop
  | .interrupt => False
  | .update (some u) => (AuthState.ofUpdate u).terminal = false
  | _ => True

theorem Stranded.step (h : Stranded f) (hi : Inv f) (hq : Quiet e)
    (hs : (machine botToken).step f e = some f') : Stranded f' := by
  rcases step_inv hs with ⟨-, hs⟩ | ⟨rfl, -⟩ | ⟨u, rfl, -, rfl⟩ | ⟨-, -, handler, tasks, ht, rfl⟩ |
    ⟨-, hcan, -⟩
  · obtain ⟨⟨hl, -, hcan⟩, hpc⟩ := proceed_inv hs
    refine ⟨hl ▸ h.completed, ?_, hcan ▸ h.noCancel⟩
    have hw := h.waits
    rcases hpc with ⟨hpc, -⟩ | ⟨hpc, -⟩ | ⟨-, hpc', -⟩ | ⟨hpc, -⟩
    · simp [hpc, Pc.waits] at hw
    · simp [hpc, Pc.waits] at hw
    · rw [hpc']
      rfl
    · rw [hpc] at hw
      cases hw
  · cases hq
  · cases u with
    | none => exact h
    | some u =>
      simp only [Flow.dispatchAuthState]
      split
      · exact ⟨by simp [Flow.callListener, h.completed], h.waits, hq⟩
      · exact ⟨h.completed, h.waits, h.noCancel⟩
  · -- the listener has been called, so it is installed and nothing is posted after it
    rcases hi.waits h.waits with htasks | ⟨-, -, hcompleted⟩
    · rw [ht] at htasks
      cases htasks
    · rw [h.completed] at hcompleted
      cases hcompleted
  · rw [h.noCancel] at hcan
    cases hcan

/-- A stranded flow stays so until the caller is cancelled or another final state is reported. -/
theorem Stranded.stays {t' : List Event} (h : Stranded f) (hr : (machine botToken).Runs (.start last) t f)
    (hr' : (machine botToken).Steps (fun _ e => Quiet e) f t' f') : Stranded f' := by
  have hboth : Inv f' ∧ Stranded f' :=
    hr'.invariant (I := fun f => Inv f ∧ Stranded f) ⟨inv_steps hr, h⟩
      fun _ _ _ hq hi hs => ⟨hi.1.step hs, hi.2.step hi.1 hq hs⟩
  exact hboth.2

instance (pc : Pc) : Decidable (pc = .aboutToWait) :=
  match pc with
  | .aboutToWait => isTrue rfl
  | .entered | .created | .waiting | .woken | .returned _ | .threw => isFalse fun h => by cases h

instance (f : Flow) (e : Event) : Decidable (CancelsWait f e) :=
  match e with
  | .cancel => inferInstanceAs (Decidable (f.pc ≠ .aboutToWait))
  | .proceed | .interrupt | .update _ | .task => isTrue trivial

/-- The listener gets the state that TDLib is in, and later, when the flow waits, that it is ready. -/
def readyWhileWaiting : List Event :=
  [.update (some .waitTdlibParameters), .proceed, .proceed, .task, .proceed, .update (some .ready),
    .cancel, .proceed]

theorem not_stranded_readyWhileWaiting : NeverStranded "token" none readyWhileWaiting := by
  have hobs : ((machine "token").runIf (fun f e => decide (CancelsWait f e)) (.start none)
      readyWhileWaiting).map (fun f => f.listener.ready) = some true := by decide
  obtain ⟨f, hf, -⟩ := Machine.exists_steps hobs
  exact (not_stranded_iff hf.runs).2 (hf.mono fun _ _ h => of_decide_eq_true h)

/-- The session is ready before the flow has come to its wait. -/
def readyBeforeWait : List Event :=
  [.update (some .waitTdlibParameters), .proceed, .proceed, .task, .update (some .ready), .cancel,
    .proceed]

theorem stranded_by_ready : ∃ f, (machine "token").Runs (.start none) readyBeforeWait f ∧ Stranded f := by
  have hobs : ((machine "token").run (.start none) readyBeforeWait).map
      (fun f => (f.listener.completed, f.pc.waits, f.cancelling)) = some (true, true, false) := by decide
  obtain ⟨f, hf, ho⟩ := Machine.exists_runs hobs
  simp only [Prod.mk.injEq] at ho
  exact ⟨f, hf, ho.1, ho.2.1, ho.2.2⟩

end AuthenticationFlow

end Cmlb.Telegram
