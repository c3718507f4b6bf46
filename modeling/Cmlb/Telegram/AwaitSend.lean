import Cmlb.Lib.Interleave
import Cmlb.Telegram.Gateway

/-!
# Waiting for a response (`await_send`)

`await_send` registers a handler and then waits on a timer that the handler cancels. The first line of
it moves to the strand, but `dispatch` with `use_awaitable` completes on the coroutine's own executor,
so the rest runs next to the strand: a response, the sweep or the drain may call the handler before the
wait has started. A cancel wakes only a wait that is outstanding, and `await_send` does not look at
`done` before it waits.

Every request is that of one `await_send`, so both have the request's number here. No awaiter is ever
stranded exactly if every cancel comes when its wait has started (`not_stranded_iff_waits`); one that is
stranded stays so until its caller is cancelled (`Stranded.stays`).
-/

namespace Cmlb.Telegram

namespace AwaitSend

/-- Where an `await_send` is; `unsent` is before its `send_request`. -/
inductive Pc
  | unsent
  | aboutToWait
  | waiting
  | woken
  | returned (obj : Option TdObject)
  | threw
deriving DecidableEq, Repr

/-- Waiting on the timer, or still about to. -/
def Pc.waits : Pc → Bool
  | .aboutToWait | .waiting => true
  | .unsent | .woken | .returned _ | .threw => false

/-- `state->timer.cancel()`: only a wait that is outstanding ends. -/
def Pc.cancelled : Pc → Pc
  | .waiting => .woken
  | pc => pc

/-- One `await_send` with its `State`. -/
structure Await where
  pc : Pc
  result : Option TdObject
  done : Bool
deriving DecidableEq, Repr

def Await.start : Await := ⟨.unsent, none, false⟩

def timerFired : TdObject := .error 500 "cmlb: internal: timer fired before response"

/-- What `await_send` returns once its wait is over. -/
def Await.response (a : Await) : Option TdObject := if a.done then a.result else some timerFired

/-- The gateway and the awaiters. `calls` are the handler calls that the strand's present task has
still to make; in `cancelling n` the strand is inside the handler of the request `n`, before its
`cancel`. -/
structure System where
  gateway : Gateway
  awaits : Nat → Await
  calls : List (Nat × TdObject)
  cancelling : Option Nat

namespace System

def start : System := ⟨.start, fun _ => .start, [], none⟩

def setPc (s : System) (n : Nat) (pc : Pc) : System :=
  { s with awaits := Function.update s.awaits n { s.awaits n with pc := pc } }

/-- `await_send` up to its wait. -/
def sendRequest (s : System) (now : Int) : System :=
  { s.setPc s.gateway.sent.length .aboutToWait with gateway := s.gateway.sendRequest now }

/-- The next step of an awaiter after its `send_request`. -/
def proceed (s : System) (n : Nat) : Option System :=
  match (s.awaits n).pc with
  | .aboutToWait => some (s.setPc n .waiting)
  | .woken => some (s.setPc n (.returned (s.awaits n).response))
  | .unsent | .waiting | .returned _ | .threw => none

/-- The caller is cancelled: a wait that is outstanding ends, and one that is not throws. -/
def interrupt (s : System) (n : Nat) : Option System :=
  match (s.awaits n).pc with
  | .aboutToWait => some (s.setPc n .threw)
  | .waiting => some (s.setPc n .woken)
  | .unsent | .woken | .returned _ | .threw => none

/-- The strand is between two tasks. -/
def idle (s : System) : Bool := s.calls.isEmpty && s.cancelling.isNone

/-- A task of the strand, up to the first handler that it calls. -/
def task (ttl : Int) (s : System) (e : Gateway.Event) : System :=
  let g := s.gateway.step ttl e
  { s with gateway := g, calls := g.resumed.drop s.gateway.resumed.length }

/-- The handler, up to its `cancel`. -/
def handler (s : System) (n : Nat) (obj : TdObject) : System :=
  { s with
    awaits := Function.update s.awaits n { s.awaits n with result := some obj, done := true }
    cancelling := some n }

end System

inductive Event
  | sendRequest (now : Int)
  | proceed (n : Nat)
  | interrupt (n : Nat)
  | handleEvent (requestId : Nat) (object : Option TdObject)
  | evictStale (now : Int)
  | drain
  | handler
  | cancel
deriving DecidableEq

/-- The awaiters and the strand take steps in any order; the strand does one thing at a time. -/
def machine (ttl : Int) : Machine System Event where
  step s
    | .sendRequest now => some (s.sendRequest now)
    | .proceed n => s.proceed n
    | .interrupt n => s.interrupt n
    | .handleEvent requestId object =>
      if s.idle then some (s.task ttl (.handleEvent requestId object)) else none
    | .evictStale now => if s.idle then some (s.task ttl (.evictStale now)) else none
    | .drain => if s.idle then some (s.task ttl .drain) else none
    | .handler =>
      match s.calls, s.cancelling with
      | (n, obj) :: calls, none => some ({ s with calls := calls }.handler n obj)
      | _, _ => none
    | .cancel =>
      match s.cancelling with
      | some n => some { s.setPc n (s.awaits n).pc.cancelled with cancelling := none }
      | none => none

/-- The handler of `n` is being called, or a call of it may still come. -/
def System.WillCancel (s : System) (n : Nat) : Prop :=
  s.cancelling = some n ∨ n ∈ s.calls.map Prod.fst ∨ n ∈ s.gateway.pending.map PendingHandler.request

/-- The handler of `n` has run, but nothing is left that ends its awaiter's wait. -/
structure Stranded (s : System) (n : Nat) : Prop where
  done : (s.awaits n).done = true
  waits : (s.awaits n).pc.waits = true
  noCancel : ¬ s.WillCancel n

/-- A handler cancels its timer only once the wait on it has started. -/
def CancelsWait (s : System) : Event → Prop
  | .cancel => ∀ n, s.cancelling = some n → (s.awaits n).pc ≠ .aboutToWait
  | _ => True

variable {ttl : Int} {s s' : System} {e : Event} {t : List Event} {n m : Nat}

/-! ### What a step does -/

@[simp]
theorem System.setPc_pc (s : System) (n : Nat) (pc : Pc) : ((s.setPc n pc).awaits n).pc = pc := by
  simp [setPc]

theorem System.setPc_pc_of_ne (pc : Pc) (h : m ≠ n) : ((s.setPc n pc).awaits m).pc = (s.awaits m).pc := by
  simp [setPc, Function.update_of_ne h]

@[simp]
theorem System.setPc_done (s : System) (n : Nat) (pc : Pc) (m : Nat) :
    ((s.setPc n pc).awaits m).done = (s.awaits m).done := by
  by_cases h : m = n
  · simp [setPc, h]
  · simp [setPc, Function.update_of_ne h]

theorem Pc.cancelled_waits {pc : Pc} (h : pc ≠ .aboutToWait) : pc.cancelled.waits = false := by
  cases pc with
  | aboutToWait => exact absurd rfl h
  | unsent | waiting | woken | returned | threw => rfl

/-- An awaiter goes on without its caller's being cancelled. -/
inductive Proceeds (a : Await) : Pc → Prop
  | wait (h : a.pc = .aboutToWait) : Proceeds a .waiting
  | finish (h : a.pc = .woken) : Proceeds a (.returned a.response)

/-- What each event does, with what it needs. -/
inductive StepCase (s : System) : Event → System → Prop
  | send (now : Int) : StepCase s (.sendRequest now) (s.sendRequest now)
  | proceed (n : Nat) (pc : Pc) (h : Proceeds (s.awaits n) pc) : StepCase s (.proceed n) (s.setPc n pc)
  | interrupt (n : Nat) (pc : Pc) (h : pc.waits = false) : StepCase s (.interrupt n) (s.setPc n pc)
  | task (e : Event) (g : Gateway) (hcalls : s.calls = []) (hcancelling : s.cancelling = none)
      (hg : s.gateway.Settles g) (he : e ≠ .cancel ∧ ∀ n, e ≠ .interrupt n) :
      StepCase s e { s with gateway := g, calls := g.resumed.drop s.gateway.resumed.length }
  | handler (n : Nat) (obj : TdObject) (calls : List (Nat × TdObject))
      (hcalls : s.calls = (n, obj) :: calls) (hcancelling : s.cancelling = none) :
      StepCase s .handler ({ s with calls := calls }.handler n obj)
  | cancel (n : Nat) (hcancelling : s.cancelling = some n) :
      StepCase s .cancel { s.setPc n (s.awaits n).pc.cancelled with cancelling := none }

theorem idle_inv (h : s.idle = true) : s.calls = [] ∧ s.cancelling = none := by
  simpa [System.idle] using h

theorem proceed_inv (h : s.proceed n = some s') : ∃ pc, Proceeds (s.awaits n) pc ∧ s' = s.setPc n pc := by
  unfold System.proceed at h
  split at h
  · cases h
    exact ⟨_, .wait ‹_›, rfl⟩
  · cases h
    exact ⟨_, .finish ‹_›, rfl⟩
  all_goals cases h

theorem interrupt_inv (h : s.interrupt n = some s') : ∃ pc : Pc, pc.waits = false ∧ s' = s.setPc n pc := by
  unfold System.interrupt at h
  split at h
  · cases h
    exact ⟨.threw, rfl, rfl⟩
  · cases h
    exact ⟨.woken, rfl, rfl⟩
  all_goals cases h

theorem stepCase_of_step (h : (machine ttl).step s e = some s') : StepCase s e s' := by
  cases e with
  | sendRequest now =>
    cases h
    exact .send now
  | proceed n =>
    obtain ⟨pc, hpc, rfl⟩ := proceed_inv h
    exact .proceed n pc hpc
  | interrupt n =>
    obtain ⟨pc, hpc, rfl⟩ := interrupt_inv h
    exact .interrupt n pc hpc
  | handleEvent requestId object =>
    simp only [machine] at h
    split at h
    · cases h
      obtain ⟨hcalls, hcancelling⟩ := idle_inv ‹_›
      exact .task _ _ hcalls hcancelling (Gateway.settles_handleEvent _ requestId object) (by simp)
    · cases h
  | evictStale now =>
    simp only [machine] at h
    split at h
    · cases h
      obtain ⟨hcalls, hcancelling⟩ := idle_inv ‹_›
      exact .task _ _ hcalls hcancelling (Gateway.settles_evictStale _ ttl now) (by simp)
    · cases h
  | drain =>
    simp only [machine] at h
    split at h
    · cases h
      obtain ⟨hcalls, hcancelling⟩ := idle_inv ‹_›
      exact .task _ _ hcalls hcancelling (Gateway.settles_drain _) (by simp)
    · cases h
  | handler =>
    simp only [machine] at h
    split at h
    · cases h
      exact .handler _ _ _ ‹_› ‹_›
    · cases h
  | cancel =>
    simp only [machine] at h
    split at h
    · cases h
      exact .cancel _ ‹_›
    · cases h

/-! ### Each handler is called once -/

structure Inv (s : System) : Prop where
  nodup : s.gateway.handled.Nodup
  sent : ∀ n ∈ s.gateway.handled, n < s.gateway.sent.length
  calls : s.calls <:+ s.gateway.resumed
  done : ∀ n, (s.awaits n).done = true →
    n ∈ s.gateway.resumed.map Prod.fst ∧ n ∉ s.calls.map Prod.fst
  cancelling : ∀ n, s.cancelling = some n → (s.awaits n).done = true

theorem inv_start : Inv .start where
  nodup := .nil
  sent n hn := absurd hn List.not_mem_nil
  calls := List.suffix_rfl
  done n hn := by cases hn
  cancelling n hn := by cases hn

namespace Inv

theorem not_pending (h : Inv s) (hn : (s.awaits n).done = true) :
    n ∉ s.gateway.pending.map PendingHandler.request := by
  intro hpending
  exact (List.nodup_append.1 h.nodup).2.2 n hpending n (h.done n hn).1 rfl

theorem not_done_new (h : Inv s) : (s.awaits s.gateway.sent.length).done = false := by
  rw [Bool.eq_false_iff]
  intro hdone
  have hlt := h.sent _ (List.mem_append_right _ (h.done _ hdone).1)
  omega

/-- An awaiter's own step. -/
theorem setPc (h : Inv s) (n : Nat) (pc : Pc) : Inv (s.setPc n pc) := by
  refine ⟨h.nodup, h.sent, h.calls, fun m hm => ?_, fun m hm => ?_⟩
  · rw [System.setPc_done] at hm
    exact h.done m hm
  · rw [System.setPc_done]
    exact h.cancelling m hm

theorem send (h : Inv s) (now : Int) : Inv (s.sendRequest now) := by
  obtain ⟨hnodup, hsent, hcalls, hdone, hcan⟩ := h.setPc s.gateway.sent.length .aboutToWait
  have hnew : (s.gateway.sendRequest now).handled.Nodup ∧
      ∀ n ∈ (s.gateway.sendRequest now).handled, n < (s.gateway.sendRequest now).sent.length := by
    rw [Gateway.sent_sendRequest, List.length_append, List.length_singleton]
    rcases Gateway.handled_sendRequest s.gateway now with hh | hh
    · rw [hh]
      exact ⟨h.nodup, fun n hn => Nat.lt_succ_of_lt (h.sent n hn)⟩
    · refine ⟨hh.nodup_iff.2 (List.nodup_cons.2 ⟨fun hn => ?_, h.nodup⟩), fun n hn => ?_⟩
      · exact Nat.lt_irrefl _ (h.sent _ hn)
      · rcases List.mem_cons.1 (hh.mem_iff.1 hn) with rfl | hn
        · exact Nat.lt_succ_self _
        · exact Nat.lt_succ_of_lt (h.sent n hn)
  refine ⟨hnew.1, hnew.2, ?_, ?_, hcan⟩
  · show s.calls <:+ (s.gateway.sendRequest now).resumed
    rw [Gateway.resumed_sendRequest]
    exact hcalls
  · intro n hn
    show n ∈ (s.gateway.sendRequest now).resumed.map Prod.fst ∧ _
    rw [Gateway.resumed_sendRequest]
    exact hdone n hn

theorem task {g : Gateway} (h : Inv s) (hcancelling : s.cancelling = none) (hg : s.gateway.Settles g) :
    Inv { s with gateway := g, calls := g.resumed.drop s.gateway.resumed.length } := by
  have hnodup : g.handled.Nodup := hg.handled.nodup_iff.2 h.nodup
  obtain ⟨new, hnew⟩ := hg.resumed
  refine ⟨hnodup, ?_, List.drop_suffix _ _, ?_, ?_⟩
  · intro n hn
    show n < g.sent.length
    rw [hg.sent]
    exact h.sent n (hg.handled.mem_iff.1 hn)
  · intro n hn
    obtain ⟨hmem, -⟩ := h.done n hn
    dsimp only
    rw [← hnew, List.drop_left, List.map_append]
    refine ⟨List.mem_append_left _ hmem, fun hmem' => ?_⟩
    have hresumed := (List.nodup_append.1 hnodup).2.1
    rw [← hnew, List.map_append] at hresumed
    exact (List.nodup_append.1 hresumed).2.2 n hmem n hmem' rfl
  · intro n hn
    rw [hcancelling] at hn
    cases hn

theorem handler {obj : TdObject} {calls : List (Nat × TdObject)} (h : Inv s)
    (hcalls : s.calls = (n, obj) :: calls) : Inv ({ s with calls := calls }.handler n obj) := by
  have hsuffix := h.calls
  rw [hcalls] at hsuffix
  have hmem : (n, obj) ∈ s.gateway.resumed := hsuffix.subset List.mem_cons_self
  have hnodup : (((n, obj) :: calls).map Prod.fst).Nodup :=
    ((List.nodup_append.1 h.nodup).2.1).sublist (hsuffix.sublist.map _)
  refine ⟨h.nodup, h.sent, (List.suffix_cons _ _).trans hsuffix, ?_, ?_⟩
  · intro m hm
    by_cases hmn : m = n
    · rw [hmn]
      exact ⟨List.mem_map_of_mem hmem, (List.nodup_cons.1 hnodup).1⟩
    · have hm' : (s.awaits m).done = true := by
        simpa [System.handler, Function.update_of_ne hmn] using hm
      obtain ⟨hresumed, hcall⟩ := h.done m hm'
      rw [hcalls] at hcall
      exact ⟨hresumed, fun hc => hcall (List.mem_cons_of_mem _ hc)⟩
  · intro m hm
    cases hm
    simp [System.handler]

theorem step (h : Inv s) (hs : (machine ttl).step s e = some s') : Inv s' := by
  cases stepCase_of_step hs with
  | send now => exact h.send now
  | proceed n pc hpc => exact h.setPc n pc
  | interrupt n pc hpc => exact h.setPc n pc
  | task _ g hcalls hcancelling hg he => exact h.task hcancelling hg
  | handler n obj calls hcalls hcancelling => exact h.handler hcalls
  | cancel n hcancelling =>
    obtain ⟨hnodup, hsent, hcalls, hdone, -⟩ := h.setPc n (s.awaits n).pc.cancelled
    exact ⟨hnodup, hsent, hcalls, hdone, fun m hm => by cases hm⟩

end Inv

theorem inv_steps {P : System → Event → Prop} (h : (machine ttl).Steps P .start t s) : Inv s :=
  h.invariant inv_start fun _ _ _ _ hi hs => hi.step hs

/-! ### Lost cancels -/

/-- An awaiter whose handler has run, and which waits, has its cancel still to come. -/
def WakePending (s : System) : Prop :=
  ∀ n, (s.awaits n).done = true → (s.awaits n).pc.waits = true → s.cancelling = some n

theorem WakePending.setPc {pc : Pc} (h : WakePending s)
    (hpc : pc.waits = true → (s.awaits n).done = true → (s.awaits n).pc.waits = true) :
    WakePending (s.setPc n pc) := by
  intro m hdone hwaits
  rw [System.setPc_done] at hdone
  by_cases hm : m = n
  · subst hm
    rw [System.setPc_pc] at hwaits
    exact h m hdone (hpc hwaits hdone)
  · rw [System.setPc_pc_of_ne pc hm] at hwaits
    exact h m hdone hwaits

theorem WakePending.step (h : WakePending s) (hi : Inv s) (hp : CancelsWait s e)
    (hs : (machine ttl).step s e = some s') : WakePending s' := by
  cases stepCase_of_step hs with
  | send now =>
    refine WakePending.setPc (n := s.gateway.sent.length) h fun _ hdone => ?_
    rw [hi.not_done_new] at hdone
    cases hdone
  | proceed n pc hpc =>
    refine h.setPc fun hwaits _ => ?_
    cases hpc with
    | wait hpc => rw [hpc]; rfl
    | finish hpc => cases hwaits
  | interrupt n pc hpc =>
    refine h.setPc fun hwaits _ => ?_
    rw [hpc] at hwaits
    cases hwaits
  | task _ g hcalls hcancelling hg he => exact h
  | handler n obj calls hcalls hcancelling =>
    intro m hdone hwaits
    by_cases hm : m = n
    · rw [hm]
      rfl
    · simp only [System.handler, Function.update_of_ne hm] at hdone hwaits
      have hcan := h m hdone hwaits
      rw [hcancelling] at hcan
      cases hcan
  | cancel n hcancelling =>
    -- the awaiter is not about to wait, so if it was waiting it is awake now
    intro m hdone hwaits
    exfalso
    by_cases hm : m = n
    · subst hm
      have hpc : ((s.setPc m (s.awaits m).pc.cancelled).awaits m).pc.waits = false := by
        rw [System.setPc_pc]
        exact Pc.cancelled_waits (hp m hcancelling)
      exact Bool.false_ne_true (hpc.symm.trans hwaits)
    · have hcan := h m ((System.setPc_done s n _ m).symm.trans hdone)
        (by rw [← System.setPc_pc_of_ne (s.awaits n).pc.cancelled hm]; exact hwaits)
      rw [hcancelling] at hcan
      exact hm (Option.some.inj hcan).symm

theorem not_stranded (h : (machine ttl).Steps CancelsWait .start t s) (n : Nat) : ¬ Stranded s n := by
  have hboth : Inv s ∧ WakePending s :=
    h.invariant (I := fun s => Inv s ∧ WakePending s) ⟨inv_start, fun n hn => by cases hn⟩
      fun _ _ _ hp hi hs => ⟨hi.1.step hs, hi.2.step hi.1 hp hs⟩
  intro hstranded
  exact hstranded.noCancel (.inl (hboth.2 n hstranded.done hstranded.waits))

/-- A handler cancels a timer that its awaiter does not wait on yet. -/
theorem stranded_of_early_cancel (hi : Inv s) (hp : ¬ CancelsWait s e)
    (hs : (machine ttl).step s e = some s') : ∃ n, Stranded s' n := by
  cases stepCase_of_step hs with
  | cancel n hcancelling =>
    have hpc : (s.awaits n).pc = .aboutToWait := by
      by_contra hne
      refine hp fun m hm => ?_
      rw [hcancelling, Option.some.injEq] at hm
      rwa [← hm]
    have hdone := hi.cancelling n hcancelling
    refine ⟨n, (System.setPc_done s n _ n).trans hdone, ?_, ?_⟩
    · show ((s.setPc n (s.awaits n).pc.cancelled).awaits n).pc.waits = true
      rw [System.setPc_pc, hpc]
      rfl
    · rintro (hcan | hcall | hpending)
      · cases hcan
      · exact (hi.done n hdone).2 hcall
      · exact hi.not_pending hdone hpending
  | send | proceed | interrupt | handler => exact absurd trivial hp
  | task _ g hcalls hcancelling hg he =>
    cases e with
    | cancel => exact absurd rfl he.1
    | sendRequest | proceed | interrupt | handleEvent | evictStale | drain | handler =>
      exact absurd trivial hp

/-- No state on the way of the events `t` has a stranded awaiter. -/
def NeverStranded (ttl : Int) (t : List Event) : Prop :=
  ∀ t₁ s₁, t₁ <+: t → (machine ttl).Runs .start t₁ s₁ → ∀ n, ¬ Stranded s₁ n

/-- No awaiter is ever stranded exactly if every cancel comes when the wait has started. -/
theorem not_stranded_iff_waits (h : (machine ttl).Runs .start t s) :
    NeverStranded ttl t ↔ (machine ttl).Steps CancelsWait .start t s := by
  constructor
  · intro hnever
    rcases h.guarded_or_break CancelsWait with hP | ⟨t₁, e, t₂, s₁, s₂, rfl, h₁, hbad, hs, -⟩
    · exact hP
    · obtain ⟨n, hstranded⟩ := stranded_of_early_cancel (inv_steps h₁) hbad hs
      exact absurd hstranded (hnever (t₁ ++ [e]) s₂ ⟨t₂, by simp⟩ (.snoc h₁.runs trivial hs) n)
  · rintro hP t₁ s₁ ⟨t₂, rfl⟩ h₁ n
    exact not_stranded (hP.of_append h₁) n

/-- A stranded awaiter stays so until its caller is cancelled. -/
theorem Stranded.step (h : Stranded s n) (hi : Inv s) (hq : e ≠ .interrupt n)
    (hs : (machine ttl).step s e = some s') : Stranded s' n := by
  obtain ⟨hdone, hwaits, hno⟩ := h
  have hi' := hi.step hs
  -- who is stranded is done, so only a cancel under way could still come
  suffices hcore : (s'.awaits n).done = true ∧ (s'.awaits n).pc.waits = true ∧ s'.cancelling ≠ some n by
    refine ⟨hcore.1, hcore.2.1, ?_⟩
    rintro (hcan | hcall | hpending)
    · exact hcore.2.2 hcan
    · exact (hi'.done n hcore.1).2 hcall
    · exact hi'.not_pending hcore.1 hpending
  have hcan : s.cancelling ≠ some n := fun hc => hno (.inl hc)
  cases stepCase_of_step hs with
  | send now =>
    have hne : n ≠ s.gateway.sent.length := by
      rintro rfl
      rw [hi.not_done_new] at hdone
      cases hdone
    refine ⟨(System.setPc_done s _ _ n).trans hdone, ?_, hcan⟩
    show ((s.setPc _ .aboutToWait).awaits n).pc.waits = true
    rw [System.setPc_pc_of_ne _ hne]
    exact hwaits
  | proceed m pc hpc =>
    refine ⟨(System.setPc_done s _ _ n).trans hdone, ?_, hcan⟩
    by_cases hm : n = m
    · subst hm
      rw [System.setPc_pc]
      cases hpc with
      | wait => rfl
      | finish hpc =>
        rw [hpc] at hwaits
        cases hwaits
    · rw [System.setPc_pc_of_ne pc hm]
      exact hwaits
  | interrupt m pc hpc =>
    have hm : n ≠ m := fun hm => hq (by rw [hm])
    refine ⟨(System.setPc_done s _ _ n).trans hdone, ?_, hcan⟩
    rw [System.setPc_pc_of_ne pc hm]
    exact hwaits
  | task _ g hcalls hcancelling hg he => exact ⟨hdone, hwaits, hcan⟩
  | handler m obj calls hcalls hcancelling =>
    have hm : n ≠ m := by
      rintro rfl
      exact hno (.inr (.inl (by rw [hcalls]; exact List.mem_cons_self)))
    simp only [System.handler, Function.update_of_ne hm]
    exact ⟨hdone, hwaits, fun hc => hm (Option.some.inj hc).symm⟩
  | cancel m hcancelling =>
    have hm : n ≠ m := by
      rintro rfl
      exact hcan hcancelling
    refine ⟨(System.setPc_done s _ _ n).trans hdone, ?_, fun hc => by cases hc⟩
    show ((s.setPc m _).awaits n).pc.waits = true
    rw [System.setPc_pc_of_ne _ hm]
    exact hwaits

theorem Stranded.stays {t' : List Event} (h : Stranded s n) (hr : (machine ttl).Runs .start t s)
    (hr' : (machine ttl).Steps (fun _ e => e ≠ .interrupt n) s t' s') : Stranded s' n := by
  have hboth : Inv s' ∧ Stranded s' n :=
    hr'.invariant (I := fun s => Inv s ∧ Stranded s n) ⟨inv_steps hr, h⟩
      fun _ _ _ hq hi hs => ⟨hi.1.step hs, hi.2.step hi.1 hq hs⟩
  exact hboth.2

instance (s : System) (e : Event) : Decidable (CancelsWait s e) :=
  match e with
  | .cancel =>
    match h : s.cancelling with
    | none => isTrue fun n hn => by rw [h] at hn; cases hn
    | some n =>
      decidable_of_iff ((s.awaits n).pc ≠ .aboutToWait) (by
        simp only [CancelsWait, h, Option.some.injEq, forall_eq'])
  | .sendRequest _ | .proceed _ | .interrupt _ | .handleEvent _ _ | .evictStale _ | .drain
  | .handler => isTrue trivial

/-- Two requests, of which one is answered and the other one is swept, both while they wait. -/
def answersWhileWaiting : List Event :=
  [.sendRequest 0, .sendRequest 1, .proceed 0, .handleEvent 1000 (some .ok), .proceed 1, .handler,
    .cancel, .proceed 0, .evictStale 40, .handler, .cancel, .proceed 1]

theorem not_stranded_answersWhileWaiting : NeverStranded kDefaultRequestTtl answersWhileWaiting := by
  have hobs : ((machine kDefaultRequestTtl).runIf (fun s e => decide (CancelsWait s e)) .start
      answersWhileWaiting).map (fun s => ((s.awaits 0).pc, (s.awaits 1).pc)) =
        some (.returned (some .ok), .returned (some timedOut)) := by decide
  obtain ⟨s, hs, -⟩ := Machine.exists_steps hobs
  exact (not_stranded_iff_waits hs.runs).2 (hs.mono fun _ _ h => of_decide_eq_true h)

/-- The response comes before the wait. -/
def answerBeforeWait : List Event :=
  [.sendRequest 0, .handleEvent 1000 (some .ok), .handler, .cancel, .proceed 0]

theorem stranded_by_answer :
    ∃ s, (machine kDefaultRequestTtl).Runs .start answerBeforeWait s ∧ Stranded s 0 := by
  have hobs : ((machine kDefaultRequestTtl).run .start answerBeforeWait).map
      (fun s => (s.awaits 0, s.cancelling, s.calls, s.gateway.pending)) =
        some (⟨.waiting, some .ok, true⟩, none, [], []) := by decide
  obtain ⟨s, hs, ho⟩ := Machine.exists_runs hobs
  simp only [Prod.mk.injEq] at ho
  obtain ⟨ha, hcan, hcalls, hpending⟩ := ho
  refine ⟨s, hs, by rw [ha], by rw [ha]; rfl, ?_⟩
  rintro (h | h | h)
  · rw [hcan] at h
    cases h
  · rw [hcalls] at h
    cases h
  · rw [hpending] at h
    cases h

end AwaitSend

end Cmlb.Telegram
