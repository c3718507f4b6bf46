import Cmlb.Download.Aria2Calls

/-!
# The slots of the aria2 calls (`call` and `with_timeout`)

`with_timeout` races `call_with_correlation` against a timer. When the timer wins, the coroutine is
cancelled: the operation it is in ends, and its next `co_await` throws. In `send_text` that is caught,
and so the slot is erased; elsewhere the exception leaves `call_with_correlation` past its erases, and
the id stays in `pending_` for good. The `dump` of a request that is not UTF-8 throws past them as
well, and then the call returns when its timer expires.

`Aria2Socket` has this as one step of the call; here the coroutine goes on, cancelled, from where it
is. `slots_live_iff` says which steps leave a slot behind.
-/

namespace Cmlb.Aria2

namespace Timed

/-- The coroutine `call_with_correlation`; before its first `co_await` it is `entered`. -/
inductive Op
  | entered
  | running (pc : CallPc)
  | threw

/-- A call: the coroutine, and whether the timer has won. -/
structure Call where
  op : Op := .entered
  expired : Bool := false

/-- What the call has returned to its caller. The race goes on when the coroutine throws, until the
timer expires. -/
def Call.result (deadline : Nat) (c : Call) : Option (Result Json) :=
  match c.op, c.expired with
  | .running (.returned r), false => some r
  | .running (.returned _), true | .threw, true => some (.error (timedOut deadline))
  | _, _ => none

inductive Event
  | begin
  | step (e : CallEvent)
  | expire
deriving DecidableEq

section
variable (dumps : String → Bool) (deadline : Nat) (id : String) (sk : Socket)

/-- A step of the coroutine as in `callWithCorrelation`. -/
def resume (pc : CallPc) (e : CallEvent) : Option (Socket × Op) :=
  (callWithCorrelation deadline id sk pc e).map fun x => (x.1, .running x.2)

/-- A step of the coroutine that is not cancelled. -/
def proceed (op : Op) (e : CallEvent) : Option (Socket × Op) :=
  match op, e with
  | _, .timeout _ => none
  | .running .posted, .register =>
    if sk.connected && !dumps id then some (sk.setPending id (some {}), .threw)
    else resume deadline id sk .posted .register
  | .running pc, e => resume deadline id sk pc e
  | .entered, _ | .threw, _ => none

/-- A step of the cancelled coroutine: it goes on to its next `co_await`, which throws. -/
def unwind (op : Op) (e : CallEvent) : Option (Socket × Op) :=
  match op, e with
  | _, .timeout _ => none
  -- the `co_await` of `send_text`
  | .running .posted, .register =>
    if sk.connected then some (sk.setPending id (some {}), .threw)
    else resume deadline id sk .posted .register
  -- the `co_await` of the write, which `send_text` catches
  | .running .sending, .writeFailed what =>
    sk.stream.map fun _ => ((sk.failAllPending ⟨.network, what⟩).setPending id none,
      .running (.returned (.error ⟨.network, what⟩)))
  | .running .sending, .startWrite =>
    if sk.stream.isSome then none else resume deadline id sk .sending .startWrite
  -- the `co_await` of the wait
  | .running .written, .startWait => some (sk, .threw)
  -- the `co_await` of the last `post`; the wait has ended, be it by the cancellation
  | .running .waiting, .woken => some (sk, .threw)
  | .running pc, e => resume deadline id sk pc e
  | .entered, _ | .threw, _ => none

/-- One step of the call `id`. -/
def call (c : Call) : Event → Option (Socket × Call)
  | .begin =>
    match c.op with
    | .entered => some (sk, { c with op := if c.expired then .threw else .running .posted })
    | _ => none
  | .step e =>
    (if c.expired then unwind deadline id sk c.op e else proceed dumps deadline id sk c.op e).map
      fun x => (x.1, { c with op := x.2 })
  | .expire =>
    match c.op, c.expired with
    | .running (.returned _), _ | _, true => none
    | _, false => some (sk, { c with expired := true })

end

/-- The calls and the reader; `dumps` says whose request has a text. -/
def client (L : JsonLib) (dumps : String → Bool) (deadline : Nat) :
    Interleaving String Socket Call ReaderEvent Event where
  env sk e := sk.read L e
  act id sk c e := call dumps deadline id sk c e

def start : Sys String Socket Call := ⟨{}, fun _ => {}⟩

/-- Only calls that have not returned have a slot. -/
def SlotsLive (deadline : Nat) (s : Sys String Socket Call) : Prop :=
  ∀ id, (s.shared.pending id).isSome = true → (s.locals id).result deadline = none

/-- The call's step does not leave its slot behind: a cancelled call neither registers on a live
connection nor comes to its wait nor wakes from it, and no timer expires on a coroutine that has
thrown. -/
def Call.Clears (sk : Socket) (c : Call) : Event → Prop
  | .step .register => sk.connected = true → c.expired = false
  | .step .startWait | .step .woken => c.expired = false
  | .expire => c.op ≠ .threw
  | _ => True

def Clears (s : Sys String Socket Call) : SysEvent String ReaderEvent Event → Prop
  | .act id e => (s.locals id).Clears s.shared e
  | .env _ => True

/-! ### One step -/

/-- The coroutine is past its `emplace` and has still to erase its slot. -/
def Op.registered : Op → Bool
  | .running .sending | .running (.writing _) | .running .written | .running .waiting | .running .collecting => true
  | .entered | .running .posted | .running (.returned _) | .threw => false

/-- The call has a slot, and has not returned. -/
def Call.holds (c : Call) : Bool :=
  c.op.registered || (match c.op with | .threw => !c.expired | _ => false)

variable {L : JsonLib} {dumps : String → Bool} {deadline : Nat} {id : String} {sk sk' : Socket}
  {c c' : Call} {op op' : Op} {e : Event}

theorem result_of_holds (h : c.holds = true) : c.result deadline = none := by
  obtain ⟨op, expired⟩ := c
  cases op with
  | entered => rfl
  | running pc => cases pc <;> first | rfl | cases h
  | threw => cases expired <;> first | rfl | cases h

/-- What a step of the call does with its slot. -/
inductive SlotStep (id : String) (sk : Socket) (c : Call) (sk' : Socket) (c' : Call) : Prop
  | takes (hslot : (sk'.pending id).isSome = true) (hc' : c'.holds = true)
  | keeps (hslot : (sk'.pending id).isSome = (sk.pending id).isSome) (hc' : c'.holds = c.holds)
  | frees (hslot : (sk'.pending id).isSome = false) (hc' : c'.holds = false)

/-- The call is over, and its slot is there or was there when it made the step. -/
structure Leaves (deadline : Nat) (id : String) (sk : Socket) (c : Call) (sk' : Socket) (c' : Call) : Prop where
  result : c'.result deadline ≠ none
  slot : (sk'.pending id).isSome = true ∨ sk' = sk ∧ c.holds = true

theorem isSome_setPending (sk : Socket) (id : String) (p : Option PendingCall) :
    ((sk.setPending id p).pending id).isSome = p.isSome := by
  simp [Socket.setPending]

theorem isSome_failAllPending (sk : Socket) (err : AppError) (id : String) :
    ((sk.failAllPending err).pending id).isSome = (sk.pending id).isSome := by
  simp [Socket.failAllPending]

theorem resume_slot {pc : CallPc} {x : CallEvent} (expired : Bool) (hx : ∀ what, x ≠ .timeout what)
    (h : resume deadline id sk pc x = some (sk', op)) :
    SlotStep id sk ⟨.running pc, expired⟩ sk' ⟨op, expired⟩ := by
  obtain ⟨⟨sk₁, pc'⟩, hcall, hrest⟩ := Option.map_eq_some_iff.1 h
  cases hrest
  cases call_inv hcall with
  | register => exact .takes (isSome_setPending sk id _) rfl
  | refused | noStream | writeFailed | writeThrew | collect => exact .frees (isSome_setPending _ id _) rfl
  | startWrite | writeDone | woken => exact .keeps rfl rfl
  | startWait => exact .keeps ((isSome_setPending sk id _).trans (by simp)) rfl
  | aborted | timeout => exact absurd rfl (hx _)

theorem proceed_slot {x : CallEvent} (h : proceed dumps deadline id sk op x = some (sk', op')) :
    SlotStep id sk ⟨op, false⟩ sk' ⟨op', false⟩ := by
  unfold proceed at h
  split at h
  · cases h
  · split at h
    · cases h
      exact .takes (isSome_setPending sk id _) rfl
    · exact resume_slot _ (fun what h => by cases h) h
  · exact resume_slot _ ‹_› h
  all_goals cases h

/-- Of the steps that `unwind` shares with `callWithCorrelation`, none leaves the slot behind. -/
theorem resume_clears {pc : CallPc} {x : CallEvent} (hreg : pc = .posted → x ≠ .register)
    (hwait : pc = .written → x ≠ .startWait) (hwoken : pc = .waiting → x ≠ .woken)
    (h : resume deadline id sk pc x = some (sk', op)) : Call.Clears sk ⟨.running pc, true⟩ (.step x) := by
  obtain ⟨⟨sk₁, pc'⟩, hcall, -⟩ := Option.map_eq_some_iff.1 h
  cases call_inv hcall with
  | register | refused => exact absurd rfl (hreg rfl)
  | startWait => exact absurd rfl (hwait rfl)
  | woken => exact absurd rfl (hwoken rfl)
  | startWrite | noStream | writeDone | writeFailed | writeThrew | collect | aborted | timeout =>
    exact trivial

theorem unwind_slot {x : CallEvent} (h : unwind deadline id sk op x = some (sk', op')) :
    Call.Clears sk ⟨op, true⟩ (.step x) ∧ SlotStep id sk ⟨op, true⟩ sk' ⟨op', true⟩ ∨
    ¬ Call.Clears sk ⟨op, true⟩ (.step x) ∧ Leaves deadline id sk ⟨op, true⟩ sk' ⟨op', true⟩ := by
  unfold unwind at h
  split at h
  · cases h
  · split at h
    · rename_i hconn
      cases h
      exact .inr ⟨fun hc => absurd (hc hconn) (by simp), by simp [Call.result],
        .inl (isSome_setPending sk id _)⟩
    · rename_i hconn
      exact .inl ⟨fun hc => absurd hc hconn, resume_slot _ (fun what h => by cases h) h⟩
  · obtain ⟨n, -, hrest⟩ := Option.map_eq_some_iff.1 h
    cases hrest
    exact .inl ⟨trivial, .frees (isSome_setPending _ id _) rfl⟩
  · split at h
    · cases h
    · exact .inl ⟨trivial, resume_slot _ (fun what h => by cases h) h⟩
  · cases h
    exact .inr ⟨fun hc => (by cases hc), by simp [Call.result], .inr ⟨rfl, rfl⟩⟩
  · cases h
    exact .inr ⟨fun hc => (by cases hc), by simp [Call.result], .inr ⟨rfl, rfl⟩⟩
  · rename_i pc htimeout hreg _ _ hwait hwoken
    have hclears := resume_clears (fun hpc hx => hreg hx hpc) (fun hpc hx => hwait hx hpc)
      (fun hpc hx => hwoken hx hpc) h
    exact .inl ⟨hclears, resume_slot _ htimeout h⟩
  all_goals cases h

/-- A step of a call clears its slot in time, or else leaves it behind. -/
theorem call_slot (h : call dumps deadline id sk c e = some (sk', c')) :
    c.Clears sk e ∧ SlotStep id sk c sk' c' ∨ ¬ c.Clears sk e ∧ Leaves deadline id sk c sk' c' := by
  obtain ⟨op, expired⟩ := c
  cases e with
  | begin =>
    simp only [call] at h
    split at h <;> cases h
    exact .inl ⟨trivial, .keeps rfl (by cases expired <;> rfl)⟩
  | expire =>
    simp only [call] at h
    split at h <;> cases h
    cases op with
    | threw => exact .inr ⟨fun hne => hne rfl, by simp [Call.result], .inr ⟨rfl, rfl⟩⟩
    | entered => exact .inl ⟨fun h => (by cases h), .keeps rfl rfl⟩
    | running pc => exact .inl ⟨fun h => (by cases h), .keeps rfl (by simp [Call.holds])⟩
  | step x =>
    obtain ⟨⟨sk₁, op'⟩, hstep, hrest⟩ := Option.map_eq_some_iff.1 h
    cases hrest
    cases expired with
    | true => exact unwind_slot hstep
    | false =>
      have hclears : Call.Clears sk ⟨op, false⟩ (.step x) := by
        cases x <;> first | exact trivial | rfl | exact fun _ => rfl
      exact .inl ⟨hclears, proceed_slot hstep⟩

/-! ### The other calls and the reader -/

theorem isSome_setPending_of_ne {other : String} (hne : other ≠ id) (sk : Socket) (p : Option PendingCall) :
    ((sk.setPending id p).pending other).isSome = (sk.pending other).isSome := by
  simp [Socket.setPending, Function.update_of_ne hne]

theorem resume_other {other : String} {pc : CallPc} {x : CallEvent} (hne : other ≠ id)
    (h : resume deadline id sk pc x = some (sk', op)) :
    (sk'.pending other).isSome = (sk.pending other).isSome := by
  obtain ⟨⟨sk₁, pc'⟩, hcall, hrest⟩ := Option.map_eq_some_iff.1 h
  cases hrest
  cases call_inv hcall with
  | register | refused | noStream | writeThrew | startWait | collect =>
    exact isSome_setPending_of_ne hne sk _
  | startWrite | writeDone | woken | timeout => rfl
  | writeFailed | aborted =>
    exact (isSome_setPending_of_ne hne _ none).trans (isSome_failAllPending sk _ other)

theorem call_other {other : String} (hne : other ≠ id)
    (h : call dumps deadline id sk c e = some (sk', c')) :
    (sk'.pending other).isSome = (sk.pending other).isSome := by
  cases e with
  | begin =>
    simp only [call] at h
    split at h <;> cases h
    rfl
  | expire =>
    simp only [call] at h
    split at h <;> cases h
    rfl
  | step x =>
    obtain ⟨⟨sk₁, op'⟩, hstep, hrest⟩ := Option.map_eq_some_iff.1 h
    cases hrest
    split at hstep
    · unfold unwind at hstep
      split at hstep
      · cases hstep
      · split at hstep
        · cases hstep
          exact isSome_setPending_of_ne hne sk _
        · exact resume_other hne hstep
      · obtain ⟨n, -, hrest⟩ := Option.map_eq_some_iff.1 hstep
        cases hrest
        exact (isSome_setPending_of_ne hne _ none).trans (isSome_failAllPending sk _ other)
      · split at hstep
        · cases hstep
        · exact resume_other hne hstep
      · cases hstep
        rfl
      · cases hstep
        rfl
      · exact resume_other hne hstep
      all_goals cases hstep
    · unfold proceed at hstep
      split at hstep
      · cases hstep
      · split at hstep
        · cases hstep
          exact isSome_setPending_of_ne hne sk _
        · exact resume_other hne hstep
      · exact resume_other hne hstep
      all_goals cases hstep

theorem handleMessage_slots {text : String} (h : handleMessage L sk text = .ok sk') (id : String) :
    (sk'.pending id).isSome = (sk.pending id).isSome := by
  rcases handleMessage_eq_ok h with rfl | ⟨doc, id', p, p', -, hp, -, rfl⟩
  · rfl
  · by_cases hid : id = id'
    · subst hid
      rw [isSome_setPending, hp]
      rfl
    · exact isSome_setPending_of_ne hid sk _

theorem read_slots {x : ReaderEvent} (h : sk.read L x = some sk') (id : String) :
    (sk'.pending id).isSome = (sk.pending id).isSome := by
  cases x with
  | message text =>
    obtain ⟨-, hok | ⟨-, rfl⟩⟩ := read_message h
    · exact handleMessage_slots hok id
    · exact isSome_failAllPending sk _ id
  | disconnected =>
    cases hr : sk.reader <;> simp only [Socket.read, hr] at h <;> cases h
    exact isSome_failAllPending sk _ id
  | _ =>
    cases hr : sk.reader <;> simp only [Socket.read, hr] at h <;> cases h
    all_goals rfl

/-! ### Runs -/

variable {s s' : Sys String Socket Call} {x : SysEvent String ReaderEvent Event}
  {t : List (SysEvent String ReaderEvent Event)}

/-- Every call has the slot that its coroutine counts on. -/
def Backed (s : Sys String Socket Call) : Prop :=
  ∀ id, (s.locals id).holds = true → (s.shared.pending id).isSome = true

/-- Nobody else has a slot. -/
def Tidy (s : Sys String Socket Call) : Prop :=
  ∀ id, (s.shared.pending id).isSome = true → (s.locals id).holds = true

theorem Tidy.slotsLive (h : Tidy s) : SlotsLive deadline s :=
  fun id hid => result_of_holds (h id hid)

/-- What a step of the system does for the call `id`. -/
theorem step_slot (h : (client L dumps deadline).machine.step s x = some s') (id : String) :
    (s'.locals id = s.locals id ∧
      (s'.shared.pending id).isSome = (s.shared.pending id).isSome) ∨
    ∃ e, x = .act id e ∧ call dumps deadline id s.shared (s.locals id) e = some (s'.shared, s'.locals id) := by
  rcases Interleaving.step_inv h with ⟨y, rfl, hy, hl⟩ | ⟨id', e, c, rfl, he, hl⟩
  · exact .inl ⟨by rw [hl], read_slots hy id⟩
  · by_cases hid : id = id'
    · subst hid
      refine .inr ⟨e, rfl, ?_⟩
      rw [hl, Function.update_self]
      exact he
    · refine .inl ⟨?_, call_other hid he⟩
      rw [hl, Function.update_of_ne hid]

theorem Backed.step (hs : Backed s) (h : (client L dumps deadline).machine.step s x = some s') :
    Backed s' := by
  intro id hid
  rcases step_slot h id with ⟨hl, hslot⟩ | ⟨e, -, hcall⟩
  · rw [hslot]
    exact hs id (hl ▸ hid)
  · rcases call_slot hcall with ⟨-, hstep⟩ | ⟨-, hleaves⟩
    · cases hstep with
      | takes hslot => exact hslot
      | keeps hslot hc' =>
        rw [hslot]
        exact hs id (hc' ▸ hid)
      | frees _ hc' =>
        rw [hc'] at hid
        cases hid
    · -- a call that is over holds nothing
      exact absurd (result_of_holds hid) hleaves.result

theorem Tidy.step (hs : Tidy s) (hp : Clears s x)
    (h : (client L dumps deadline).machine.step s x = some s') : Tidy s' := by
  intro id hid
  rcases step_slot h id with ⟨hl, hslot⟩ | ⟨e, rfl, hcall⟩
  · rw [hl]
    exact hs id (hslot ▸ hid)
  · rcases call_slot hcall with ⟨-, hstep⟩ | ⟨hbad, -⟩
    · cases hstep with
      | takes _ hc' => exact hc'
      | keeps hslot hc' =>
        rw [hc']
        exact hs id (hslot ▸ hid)
      | frees hslot =>
        rw [hslot] at hid
        cases hid
    · exact absurd hp hbad

theorem not_slotsLive_of_leaves (hs : Backed s) (hp : ¬ Clears s x)
    (h : (client L dumps deadline).machine.step s x = some s') : ¬ SlotsLive deadline s' := by
  intro hlive
  cases x with
  | env y => exact hp trivial
  | act id e =>
    obtain ⟨⟨sk, c⟩, hcall, rfl⟩ := Option.map_eq_some_iff.1 h
    rcases call_slot hcall with ⟨hok, -⟩ | ⟨-, hresult, hslot⟩
    · exact hp hok
    · have hthere : (sk.pending id).isSome = true := by
        rcases hslot with hslot | ⟨hsk, hholds⟩
        · exact hslot
        · rw [hsk]
          exact hs id hholds
      have hnone : ((Function.update s.locals id c) id).result deadline = none := hlive id hthere
      rw [Function.update_self] at hnone
      exact hresult hnone

theorem backed_start : Backed start := fun id h => by cases h

theorem tidy_start : Tidy start := fun id h => by cases h

/-- In every state on the way of `t` only calls that have not returned have a slot. -/
def NeverLeaks (L : JsonLib) (dumps : String → Bool) (deadline : Nat)
    (t : List (SysEvent String ReaderEvent Event)) : Prop :=
  ∀ t₁ s₁, t₁ <+: t → (client L dumps deadline).machine.Runs start t₁ s₁ → SlotsLive deadline s₁

/-- `pending_` never has the id of a call that has returned exactly if no cancelled call registers on a
live connection, comes to its wait or wakes from it, and no timer expires on a call whose coroutine has
thrown. -/
theorem slots_live_iff (h : (client L dumps deadline).machine.Runs start t s) :
    NeverLeaks L dumps deadline t ↔ (client L dumps deadline).machine.Steps Clears start t s := by
  constructor
  · intro hnever
    rcases h.guarded_or_break Clears with hP | ⟨t₁, x, t₂, s₁, s₂, rfl, h₁, hbad, hs, -⟩
    · exact hP
    · have hbacked : Backed s₁ := h₁.invariant backed_start fun _ _ _ _ hi hs => hi.step hs
      have hlive := hnever (t₁ ++ [x]) s₂ ⟨t₂, by simp⟩ (.snoc h₁.runs trivial hs)
      exact absurd hlive (not_slotsLive_of_leaves hbacked hbad hs)
  · rintro hP t₁ s₁ ⟨t₂, rfl⟩ h₁
    have htidy : Tidy s₁ := (hP.of_append h₁).invariant tidy_start fun _ _ _ hp hi hs => hi.step hp hs
    exact htidy.slotsLive

/-- The client connects, and the call `a` gets as far as its write. -/
def startCall : List (SysEvent String ReaderEvent Event) :=
  [.env .resolved, .env .handshaken, .act "a" .begin, .act "a" (.step .register),
    .act "a" (.step .startWrite)]

/-- The call's timer expires during its write, which then fails. -/
def expiresWriting : List (SysEvent String ReaderEvent Event) :=
  startCall ++ [.act "a" .expire, .act "a" (.step (.writeFailed "Operation canceled"))]

def resultIn (deadline : Nat) (id : String) (s : Sys String Socket Call) : Option ErrorCode :=
  match (s.locals id).result deadline with
  | some (.error err) => some err.code
  | _ => none

instance (sk : Socket) (c : Call) (e : Event) : Decidable (c.Clears sk e) :=
  match e with
  | .step .register => inferInstanceAs (Decidable (sk.connected = true → c.expired = false))
  | .step .startWait | .step .woken => inferInstanceAs (Decidable (c.expired = false))
  | .expire =>
    match h : c.op with
    | .threw => isFalse fun hne => hne h
    | .entered | .running _ => isTrue fun hop => by rw [h] at hop; cases hop
  | .begin | .step .startWrite | .step .writeDone | .step (.writeFailed _) | .step (.writeThrew _)
  | .step .collect | .step (.timeout _) => isTrue trivial

instance (s : Sys String Socket Call) (x : SysEvent String ReaderEvent Event) : Decidable (Clears s x) :=
  match x with
  | .act id e => inferInstanceAs (Decidable ((s.locals id).Clears s.shared e))
  | .env _ => isTrue trivial

set_option maxRecDepth 4000 in
theorem slots_live_expiresWriting : NeverLeaks errorLib (fun _ => true) 30000 expiresWriting := by
  have hobs : ((client errorLib (fun _ => true) 30000).machine.runIf (fun s x => decide (Clears s x))
      start expiresWriting).map (resultIn 30000 "a") = some (some .timeout) := by decide
  obtain ⟨s, hs, -⟩ := Machine.exists_steps hobs
  exact (slots_live_iff hs.runs).2 (hs.mono fun _ _ h => of_decide_eq_true h)

/-- The call's timer expires during its wait. -/
def expiresWaiting : List (SysEvent String ReaderEvent Event) :=
  startCall ++ [.act "a" (.step .writeDone), .act "a" (.step .startWait), .act "a" .expire,
    .act "a" (.step .woken)]

set_option maxRecDepth 4000 in
theorem slot_left_by_timeout : ∃ s, (client errorLib (fun _ => true) 30000).machine.Runs start
    expiresWaiting s ∧ ¬ SlotsLive 30000 s := by
  have hobs : ((client errorLib (fun _ => true) 30000).machine.run start expiresWaiting).map
      (fun s => (resultIn 30000 "a" s, (s.shared.pending "a").isSome)) = some (some .timeout, true) := by
    decide
  obtain ⟨s, hs, ho⟩ := Machine.exists_runs hobs
  simp only [Prod.mk.injEq] at ho
  refine ⟨s, hs, fun hlive => ?_⟩
  have hnone := hlive "a" ho.2
  simp [resultIn, hnone] at ho

end Timed

end Cmlb.Aria2
