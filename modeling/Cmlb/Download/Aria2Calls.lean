import Cmlb.Download.Aria2Socket

/-!
# Concurrent aria2 calls

Two properties of `call_with_correlation` over all interleavings of the calls and the reader. Neither
holds without a condition: the strand serializes the steps of the calls and not the calls, and a call
registers its slot long before it starts to wait on it.

`writes_serialized`: one write at a time, on a stream that stays, when no call registers and no read
loop ends while some call is inside `send_text`. `response_returned`: a call returns the answer that
came for it, when it came during the call's wait and nothing overtakes it until the call has collected
it.
-/

namespace Cmlb.Aria2

variable {L : JsonLib} {deadline : Nat} {id : String} {sk sk' : Socket} {pc pc' : CallPc} {e : CallEvent}

/-- What a strand step of the call `id` can do. -/
inductive CallStep (deadline : Nat) (id : String) (sk : Socket) :
    CallPc → CallEvent → Socket → CallPc → Prop
  | register (h : sk.connected = true) :
      CallStep deadline id sk .posted .register (sk.setPending id (some {})) .sending
  | refused (err : AppError) :
      CallStep deadline id sk .posted .register (sk.setPending id none) (.returned (.error err))
  | startWrite {n : Nat} (h : sk.stream = some n) :
      CallStep deadline id sk .sending .startWrite sk (.writing n)
  | noStream (err : AppError) :
      CallStep deadline id sk .sending .startWrite (sk.setPending id none) (.returned (.error err))
  | writeDone (n : Nat) : CallStep deadline id sk (.writing n) .writeDone sk .written
  | writeFailed (n : Nat) (what : String) (err : AppError) :
      CallStep deadline id sk (.writing n) (.writeFailed what)
        ((sk.failAllPending err).setPending id none) (.returned (.error err))
  | writeThrew (n : Nat) (what : String) (err : AppError) :
      CallStep deadline id sk (.writing n) (.writeThrew what) (sk.setPending id none)
        (.returned (.error err))
  | startWait : CallStep deadline id sk .written .startWait
      (sk.setPending id ((sk.pending id).map fun p => { p with wake := .outstanding })) .waiting
  | woken {p : PendingCall} (hp : sk.pending id = some p) (hw : p.wake = .completed) :
      CallStep deadline id sk .waiting .woken sk .collecting
  | collect {p : PendingCall} (hp : sk.pending id = some p) :
      CallStep deadline id sk .collecting .collect (sk.setPending id none) (.returned p.collect)
  | aborted {pc : CallPc} (hpc : pc.inSend = true) (what : String) (err : AppError) :
      CallStep deadline id sk pc (.timeout what) ((sk.failAllPending err).setPending id none)
        (.returned (.error (timedOut deadline)))
  | timeout {pc : CallPc} (hpc : pc.inSend = false) (hret : ∀ r, pc ≠ .returned r) (what : String) :
      CallStep deadline id sk pc (.timeout what) sk (.returned (.error (timedOut deadline)))

theorem call_inv (h : callWithCorrelation deadline id sk pc e = some (sk', pc')) :
    CallStep deadline id sk pc e sk' pc' := by
  unfold callWithCorrelation at h
  split at h
  · split at h <;> cases h
    · exact .register ‹_›
    · exact .refused _
  · split at h <;> cases h
    · exact .startWrite ‹_›
    · exact .noStream _
  · cases h
    exact .writeDone _
  · cases h
    exact .writeFailed _ _ _
  · cases h
    exact .writeThrew _ _ _
  · cases h
    exact .startWait
  · split at h
    · split at h <;> cases h
      exact .woken ‹_› ‹_›
    · cases h
  · split at h <;> cases h
    exact .collect ‹_›
  · cases h
  · cases h
    exact .aborted rfl _ _
  · cases h
    exact .aborted rfl _ _
  · rename_i hret hsend hwrite
    cases h
    refine .timeout ?_ hret _
    cases pc with
    | sending => exact (hsend rfl).elim
    | writing n => exact (hwrite n rfl).elim
    | _ => rfl
  · cases h

/-- A call touches the pending calls only. -/
theorem CallStep.link (h : CallStep deadline id sk pc e sk' pc') :
    sk'.reader = sk.reader ∧ sk'.connected = sk.connected ∧ sk'.stream = sk.stream := by
  cases h <;> exact ⟨rfl, rfl, rfl⟩

/-- A call that has returned makes no step. -/
theorem CallStep.not_returned (h : CallStep deadline id sk pc e sk' pc') (r : Result Json) :
    pc ≠ .returned r := by
  rintro rfl
  cases h with
  | timeout _ hret => exact hret r rfl
  | aborted hpc => cases hpc

/-! ### One write at a time -/

/-- The read loop ends at this event. -/
def endsReading (L : JsonLib) (sk : Socket) : ReaderEvent → Bool
  | .disconnected => true
  | .message text => breaksReader L sk text
  | _ => false

/-- No call is inside `send_text` when another one registers or the read loop ends. -/
def Exclusive (L : JsonLib) (s : Sys String Socket CallPc) : SysEvent String ReaderEvent CallEvent → Prop
  | .act _ .register => ∀ id, (s.locals id).inSend = false
  | .env e => endsReading L s.shared e = true → ∀ id, (s.locals id).inSend = false
  | _ => True

/-- At most one write is outstanding, and its stream is the one the client holds. -/
structure Serialized (s : Sys String Socket CallPc) : Prop where
  one : ∀ id id' m n, s.locals id = .writing m → s.locals id' = .writing n → id = id'
  current : ∀ id n, s.locals id = .writing n → s.shared.stream = some n

structure Exclusion (s : Sys String Socket CallPc) : Prop where
  one : ∀ id id', (s.locals id).inSend = true → (s.locals id').inSend = true → id = id'
  current : ∀ id n, s.locals id = .writing n → s.shared.stream = some n
  -- Off the read loop the client is not connected, so that no call gets into `send_text`
  offline : s.shared.reader ≠ .reading →
    s.shared.connected = false ∧ ∀ id, (s.locals id).inSend = false

variable {s s' : Sys String Socket CallPc} {t : List (SysEvent String ReaderEvent CallEvent)}

theorem Exclusion.serialized (h : Exclusion s) : Serialized s where
  one id id' m n hm hn := h.one id id' (by rw [hm]; rfl) (by rw [hn]; rfl)
  current := h.current

/-- The reader reads on or has just connected, or it was and is off the read loop, or it ends it. -/
theorem read_cases {e : ReaderEvent} (h : sk.read L e = some sk') :
    (sk'.reader = .reading ∧ sk'.stream = sk.stream) ∨
    (sk.reader ≠ .reading ∧ sk'.reader ≠ .reading ∧ (sk.connected = false → sk'.connected = false)) ∨
    (endsReading L sk e = true ∧ sk'.reader ≠ .reading ∧ sk'.connected = false) := by
  cases e with
  | message text =>
    obtain ⟨hr, hok | ⟨hthrew, rfl⟩⟩ := read_message h
    · have hconf := handleMessage_confined hr hok
      exact .inl ⟨hconf.reader, hconf.stream⟩
    · exact .inr (.inr ⟨handleMessage_threw_iff.1 hthrew, (fun hr => by cases hr), rfl⟩)
  | disconnected =>
    cases hr : sk.reader <;> simp only [Socket.read, hr] at h <;> cases h
    exact .inr (.inr ⟨rfl, (fun hr => by cases hr), rfl⟩)
  | handshaken =>
    cases hr : sk.reader <;> simp only [Socket.read, hr] at h <;> cases h
    exact .inl ⟨rfl, rfl⟩
  | _ =>
    cases hr : sk.reader <;> simp only [Socket.read, hr] at h <;> cases h
    all_goals
      refine .inr (.inl ⟨by simp, (fun hr => by cases hr), fun hc => ?_⟩)
      first | exact hc | rfl

theorem Exclusion.read (h : Exclusion s) {e : ReaderEvent} (hp : Exclusive L s (.env e))
    (hs : s.shared.read L e = some s'.shared) (hl : s'.locals = s.locals) : Exclusion s' := by
  have hquiet : (∀ id, (s.locals id).inSend = false) → ∀ id n, s'.locals id ≠ .writing n := by
    intro hno id n hw
    have hsend := hno id
    rw [← hl, hw] at hsend
    cases hsend
  rcases read_cases hs with ⟨hr, hstream⟩ | ⟨hr, hr', hconn⟩ | ⟨hends, hr', hconn⟩
  · refine ⟨by rw [hl]; exact h.one, fun id n hw => ?_, fun hr' => absurd hr hr'⟩
    rw [hstream]
    exact h.current id n (hl ▸ hw)
  · obtain ⟨hoff, hno⟩ := h.offline hr
    exact ⟨by rw [hl]; exact h.one, fun id n hw => absurd hw (hquiet hno id n),
      fun _ => ⟨hconn hoff, by rw [hl]; exact hno⟩⟩
  · have hno := hp hends
    exact ⟨by rw [hl]; exact h.one, fun id n hw => absurd hw (hquiet hno id n),
      fun _ => ⟨hconn, by rw [hl]; exact hno⟩⟩

/-- A call gets into `send_text` only when it registers on a live connection, and from there to a
write on the current stream. -/
theorem CallStep.inSend (h : CallStep deadline id sk pc e sk' pc') (hin : pc'.inSend = true) :
    (pc = .posted ∧ e = .register ∧ sk.connected = true ∧ pc' = .sending) ∨
      pc.inSend = true ∧ ∃ n, pc' = .writing n ∧ sk.stream = some n := by
  cases h with
  | register hconn => exact .inl ⟨rfl, rfl, hconn, rfl⟩
  | startWrite hn => exact .inr ⟨rfl, _, rfl, hn⟩
  | _ => cases hin

theorem Exclusion.call (h : Exclusion s) (hp : Exclusive L s (.act id e))
    (hs : CallStep deadline id s.shared (s.locals id) e s'.shared pc')
    (hl : s'.locals = Function.update s.locals id pc') : Exclusion s' := by
  obtain ⟨hr, hconn, hstream⟩ := hs.link
  have hself : s'.locals id = pc' := by rw [hl, Function.update_self]
  have hother : ∀ id', id' ≠ id → s'.locals id' = s.locals id' := fun id' hne => by
    rw [hl, Function.update_of_ne hne]
  -- whoever is inside `send_text` afterwards, was there before or has just registered
  have hback : ∀ id', (s'.locals id').inSend = true → (s.locals id').inSend = true ∨
      id' = id ∧ s.shared.connected = true ∧ ∀ id, (s.locals id).inSend = false := by
    intro id' hin
    by_cases hne : id' = id
    · subst hne
      rw [hself] at hin
      rcases hs.inSend hin with ⟨-, rfl, hc, -⟩ | ⟨hin', -⟩
      · exact .inr ⟨rfl, hc, hp⟩
      · exact .inl hin'
    · rw [hother id' hne] at hin
      exact .inl hin
  refine ⟨fun a b ha hb => ?_, fun a n ha => ?_, fun hr' => ?_⟩
  · rcases hback a ha with ha' | ⟨rfl, -, hno⟩
    · rcases hback b hb with hb' | ⟨rfl, -, hno⟩
      · exact h.one a b ha' hb'
      · rw [hno a] at ha'
        cases ha'
    · rcases hback b hb with hb' | ⟨rfl, -, -⟩
      · rw [hno b] at hb'
        cases hb'
      · rfl
  · rw [hstream]
    by_cases hne : a = id
    · subst hne
      rw [hself] at ha
      subst ha
      rcases hs.inSend rfl with ⟨-, -, -, hpc⟩ | ⟨-, m, hpc, hm⟩
      · cases hpc
      · cases hpc
        exact hm
    · rw [hother a hne] at ha
      exact h.current a n ha
  · rw [hr] at hr'
    obtain ⟨hoff, hno⟩ := h.offline hr'
    refine ⟨hconn.trans hoff, fun a => Bool.eq_false_iff.2 fun ha => ?_⟩
    rcases hback a ha with ha' | ⟨-, hc, -⟩
    · rw [hno a] at ha'
      cases ha'
    · rw [hoff] at hc
      cases hc

theorem exclusion_start : Exclusion start where
  one id id' h := by cases h
  current id n h := by cases h
  offline _ := ⟨rfl, fun _ => rfl⟩

/-- When no call registers and no read loop ends while a call is inside `send_text`, at most one write
is outstanding at a time, and never on a stream that was reset or replaced. -/
theorem writes_serialized (L : JsonLib) (deadline : Nat)
    {t : List (SysEvent String ReaderEvent CallEvent)} {s : Sys String Socket CallPc}
    (h : (socket L deadline).machine.Steps (Exclusive L) start t s) : Serialized s := by
  have hex : Exclusion s := by
    refine h.invariant exclusion_start ?_
    intro s e s' hp hs hstep
    rcases Interleaving.step_inv hstep with ⟨x, rfl, hx, hl⟩ | ⟨id, x, pc, rfl, hx, hl⟩
    · exact hs.read hp hx hl
    · exact hs.call hp (call_inv hx) hl
  exact hex.serialized

/-- The client connects, and the calls in `ids` get as far as their write. -/
def startWrites (ids : List String) : List (SysEvent String ReaderEvent CallEvent) :=
  [.env .resolved, .env .handshaken] ++ ids.map (.act · .register) ++ ids.map (.act · .startWrite)

def writesOn : CallPc → Option Nat
  | .writing n => some n
  | _ => none

theorem eq_of_writesOn {n : Nat} (h : writesOn pc = some n) : pc = .writing n := by
  unfold writesOn at h
  split at h <;> cases h
  rfl

/-- The call `id` goes through `send_text`. -/
def sendsText (id : String) : List (SysEvent String ReaderEvent CallEvent) :=
  [.act id .register, .act id .startWrite, .act id .writeDone]

/-- `b` registers once the write of `a` is done. -/
def writesInTurn : List (SysEvent String ReaderEvent CallEvent) :=
  [.env .resolved, .env .handshaken] ++ sendsText "a" ++ [.act "b" .register, .act "b" .startWrite]

theorem writes_serialized_in_turn : ∃ s, (socket errorLib 30000).machine.Steps (Exclusive errorLib) start
    writesInTurn s ∧ s.locals "a" = .written ∧ s.locals "b" = .writing 0 ∧ Serialized s := by
  have hrun : ∃ s, (socket errorLib 30000).machine.Steps (Exclusive errorLib) start writesInTurn s ∧
      s.locals "a" = .written ∧ s.locals "b" = .writing 0 := by
    refine ⟨_, .cons (fun h => by cases h) rfl (.cons (fun h => by cases h) rfl
      (.cons (fun _ => rfl) rfl (.cons trivial rfl (.cons trivial rfl
      (.cons (fun id => ?_) rfl (.cons trivial rfl (.nil _))))))), rfl, rfl⟩
    by_cases hid : id = "a"
    · subst hid
      rfl
    · simp only [Function.update_of_ne hid]
      rfl
  obtain ⟨s, hs, ha, hb⟩ := hrun
  exact ⟨s, hs, ha, hb, writes_serialized errorLib 30000 hs⟩

set_option maxRecDepth 4000 in
/-- Two calls write at once; and the read loop drops a stream that a call is writing on. -/
theorem writes_overlap :
    (¬ ∀ (L : JsonLib) (deadline : Nat) (t : List (SysEvent String ReaderEvent CallEvent))
      (s : Sys String Socket CallPc), (socket L deadline).machine.Runs start t s → Serialized s) ∧
    ¬ ∀ (L : JsonLib) (deadline : Nat) (t : List (SysEvent String ReaderEvent CallEvent))
      (s : Sys String Socket CallPc), (socket L deadline).machine.Runs start t s →
        ∀ id n, s.locals id = .writing n → s.shared.stream = some n := by
  constructor
  · intro hall
    have hobs : ((socket errorLib 30000).machine.run start (startWrites ["a", "b"])).map
        (fun s => (writesOn (s.locals "a"), writesOn (s.locals "b"))) = some (some 0, some 0) := by
      decide
    obtain ⟨s, hs, ho⟩ := Machine.exists_runs hobs
    simp only [Prod.mk.injEq] at ho
    have hab := (hall errorLib 30000 _ s hs).one "a" "b" 0 0 (eq_of_writesOn ho.1) (eq_of_writesOn ho.2)
    revert hab
    decide
  · intro hall
    have hobs : ((socket errorLib 30000).machine.run start
        (startWrites ["a"] ++ [.env .disconnected])).map
        (fun s => (writesOn (s.locals "a"), s.shared.stream)) = some (some 0, none) := by
      decide
    obtain ⟨s, hs, ho⟩ := Machine.exists_runs hobs
    simp only [Prod.mk.injEq] at ho
    have hcur := hall errorLib 30000 _ s hs "a" 0 (eq_of_writesOn ho.1)
    rw [ho.2] at hcur
    cases hcur

/-! ### No lost response -/

/-- What the message says to the call `id`: its result, or its error. -/
def reply (L : JsonLib) (text id : String) : Option (Result Json) :=
  match L.parse text with
  | .error _ => none
  | .ok doc =>
    if doc.stringMember "id" = some id then ((answer L doc {}).map PendingCall.collect).toOption
    else none

/-- A call at `pc` runs `fail_all_pending` at this event. -/
def CallEvent.failsAll (pc : CallPc) : CallEvent → Bool
  | .writeFailed _ => true
  | .timeout _ => pc.inSend
  | _ => false

/-- `fail_all_pending` runs at this event. -/
def failsAll (L : JsonLib) (s : Sys String Socket CallPc) : SysEvent String ReaderEvent CallEvent → Bool
  | .env e => endsReading L s.shared e
  | .act id e => e.failsAll (s.locals id)

/-- Nothing overtakes the answer `r` of the call `id`: not the call's timeout, no second message for
it, and, if the answer is an error, not the error of `fail_all_pending`. -/
def Undisturbed (L : JsonLib) (id : String) (r : Result Json) (s : Sys String Socket CallPc)
    (e : SysEvent String ReaderEvent CallEvent) : Prop :=
  (∀ r', s.locals id ≠ .returned r') →
    (∀ what, e ≠ .act id (.timeout what)) ∧
    (∀ text, e = .env (.message text) → messageId L text ≠ some id) ∧
    (failsAll L s e = true → ∃ j, r = .ok j)

/-- The slot holds the answer `r`, and the wait of its call is over. -/
def Holds (sk : Socket) (id : String) (r : Result Json) : Prop :=
  ∃ p, sk.pending id = some p ∧ p.wake = .completed ∧ p.collect = r

/-- The call `id` has returned `r` or is about to. -/
def Settled (id : String) (r : Result Json) (s : Sys String Socket CallPc) : Prop :=
  s.locals id = .returned r ∨
    (s.locals id = .waiting ∨ s.locals id = .collecting) ∧ Holds s.shared id r

variable {r : Result Json}

theorem Holds.congr (h : Holds sk id r) (hp : sk'.pending id = sk.pending id) : Holds sk' id r := by
  obtain ⟨p, hpend, hw, hc⟩ := h
  exact ⟨p, hp.trans hpend, hw, hc⟩

/-- A result outlives `fail_all_pending`. -/
theorem Holds.failAll (h : Holds sk id r) (hr : ∃ j, r = .ok j) (err : AppError) :
    Holds (sk.failAllPending err) id r := by
  obtain ⟨p, hpend, hw, hc⟩ := h
  obtain ⟨j, rfl⟩ := hr
  have hresp : p.response = some j := by
    unfold PendingCall.collect at hc
    split at hc <;> cases hc
    assumption
  refine ⟨p.fail err, by simp [Socket.failAllPending, hpend], ?_, ?_⟩
  · simp [PendingCall.fail, PendingCall.cancelWake, hw]
  · simp [PendingCall.fail, PendingCall.cancelWake, hw, PendingCall.collect, hresp]

theorem Holds.read (h : Holds sk id r) {e : ReaderEvent} (hs : sk.read L e = some sk')
    (hmsg : ∀ text, e = .message text → messageId L text ≠ some id)
    (hfail : endsReading L sk e = true → ∃ j, r = .ok j) : Holds sk' id r := by
  have hleave : endsReading L sk e = true → Holds sk.leaveReading id r :=
    fun hends => (h.failAll (hfail hends) _).congr rfl
  cases e with
  | message text =>
    obtain ⟨hr, hok | ⟨hthrew, rfl⟩⟩ := read_message hs
    · exact h.congr ((handleMessage_confined hr hok).pending id (hmsg text rfl))
    · exact hleave (handleMessage_threw_iff.1 hthrew)
  | disconnected =>
    cases hr : sk.reader <;> simp only [Socket.read, hr] at hs <;> cases hs
    exact hleave rfl
  | _ =>
    cases hr : sk.reader <;> simp only [Socket.read, hr] at hs <;> cases hs
    all_goals exact h.congr rfl

/-- A step of another call. -/
theorem Holds.other (h : Holds sk id r) {id' : String} (hne : id ≠ id')
    (hs : CallStep deadline id' sk pc e sk' pc') (hfail : e.failsAll pc = true → ∃ j, r = .ok j) :
    Holds sk' id r := by
  have hkeep : ∀ {sk₁ : Socket} (x : Option PendingCall), Holds sk₁ id r →
      Holds (sk₁.setPending id' x) id r :=
    fun x h₁ => h₁.congr (Function.update_of_ne hne _ _)
  cases hs with
  | register | refused | noStream | writeThrew | startWait | collect => exact hkeep _ h
  | startWrite | writeDone | woken | timeout => exact h
  | writeFailed n what err => exact hkeep _ (h.failAll (hfail rfl) err)
  | aborted hpc what err => exact hkeep _ (h.failAll (hfail hpc) err)

/-- The call's own next step collects what its slot holds. -/
theorem Settled.own (h : (pc = .waiting ∨ pc = .collecting) ∧ Holds sk id r)
    (hs : CallStep deadline id sk pc e sk' pc') (ht : ∀ what, e ≠ .timeout what) :
    pc' = .returned r ∨ (pc' = .waiting ∨ pc' = .collecting) ∧ Holds sk' id r := by
  obtain ⟨hpc, hh⟩ := h
  obtain ⟨p, hpend, hw, hc⟩ := hh
  cases hs with
  | woken => exact .inr ⟨.inr rfl, p, hpend, hw, hc⟩
  | collect hp =>
    rw [hpend] at hp
    cases hp
    rw [hc]
    exact .inl rfl
  | timeout _ _ what => exact absurd rfl (ht what)
  | aborted _ what => exact absurd rfl (ht what)
  | _ => rcases hpc with hpc | hpc <;> cases hpc

theorem not_returned_of_wait (h : pc = .waiting ∨ pc = .collecting) (r : Result Json) :
    pc ≠ .returned r := by
  rintro rfl
  rcases h with h | h <;> cases h

theorem Settled.step (h : Settled id r s) {e : SysEvent String ReaderEvent CallEvent}
    (hp : Undisturbed L id r s e) (hs : (socket L deadline).machine.step s e = some s') :
    Settled id r s' := by
  unfold Settled
  rcases Interleaving.step_inv hs with ⟨x, rfl, hx, hl⟩ | ⟨id', x, pc', rfl, hx, hl⟩
  · rw [hl]
    rcases h with hret | ⟨hpc, hh⟩
    · exact .inl hret
    · obtain ⟨-, hmsg, hfail⟩ := hp (not_returned_of_wait hpc)
      exact .inr ⟨hpc, hh.read hx (fun text htext => hmsg text (by rw [htext])) hfail⟩
  · have hstep := call_inv hx
    rw [hl]
    by_cases hne : id = id'
    · subst hne
      rw [Function.update_self]
      rcases h with hret | hrest
      · exact absurd hret (hstep.not_returned r)
      · refine Settled.own hrest hstep fun what hwhat => ?_
        exact (hp (not_returned_of_wait hrest.1)).1 what (by rw [hwhat])
    · rw [Function.update_of_ne hne]
      rcases h with hret | ⟨hpc, hh⟩
      · exact .inl hret
      · exact .inr ⟨hpc, hh.other hne hstep (hp (not_returned_of_wait hpc)).2.2⟩

/-- A settled call needs at most two steps of its own to return. -/
theorem Settled.returns (h : Settled id r s) :
    ∃ t s', (socket L deadline).machine.Runs s t s' ∧ s'.locals id = .returned r := by
  rcases h with hret | ⟨hpc, p, hpend, hw, hc⟩
  · exact ⟨[], s, .nil s, hret⟩
  have collects : ∀ s₁ : Sys String Socket CallPc, s₁.shared = s.shared → s₁.locals id = .collecting →
      ∃ s', (socket L deadline).machine.Runs s₁ [.act id .collect] s' ∧ s'.locals id = .returned r := by
    intro s₁ hsh hpc₁
    refine ⟨⟨s.shared.setPending id none, Function.update s₁.locals id (.returned r)⟩,
      .cons trivial ?_ (.nil _), Function.update_self ..⟩
    simp [Interleaving.machine, socket, callWithCorrelation, hsh, hpc₁, hpend, hc]
  rcases hpc with hpc | hpc
  · obtain ⟨s', hs', hret⟩ := collects ⟨s.shared, Function.update s.locals id .collecting⟩ rfl
      (Function.update_self ..)
    refine ⟨[.act id .woken, .act id .collect], s', .cons trivial ?_ hs', hret⟩
    simp [Interleaving.machine, socket, callWithCorrelation, hpc, hpend, hw]
  · obtain ⟨s', hs', hret⟩ := collects s rfl hpc
    exact ⟨_, s', hs', hret⟩

/-- An answer does not depend on the wait of the call. -/
theorem answer_wake (doc : Json) (w : Wake) :
    answer L doc { wake := w } = (answer L doc {}).map fun p => { p with wake := w } := by
  unfold answer
  cases doc.member "error" with
  | some err =>
    simp only [bind, Except.bind, pure, Except.pure]
    cases err.value (Json.getInt L.trunc) "code" (-1) with
    | error what => rfl
    | ok code =>
      cases err.value Json.getString "message" "unknown" with
      | error what => rfl
      | ok message => rfl
  | none => cases doc.member "result" <;> rfl

theorem reply_eq_some {text : String} (h : reply L text id = some r) :
    ∃ doc p, L.parse text = .ok doc ∧ doc.stringMember "id" = some id ∧ answer L doc {} = .ok p ∧
      p.collect = r := by
  unfold reply at h
  split at h
  · cases h
  rename_i doc hdoc
  split at h
  · rename_i hid
    cases hans : answer L doc {} with
    | error what =>
      rw [hans] at h
      cases h
    | ok p =>
      rw [hans] at h
      cases h
      exact ⟨doc, p, hdoc, hid, hans, rfl⟩
  · cases h

/-- The message puts its reply into an empty slot whose call waits, and ends the wait. -/
theorem settled_of_message {text : String} (hreply : reply L text id = some r)
    (hpc : s.locals id = .waiting) (hslot : s.shared.pending id = some { wake := .outstanding })
    (hs : (socket L deadline).machine.step s (.env (.message text)) = some s') : Settled id r s' := by
  obtain ⟨doc, p, hdoc, hid, hans, hc⟩ := reply_eq_some hreply
  obtain ⟨x, hx, hread, hl⟩ | ⟨_, _, _, hx, -, -⟩ := Interleaving.step_inv hs
  · cases hx
    have hhandled : handleMessage L s.shared text =
        .ok (s.shared.setPending id (some { p with wake := .completed })) := by
      simp [handleMessage, hdoc, hid, hslot, answer_wake, hans, Except.map, PendingCall.cancelWake]
    obtain ⟨-, hok | ⟨⟨what, hthrew⟩, -⟩⟩ := read_message hread
    · rw [hhandled] at hok
      refine .inr ⟨by rw [hl]; exact .inl hpc, { p with wake := .completed }, ?_, rfl, hc⟩
      rw [← Except.ok.inj hok]
      exact Function.update_self ..
    · rw [hhandled] at hthrew
      cases hthrew
  · cases hx

/-- An answer that is handled while its call waits on an empty slot, and that nothing overtakes, is
what the call returns. -/
theorem response_returned (L : JsonLib) (deadline : Nat) (id text : String) (r : Result Json)
    {t : List (SysEvent String ReaderEvent CallEvent)} {s₁ s₂ s : Sys String Socket CallPc}
    (hpc : s₁.locals id = .waiting) (hslot : s₁.shared.pending id = some { wake := .outstanding })
    (hreply : reply L text id = some r)
    (hs : (socket L deadline).machine.step s₁ (.env (.message text)) = some s₂)
    (h : (socket L deadline).machine.Steps (Undisturbed L id r) s₂ t s) :
    (∀ r', s.locals id = .returned r' → r' = r) ∧
      ∃ t' s', (socket L deadline).machine.Runs s t' s' ∧ s'.locals id = .returned r := by
  have hset : Settled id r s := by
    refine h.invariant (settled_of_message hreply hpc hslot hs) ?_
    intro s e s' hp h hstep
    exact h.step hp hstep
  refine ⟨fun r' hr' => ?_, hset.returns⟩
  rcases hset with hret | ⟨hwait, -⟩
  · rw [hret] at hr'
    cases hr'
    rfl
  · exact absurd hr' (not_returned_of_wait hwait r')

/-- What `errorText` says to `a`. -/
def errorReply : Result Json := .error ⟨.aria2Rpc, "aria2 RPC error 1: unknown"⟩

/-- The call `a` waits for its answer. -/
def waitingTrace : List (SysEvent String ReaderEvent CallEvent) :=
  startWrites ["a"] ++ [.act "a" .writeDone, .act "a" .startWait]

def isTimedOut (deadline : Nat) : CallPc → Bool
  | .returned (.error err) => err == timedOut deadline
  | _ => false

theorem eq_of_isTimedOut (h : isTimedOut deadline pc = true) :
    pc = .returned (.error (timedOut deadline)) := by
  unfold isTimedOut at h
  split at h
  · rw [eq_of_beq h]
  · cases h

/-- The steps that a settled call makes. -/
theorem undisturbed_own (h : e = .woken ∨ e = .collect) : Undisturbed L id r s (.act id e) := by
  intro _
  refine ⟨fun what he => ?_, fun text he => ?_, fun he => ?_⟩
  · rcases h with rfl | rfl <;> cases he
  · cases he
  · rcases h with rfl | rfl <;> cases he

theorem response_returned_waiting : ∃ s₁ s₂ s, (socket errorLib 30000).machine.Runs start waitingTrace s₁ ∧
    (socket errorLib 30000).machine.step s₁ (.env (.message errorText)) = some s₂ ∧
    (socket errorLib 30000).machine.Runs s₂ [.act "a" .woken, .act "a" .collect] s ∧
    ∀ r, s.locals "a" = .returned r → r = errorReply := by
  have hwait : ∃ s₁ s₂, (socket errorLib 30000).machine.Runs start waitingTrace s₁ ∧
      s₁.locals "a" = .waiting ∧ s₁.shared.pending "a" = some { wake := .outstanding } ∧
      (socket errorLib 30000).machine.step s₁ (.env (.message errorText)) = some s₂ ∧
      ∃ s, (socket errorLib 30000).machine.Steps (Undisturbed errorLib "a" errorReply) s₂
        [.act "a" .woken, .act "a" .collect] s := by
    refine ⟨_, _, .cons trivial rfl (.cons trivial rfl (.cons trivial rfl (.cons trivial rfl
      (.cons trivial rfl (.cons trivial rfl (.nil _)))))), rfl, rfl, rfl, _,
      .cons ?_ rfl (.cons ?_ rfl (.nil _))⟩
    · exact undisturbed_own (.inl rfl)
    · exact undisturbed_own (.inr rfl)
  obtain ⟨s₁, s₂, hs₁, hpc, hslot, hstep, s, hs⟩ := hwait
  exact ⟨s₁, s₂, s, hs₁, hstep, hs.runs,
    (response_returned errorLib 30000 "a" errorText errorReply hpc hslot rfl hstep hs).1⟩

set_option maxRecDepth 4000 in
/-- The answer is handled while the write is still outstanding; the wait that starts afterwards is
never cancelled, and the call times out. -/
theorem response_lost : ¬ ∀ (L : JsonLib) (deadline : Nat) (id text : String) (r r' : Result Json)
    (t₁ t₂ : List (SysEvent String ReaderEvent CallEvent)) (s₁ s₂ s : Sys String Socket CallPc),
    (socket L deadline).machine.Runs start t₁ s₁ → (s₁.shared.pending id).isSome = true →
    (∀ r, s₁.locals id ≠ .returned r) → reply L text id = some r →
    (socket L deadline).machine.step s₁ (.env (.message text)) = some s₂ →
    (socket L deadline).machine.Runs s₂ t₂ s → s.locals id = .returned r' → r' = r := by
  intro hall
  have hfirst : ∃ s₁ s₂, (socket errorLib 30000).machine.Runs start (startWrites ["a"]) s₁ ∧
      (s₁.shared.pending "a").isSome = true ∧ s₁.locals "a" = .writing 0 ∧
      (socket errorLib 30000).machine.step s₁ (.env (.message errorText)) = some s₂ ∧
      ((socket errorLib 30000).machine.run s₂ [.act "a" .writeDone, .act "a" .startWait,
        .act "a" (.timeout "canceled")]).map (fun s => isTimedOut 30000 (s.locals "a")) = some true := by
    refine ⟨_, _, .cons trivial rfl (.cons trivial rfl (.cons trivial rfl (.cons trivial rfl (.nil _)))),
      rfl, rfl, rfl, ?_⟩
    decide
  obtain ⟨s₁, s₂, hs₁, hpend, hpc, hstep, hobs⟩ := hfirst
  obtain ⟨s, hs, ho⟩ := Machine.exists_runs hobs
  have hlost := hall errorLib 30000 "a" errorText errorReply _ _ _ s₁ s₂ s hs₁ hpend
    (fun r hr => by rw [hpc] at hr; cases hr) rfl hstep hs (eq_of_isTimedOut ho)
  cases hlost

end Cmlb.Aria2
