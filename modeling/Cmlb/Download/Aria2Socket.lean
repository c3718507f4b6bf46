import Cmlb.Core.Error
import Cmlb.Core.Json
import Cmlb.Lib.Interleave

/-!
# The aria2 WebSocket (`Aria2Downloader::Impl`)

The reader coroutine (`run_loop`, `connect_once`, `read_until_disconnect`) and any number of
`call_with_correlation` coroutines on one strand. A call is named by its request id, which is drawn at
random and taken to be distinct. Of the two stream members the configuration uses one, so the model
has one; a stream is named by the count of streams made before it. `steady_timer::cancel` completes
only the wait that is outstanding when it is called.

`with_timeout` cancels the call: inside `send_text` that surfaces as a `system_error` of the write,
anywhere else the call just ends and leaves its slot in `pending_`.

An exception that leaves `handle_message` ends the read loop, which fails every pending call;
`message_confined_iff` says which messages do that.
-/

namespace Cmlb.Aria2

/-- The wait of a call on its wake timer. -/
inductive Wake
  | notStarted | outstanding | completed
deriving DecidableEq

structure PendingCall where
  response : Option Json := none
  failure : Option AppError := none
  wake : Wake := .notStarted

namespace PendingCall

/-- `wake->cancel()`. -/
def cancelWake (p : PendingCall) : PendingCall :=
  match p.wake with
  | .outstanding => { p with wake := .completed }
  | _ => p

def fail (err : AppError) (p : PendingCall) : PendingCall := cancelWake { p with failure := some err }

/-- What a call returns once it is awake. -/
def collect (p : PendingCall) : Result Json :=
  match p.response, p.failure with
  | some r, _ => .ok r
  | none, some err => .error err
  | none, none => .error ⟨.aria2Rpc, "aria2 RPC slot abandoned without response"⟩

end PendingCall

inductive ReaderPc
  -- `connect_once`, before and after it has made the stream
  | resolving | handshaking
  | reading
  | backingOff
  | stopped
deriving DecidableEq

structure Socket where
  reader : ReaderPc := .resolving
  connected : Bool := false
  stream : Option Nat := none
  made : Nat := 0
  pending : String → Option PendingCall := fun _ => none

namespace Socket

def setPending (sk : Socket) (id : String) (p : Option PendingCall) : Socket :=
  { sk with pending := Function.update sk.pending id p }

def failAllPending (sk : Socket) (err : AppError) : Socket :=
  { sk with pending := fun id => (sk.pending id).map (.fail err) }

/-- The end of `read_until_disconnect`. -/
def leaveReading (sk : Socket) : Socket :=
  { sk.failAllPending ⟨.network, "aria2 connection lost"⟩ with
    reader := .backingOff, connected := false, stream := none }

end Socket

/-! ### The reader -/

/-- The document answers a call: its error or its result, put in the call's slot. -/
def answer (L : JsonLib) (doc : Json) (p : PendingCall) : Except String PendingCall :=
  match doc.member "error" with
  | some e => do
    let code ← e.value (Json.getInt L.trunc) "code" (-1)
    let message ← e.value Json.getString "message" "unknown"
    return { p with failure := some ⟨.aria2Rpc, "aria2 RPC error " ++ toString code ++ ": " ++ message⟩ }
  | none =>
    match doc.member "result" with
    | some r => return { p with response := some r }
    | none =>
      return { p with failure := some ⟨.aria2Rpc, "aria2 response missing both result and error"⟩ }

/-- The id a message carries. -/
def messageId (L : JsonLib) (text : String) : Option String :=
  match L.parse text with
  | .error _ => none
  | .ok doc => doc.stringMember "id"

/-- `handle_message`; the error is the `what()` of an exception that leaves it. -/
def handleMessage (L : JsonLib) (sk : Socket) (text : String) : Except String Socket :=
  match L.parse text with
  | .error _ => .ok sk
  | .ok doc =>
    match doc.stringMember "id" with
    | none => .ok sk
    | some id =>
      match sk.pending id with
      | none => .ok sk
      | some p => (answer L doc p).map fun p => sk.setPending id (some p.cancelWake)

inductive ReaderEvent
  -- The stream is made, and the old one destroyed
  | resolved
  | handshaken
  -- `connect_once` throws, or returns an error without touching the stream
  | connectThrew
  | connectRejected
  | message (text : String)
  -- The read fails or a shutdown is requested
  | disconnected
  | retry
  | stop

/-- One strand step of the reader. -/
def Socket.read (L : JsonLib) (sk : Socket) (e : ReaderEvent) : Option Socket :=
  match sk.reader, e with
  | .resolving, .resolved =>
    some { sk with reader := .handshaking, stream := some sk.made, made := sk.made + 1 }
  | .handshaking, .handshaken => some { sk with reader := .reading, connected := true }
  | .resolving, .connectThrew | .handshaking, .connectThrew =>
    some { sk with reader := .backingOff, connected := false, stream := none }
  | .resolving, .connectRejected | .handshaking, .connectRejected =>
    some { sk with reader := .backingOff }
  | .reading, .message text =>
    match handleMessage L sk text with
    | .ok sk => some sk
    | .error _ => some sk.leaveReading
  | .reading, .disconnected => some sk.leaveReading
  | .backingOff, .retry => some { sk with reader := .resolving }
  | .backingOff, .stop => some { sk with reader := .stopped }
  | _, _ => none

/-! ### The calls -/

inductive CallPc
  | posted
  -- The slot is registered, and `send_text` waits for its turn on the strand
  | sending
  | writing (stream : Nat)
  | written
  | waiting
  | collecting
  | returned (r : Result Json)

/-- Inside `send_text`. -/
def CallPc.inSend : CallPc → Bool
  | .sending | .writing _ => true
  | _ => false

inductive CallEvent
  | register
  | startWrite
  | writeDone
  -- `async_write` throws a `system_error`, or any other exception
  | writeFailed (what : String)
  | writeThrew (what : String)
  | startWait
  | woken
  | collect
  | timeout (what : String)
deriving DecidableEq

def timedOut (deadline : Nat) : AppError :=
  ⟨.timeout, "operation exceeded " ++ toString deadline ++ "ms deadline"⟩

/-- One strand step of the call `id`, under `with_timeout`. -/
def callWithCorrelation (deadline : Nat) (id : String) (sk : Socket) (pc : CallPc) (e : CallEvent) :
    Option (Socket × CallPc) :=
  match pc, e with
  | .posted, .register =>
    if sk.connected then some (sk.setPending id (some {}), .sending)
    else some (sk.setPending id none, .returned (.error ⟨.network, "aria2 WebSocket not connected"⟩))
  | .sending, .startWrite =>
    match sk.stream with
    | some n => some (sk, .writing n)
    | none => some (sk.setPending id none,
        .returned (.error ⟨.network, "aria2 WebSocket stream not initialized"⟩))
  | .writing _, .writeDone => some (sk, .written)
  | .writing _, .writeFailed what =>
    some ((sk.failAllPending ⟨.network, what⟩).setPending id none, .returned (.error ⟨.network, what⟩))
  | .writing _, .writeThrew what =>
    some (sk.setPending id none, .returned (.error ⟨.network, what⟩))
  | .written, .startWait =>
    some (sk.setPending id ((sk.pending id).map fun p => { p with wake := .outstanding }), .waiting)
  | .waiting, .woken =>
    match sk.pending id with
    | some p => if p.wake = .completed then some (sk, .collecting) else none
    | none => none
  | .collecting, .collect =>
    match sk.pending id with
    | some p => some (sk.setPending id none, .returned p.collect)
    | none => none
  | .returned _, .timeout _ => none
  | .sending, .timeout what | .writing _, .timeout what =>
    some ((sk.failAllPending ⟨.network, what⟩).setPending id none, .returned (.error (timedOut deadline)))
  | _, .timeout _ => some (sk, .returned (.error (timedOut deadline)))
  | _, _ => none

def socket (L : JsonLib) (deadline : Nat) : Interleaving String Socket CallPc ReaderEvent CallEvent where
  env sk e := sk.read L e
  act := callWithCorrelation deadline

/-- Before the first step; every request id stands for a call that has not begun. -/
def start : Sys String Socket CallPc := ⟨{}, fun _ => .posted⟩

/-! ### Messages -/

/-- `e.value("code", -1)` or `e.value("message", ...)` throws on this `error` member. -/
def badError : Json → Bool
  | .object fields =>
    (match fields.lookup "code" with
      | none | some (.number _) | some (.float _) | some (.bool _) => false
      | some _ => true) ||
    match fields.lookup "message" with
      | none | some (.string _) => false
      | some _ => true
  | _ => true

/-- The message answers a pending call with an `error` member that `handle_message` cannot read. -/
def breaksReader (L : JsonLib) (sk : Socket) (text : String) : Bool :=
  match L.parse text with
  | .error _ => false
  | .ok doc =>
    match (doc.stringMember "id").bind sk.pending, doc.member "error" with
    | some _, some e => badError e
    | _, _ => false

/-- The step has left the connection alone and every slot but that of the call `id`. -/
structure Confined (id : Option String) (sk sk' : Socket) : Prop where
  reader : sk'.reader = .reading
  connected : sk'.connected = sk.connected
  stream : sk'.stream = sk.stream
  pending : ∀ other, id ≠ some other → sk'.pending other = sk.pending other

variable {L : JsonLib} {sk sk' : Socket} {text : String}

theorem answer_threw_iff (doc : Json) (p : PendingCall) :
    (∃ what, answer L doc p = .error what) ↔ ∃ e, doc.member "error" = some e ∧ badError e = true := by
  unfold answer
  cases hdoc : doc.member "error" with
  | none => cases doc.member "result" <;> simp [pure, Except.pure]
  | some e =>
    cases e with
    | object fields =>
      simp only [Json.value, badError, Option.some.injEq]
      -- `code` is read before `message`, and either can throw
      rcases hc : fields.lookup "code" with _ | code
      all_goals rcases hm : fields.lookup "message" with _ | message
      all_goals try cases code
      all_goals try cases message
      all_goals simp [Json.getInt, Json.getString, bind, Except.bind, pure, Except.pure, hc, hm]
    | _ => simp [Json.value, badError, bind, Except.bind]

theorem map_threw_iff {α β : Type} {f : α → β} {x : Except String α} :
    (∃ what, x.map f = .error what) ↔ ∃ what, x = .error what := by
  cases x <;> simp [Except.map]

theorem handleMessage_threw_iff :
    (∃ what, handleMessage L sk text = .error what) ↔ breaksReader L sk text = true := by
  unfold handleMessage breaksReader
  cases L.parse text with
  | error what => simp
  | ok doc =>
    dsimp only
    cases doc.stringMember "id" with
    | none => simp
    | some id =>
      dsimp only [Option.bind_some]
      cases sk.pending id with
      | none => simp
      | some p =>
        dsimp only
        rw [map_threw_iff, answer_threw_iff]
        cases doc.member "error" with
        | none => simp
        | some e => simp

/-- A message that is handled and changes anything is the answer to a pending call. -/
theorem handleMessage_eq_ok (h : handleMessage L sk text = .ok sk') :
    sk' = sk ∨ ∃ doc id p p', messageId L text = some id ∧ sk.pending id = some p ∧
      answer L doc p = .ok p' ∧ sk' = sk.setPending id (some p'.cancelWake) := by
  unfold handleMessage at h
  split at h
  · cases h
    exact .inl rfl
  rename_i doc hdoc
  split at h
  · cases h
    exact .inl rfl
  rename_i id hid
  split at h
  · cases h
    exact .inl rfl
  rename_i p hp
  cases hans : answer L doc p with
  | error what =>
    rw [hans] at h
    cases h
  | ok p' =>
    rw [hans] at h
    cases h
    exact .inr ⟨doc, id, p, p', by simp [messageId, hdoc, hid], hp, hans, rfl⟩

/-- A message that is handled changes the slot of its id and nothing else. -/
theorem handleMessage_confined (hr : sk.reader = .reading) (h : handleMessage L sk text = .ok sk') :
    Confined (messageId L text) sk sk' := by
  rcases handleMessage_eq_ok h with rfl | ⟨doc, id, p, p', hid, -, -, rfl⟩
  · exact ⟨hr, rfl, rfl, fun _ _ => rfl⟩
  · refine ⟨hr, rfl, rfl, fun other hne => Function.update_of_ne ?_ _ _⟩
    rintro rfl
    exact hne hid

theorem read_message (h : sk.read L (.message text) = some sk') : sk.reader = .reading ∧
    (handleMessage L sk text = .ok sk' ∨
      (∃ what, handleMessage L sk text = .error what) ∧ sk' = sk.leaveReading) := by
  cases hr : sk.reader with
  | reading =>
    simp only [Socket.read, hr] at h
    cases hm : handleMessage L sk text with
    | ok sk₁ =>
      rw [hm] at h
      cases h
      exact ⟨rfl, .inl rfl⟩
    | error what =>
      rw [hm] at h
      cases h
      exact ⟨rfl, .inr ⟨⟨what, rfl⟩, rfl⟩⟩
  | _ =>
    simp only [Socket.read, hr] at h
    cases h

/-- A message that the reader gets is confined to its own call exactly when it does not answer a
pending call with an `error` member of the wrong shape. -/
theorem message_confined_iff (L : JsonLib) (sk sk' : Socket) (text : String)
    (h : sk.read L (.message text) = some sk') :
    Confined (messageId L text) sk sk' ↔ breaksReader L sk text = false := by
  obtain ⟨hr, hok | ⟨hthrew, rfl⟩⟩ := read_message h
  · refine ⟨fun _ => Bool.eq_false_iff.2 fun hbreaks => ?_, fun _ => handleMessage_confined hr hok⟩
    obtain ⟨what, hwhat⟩ := handleMessage_threw_iff.2 hbreaks
    rw [hok] at hwhat
    cases hwhat
  · rw [handleMessage_threw_iff.1 hthrew]
    constructor
    · intro hconf
      -- the read loop has ended
      cases hconf.reader
    · intro hfalse
      cases hfalse

/-- A connection with the pending calls `a` and `b`. -/
def twoPending : Socket where
  reader := .reading
  connected := true
  stream := some 0
  made := 1
  pending id := if id = "a" ∨ id = "b" then some { wake := .outstanding } else none

/-- An error answer for `a`. -/
def errorText : String := "\x7b\"id\":\"a\",\"error\":\x7b\"code\":1\x7d\x7d"

/-- An answer for `a` whose error is a text. -/
def badErrorText : String := "\x7b\"id\":\"a\",\"error\":\"no\"\x7d"

/-- A parser that knows the two answers. -/
def errorLib : JsonLib where
  parse text :=
    if text = errorText then
      .ok (.object [("id", .string "a"), ("error", .object [("code", .number 1)])])
    else if text = badErrorText then .ok (.object [("id", .string "a"), ("error", .string "no")])
    else .error "parse error"
  trunc _ := 0

theorem error_confined : ∃ sk', twoPending.read errorLib (.message errorText) = some sk' ∧
    messageId errorLib errorText = some "a" ∧ Confined (messageId errorLib errorText) twoPending sk' :=
  ⟨_, rfl, rfl, (message_confined_iff errorLib twoPending _ errorText rfl).2 rfl⟩

/-- The text in place of the error object of `a` ends the read loop and fails the call `b`. -/
theorem bad_error_not_confined : ¬ ∀ (L : JsonLib) (sk sk' : Socket) (text : String),
    sk.read L (.message text) = some sk' → Confined (messageId L text) sk sk' := by
  intro hall
  have hconf := hall errorLib twoPending twoPending.leaveReading badErrorText rfl
  cases hconf.reader

end Cmlb.Aria2
