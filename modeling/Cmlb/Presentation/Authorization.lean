import Cmlb.Presentation.CallbackDispatcher

/-!
# Who may control tasks

Updates enter by two dispatchers, and both reach `CancelTask`, `PauseTask` and `ResumeTask`. An
update is `Authorized` when no run of its handling makes such a call without the permission the
command of that name is registered under. `CommandDispatcher::dispatch` checks it, and
`CallbackDispatcher`, which has no `Authority`, does not.
-/

namespace Cmlb

/-- The permission the command behind a call is registered under, if the call controls a task. -/
def requiredFor (c : Port) : Option Permission :=
  c.controls.bind fun name => (CommandDispatcher.find name).map (·.required)

inductive Update
  | command (request : CommandRequest)
  | callback (chat : ChatId) (sender : UserId) (msg : MessageId) (query : CallbackQueryId)
      (data : String)

namespace Update

def sender : Update → UserId
  | command request => request.sender
  | callback _ sender _ _ _ => sender

def chat : Update → ChatId
  | command request => request.chat
  | callback chat _ _ _ _ => chat

def handle (A : Authority) : Update → Action (Result Unit)
  | command request => CommandDispatcher.dispatch A request
  | callback chat sender msg query data => CallbackDispatcher.dispatch chat sender msg query data

def Authorized (A : Authority) (u : Update) : Prop :=
  ∀ calls res, (u.handle A).Trace calls res →
    ∀ c ∈ calls, ∀ p, requiredFor c = some p → A.canRun u.sender u.chat p = true

end Update

/-- A payload `task:<verb>:<id>` of a task-control button. -/
def ControlsTask (data : String) : Prop :=
  ∃ verb ∈ ["cancel", "pause", "resume"], ∃ id, id ≠ "" ∧ data = "task" ++ ":" ++ (verb ++ ":" ++ id)

variable {c : Port} {p : Permission} {chat : ChatId} {sender : UserId} {msg : MessageId} {data : String}

/-- `/cancel`, `/pause` and `/resume` are registered for users. -/
theorem requiredFor_of_controls {name : String} (h : c.controls = some name) :
    requiredFor c = some .user := by
  cases c with
  | cancelTask request => rfl
  | pauseTask request => rfl
  | resumeTask request => rfl
  | _ => cases h

theorem requiredFor_eq_some (h : requiredFor c = some p) : p = .user ∧ c.controls ≠ none := by
  cases hc : c.controls with
  | none => simp [requiredFor, hc] at h
  | some name =>
    rw [requiredFor_of_controls hc] at h
    exact ⟨(Option.some.inj h).symm, by simp⟩

/-! ### Commands -/

namespace CommandDispatcher

open Prog

theorem refuse_only (req : CommandRequest) (html : Html) (code : ErrorCode) (message : String) :
    (refuse req html code message).Only (·.controls = none) :=
  .ask_bind rfl fun _ => .pure _

theorem reply_only (req : CommandRequest) (html : Html) :
    (reply req html).Only (·.controls = none) :=
  .ask_bind rfl fun _ => .pure _

theorem settings_only (this : This) (req : CommandRequest) :
    (settings this req).Only (·.controls = none) :=
  .ask_bind rfl fun _ => onOk_only fun _ => .ask_bind rfl fun _ => .pure _

theorem ping_only (this : This) (req : CommandRequest) :
    (ping this req).Only (·.controls = none) :=
  .ask_bind rfl fun _ => .ask_bind rfl fun _ => onOk_only fun _ => .ask_bind rfl fun _ => .ask rfl

/-- The handlers anyone may run control no task. -/
theorem handler_only {e : Entry} (he : e ∈ commands) (hlow : e.required = .anyone) (this : This)
    (req : CommandRequest) : (e.handler this req).Only (·.controls = none) := by
  have hcases : e.handler = settings ∨ e.handler = ping ∨
      ∃ html, e.handler this req = reply req html := by
    simp only [commands, List.mem_cons, List.not_mem_nil, or_false] at he
    rcases he with rfl | rfl | rfl | rfl | rfl | rfl | rfl | rfl | rfl | rfl | rfl | rfl | rfl | rfl |
      rfl | rfl | rfl | rfl | rfl | rfl | rfl <;> first
      | exact absurd hlow (by decide)
      | exact .inl rfl
      | exact .inr (.inl rfl)
      | exact .inr (.inr ⟨_, rfl⟩)
  rcases hcases with h | h | ⟨html, h⟩
  · exact h ▸ settings_only this req
  · exact h ▸ ping_only this req
  · exact h ▸ reply_only req html

/-- Without the rights of a user a command controls no task. -/
theorem dispatch_only (A : Authority) (req : CommandRequest)
    (hno : A.canRun req.sender req.chat .user = false) :
    (dispatch A req).Only (·.controls = none) := by
  simp only [dispatch]
  cases hfind : find (resolve req.command) with
  | none => exact refuse_only ..
  | some e =>
    dsimp only
    split
    case isFalse => exact refuse_only ..
    case isTrue hrun =>
      have hlow : e.required = .anyone := by
        by_contra hne
        have hle : Permission.user.toNat ≤ e.required.toNat := by
          revert hne
          cases e.required <;> decide
        rw [Authority.canRun_mono hrun hle] at hno
        cases hno
      exact handler_only (List.mem_of_find?_eq_some hfind) hlow _ _

end CommandDispatcher

/-! ### Callbacks -/

namespace CallbackDispatcher

open Prog

theorem updateSettings_only (mutate : UserSettingsRecord → UserSettingsRecord) (done : String) :
    (updateSettings chat sender msg mutate done).Only (·.controls = none) := by
  refine .ask_bind rfl fun res => ?_
  cases res with
  | error err => exact .pure _
  | ok record =>
    dsimp only
    split_ifs
    · exact .pure _
    · exact .ask_bind rfl fun _ => .pure _

theorem onSettings_only (chat : ChatId) (sender : UserId) (msg : MessageId) (rest : String) :
    (onSettings chat sender msg rest).Only (·.controls = none) := by
  simp only [onSettings]
  split_ifs
  · exact updateSettings_only ..
  · exact updateSettings_only ..
  · exact .pure _

theorem onTask_only (rest : String) :
    (onTask chat rest).Only fun _ =>
      ∃ verb ∈ ["cancel", "pause", "resume"], ∃ id, id ≠ "" ∧ rest = verb ++ ":" ++ id := by
  simp only [onTask]
  by_cases hid : (splitColon rest).2 = ""
  · rw [if_pos (by simp [hid])]
    exact .pure _
  · have hrest := splitColon_join hid
    rw [if_neg (by simpa using hid)]
    split_ifs with h₁ h₂ h₃
    · exact .ask_bind ⟨_, by simp [h₁], _, hid, hrest⟩ fun _ => .pure _
    · exact .ask_bind ⟨_, by simp [h₂], _, hid, hrest⟩ fun _ => .pure _
    · exact .ask_bind ⟨_, by simp [h₃], _, hid, hrest⟩ fun _ => .pure _
    · exact .pure _

/-- Only the task buttons' payloads reach a call that controls a task. -/
theorem route_only (chat : ChatId) (sender : UserId) (msg : MessageId) (data : String) :
    (route chat sender msg data).Only fun c => c.controls ≠ none → ControlsTask data := by
  simp only [route]
  split_ifs with hclose hrefresh hsettings htask
  · unfold close
    split_ifs
    · exact .pure _
    · exact .ask_bind (fun h => absurd rfl h) fun _ => .pure _
  · exact .pure _
  · exact (onSettings_only ..).mono fun c hc h => absurd hc h
  · refine (onTask_only _).mono ?_
    rintro c ⟨verb, hverb, id, hid, hrest⟩ -
    have htail : (splitColon data).2 ≠ "" := by
      rw [hrest]
      simp
    have hdata := splitColon_join htail
    rw [htask, hrest] at hdata
    exact ⟨verb, hverb, id, hid, hdata⟩
  · exact .pure _

/-- A task button starts the call of its use case, whoever pressed it. -/
theorem dispatch_of_controlsTask (chat : ChatId) (sender : UserId) (msg : MessageId)
    (query : CallbackQueryId) (h : ControlsTask data) :
    ∃ c k, dispatch chat sender msg query data = .call c k ∧ requiredFor c = some .user := by
  obtain ⟨verb, hverb, id, hid, rfl⟩ := h
  have hroute : route chat sender msg ("task" ++ ":" ++ (verb ++ ":" ++ id)) =
      onTask chat (verb ++ ":" ++ id) := by
    have htask : ':' ∉ "task".toList := by decide
    simp only [route, splitColon_append htask]
    rfl
  have hcolon : ':' ∉ verb.toList := by
    simp only [List.mem_cons, List.not_mem_nil, or_false] at hverb
    rcases hverb with rfl | rfl | rfl <;> decide
  rw [dispatch, hroute, onTask, splitColon_append hcolon]
  dsimp only
  rw [if_neg (by simpa using hid)]
  simp only [List.mem_cons, List.not_mem_nil, or_false] at hverb
  rcases hverb with rfl | rfl | rfl
  · exact ⟨.cancelTask ⟨⟨id⟩, chat⟩, _, rfl, rfl⟩
  · exact ⟨.pauseTask ⟨⟨id⟩, chat⟩, _, rfl, rfl⟩
  · exact ⟨.resumeTask ⟨⟨id⟩, chat⟩, _, rfl, rfl⟩

end CallbackDispatcher

namespace Update

/-- The updates that control a task without a check. -/
def Unchecked : Update → Prop
  | command _ => False
  | callback _ _ _ _ data => ControlsTask data

theorem handle_only (A : Authority) (u : Update) (hno : A.canRun u.sender u.chat .user = false) :
    (u.handle A).Only fun c => c.controls ≠ none → u.Unchecked := by
  cases u with
  | command request =>
    exact (CommandDispatcher.dispatch_only A request hno).mono fun c hc h => absurd hc h
  | callback chat sender msg query data =>
    exact (CallbackDispatcher.route_only chat sender msg data).bind fun ack =>
      .ask_bind (fun h => absurd rfl h) fun _ => .pure _

/-- An update keeps the permissions of `/cancel`, `/pause` and `/resume` in all its runs exactly when
it is not a task button's callback or its sender may run user commands in the chat. -/
theorem authorized_iff (A : Authority) (u : Update) :
    u.Authorized A ↔ (u.Unchecked → A.canRun u.sender u.chat .user = true) := by
  constructor
  · intro h hu
    cases u with
    | command request => exact hu.elim
    | callback chat sender msg query data =>
      obtain ⟨c, k, hcall, hc⟩ :=
        CallbackDispatcher.dispatch_of_controlsTask chat sender msg query hu
      obtain ⟨calls, res, htrace, hmem⟩ := Prog.exists_trace_call c k
      exact h calls res (by rw [handle, hcall]; exact htrace) c hmem .user hc
  · intro h calls res htrace c hmem p hp
    obtain ⟨rfl, hc⟩ := requiredFor_eq_some hp
    by_contra hno
    have hno := Bool.eq_false_iff.2 hno
    have hu := (handle_only A u hno).trace htrace c hmem hc
    rw [h hu] at hno
    cases hno

/-- A stranger's press of a cancel button: nobody but the owner is known, and the task is cancelled. -/
theorem stranger_cancels :
    ¬ (callback ⟨-100⟩ ⟨7⟩ ⟨5⟩ ⟨1⟩ "task:cancel:t1").Authorized ⟨⟨1⟩, [], []⟩ := by
  intro h
  have hrun := h [.cancelTask ⟨⟨"t1"⟩, ⟨-100⟩⟩, .answerCallback ⟨1⟩ "Cancelling task" false] (.ok ())
    (.call (Except.ok ()) (.call (Except.ok ()) (.pure _))) _ List.mem_cons_self .user rfl
  revert hrun
  decide

end Update

end Cmlb
