import Cmlb.Presentation.CommandDispatcher

/-!
# `CallbackDispatcher`

Inline-keyboard payloads, parts separated by `:`. Every path ends in `answer_callback`, with the text
and alert flag that the path has left in `ack_text` and `ack_as_alert`.
-/

namespace Cmlb

namespace CallbackDispatcher

open Prog (ask)

/-- `split_colon`: the text before and after the first `:`. -/
def splitColon (data : String) : String × String :=
  let (head, tail) := data.toList.span (· != ':')
  (String.ofList head, String.ofList tail.tail)

def nextDestination : UploadDestination → UploadDestination
  | .telegram => .googleDrive
  | .googleDrive => .rclone
  | .rclone => .telegram

/-- The locals `outcome`, `ack_text` and `ack_as_alert`. -/
structure Ack where
  outcome : Result Unit := .ok ()
  text : String := ""
  alert : Bool := false

def Ack.failed (err : AppError) : Ack := ⟨.error err, friendlyErrorLabel err.code, true⟩

def Ack.of (done : String) : Result Unit → Ack
  | .ok _ => { text := done }
  | .error err => .failed err

def close (chat : ChatId) (msg : MessageId) : Action Ack :=
  if msg.value = 0 then return {}
  else do
    let deleted ← ask (Port.deleteMessage chat msg)
    return .of "" deleted

/-- Change the settings and repaint the panel, if the callback came with its message. -/
def updateSettings (chat : ChatId) (sender : UserId) (msg : MessageId)
    (mutate : UserSettingsRecord → UserSettingsRecord) (done : String) : Action Ack := do
  let res : Result UserSettingsRecord ← ask (Port.updateUserSettings sender mutate)
  match res with
  | .error err => return .failed err
  | .ok record =>
    if msg.value = 0 then return { text := done }
    else do
      let edit ← ask (Port.editHtmlWithKeyboard chat msg (.userSettings record)
        CommandDispatcher.settingsKeyboard)
      return .of done edit

def onSettings (chat : ChatId) (sender : UserId) (msg : MessageId) (rest : String) : Action Ack :=
  let (part, action) := splitColon rest
  if part = "upload" ∧ action = "cycle" then
    updateSettings chat sender msg
      (fun rec => { rec with mirrorDestination := nextDestination rec.mirrorDestination })
      "Upload destination updated"
  else if part = "doc" ∧ action = "toggle" then
    updateSettings chat sender msg (fun rec => { rec with uploadAsDocument := !rec.uploadAsDocument })
      "Setting toggled"
  else return { text := "Unknown action" }

def onTask (chat : ChatId) (rest : String) : Action Ack :=
  let (verb, taskId) := splitColon rest
  if taskId.isEmpty then return { text := "Invalid task action", alert := true }
  else if verb = "cancel" then do
    let res ← ask (Port.cancelTask ⟨⟨taskId⟩, chat⟩)
    return .of "Cancelling task" res
  else if verb = "pause" then do
    let res ← ask (Port.pauseTask ⟨⟨taskId⟩, chat⟩)
    return .of "Task paused" res
  else if verb = "resume" then do
    let res ← ask (Port.resumeTask ⟨⟨taskId⟩, chat⟩)
    return .of "Task resumed" res
  else return { text := "Unknown action" }

def route (chat : ChatId) (sender : UserId) (msg : MessageId) (data : String) : Action Ack :=
  let (head, rest) := splitColon data
  if head = "close" then close chat msg
  else if head = "status" ∧ rest = "refresh" then return { text := "Refreshing…" }
  else if head = "settings" then onSettings chat sender msg rest
  else if head = "task" then onTask chat rest
  else return { text := "Unknown action" }

/-- A failed acknowledgement is reported only when nothing else failed. -/
def finish (outcome ack : Result Unit) : Result Unit :=
  match outcome with
  | .ok _ => ack
  | .error err => .error err

def dispatch (chat : ChatId) (sender : UserId) (msg : MessageId) (query : CallbackQueryId)
    (data : String) : Action (Result Unit) := do
  let ack ← route chat sender msg data
  let answered ← ask (Port.answerCallback query ack.text ack.alert)
  return finish ack.outcome answered

/-! ### Payloads -/

variable {data head rest : String}

/-- A head without `:` is split off as it is. -/
theorem splitColon_append (h : ':' ∉ head.toList) :
    splitColon (head ++ ":" ++ rest) = (head, rest) := by
  have hd : ∀ c ∈ head.toList, (c != ':') = true := by
    intro c hc
    simp only [bne_iff_ne, ne_eq]
    rintro rfl
    exact h hc
  unfold splitColon
  simp [String.toList_append, List.span_eq_takeWhile_dropWhile, List.takeWhile_append_of_pos hd,
    List.dropWhile_append_of_pos hd]

/-- What is split with something behind the `:` is put together again by it. -/
theorem splitColon_join (hr : (splitColon data).2 ≠ "") :
    data = (splitColon data).1 ++ ":" ++ (splitColon data).2 := by
  simp only [splitColon, List.span_eq_takeWhile_dropWhile] at hr ⊢
  have happ := List.takeWhile_append_dropWhile (p := (· != ':')) (l := data.toList)
  rw [← String.toList_inj]
  cases htail : data.toList.dropWhile (· != ':') with
  | nil => simp [htail] at hr
  | cons c tail =>
    -- the dropped part starts with the first character that is a colon
    have hc : c = ':' := by
      have := List.head_dropWhile_not (· != ':') (l := data.toList) (by simp [htail])
      simpa [htail] using this
    rw [htail] at happ
    simpa [hc] using happ.symm

end CallbackDispatcher

end Cmlb
