import Cmlb.Lib.Prog
import Cmlb.Domain.Authority
import Cmlb.Application.Execute
import Cmlb.Application.CancelTask

/-!
# What the dispatchers call

The use cases and the messenger, as the two dispatchers see them: `Port` is one call with its
arguments, `Port.Answer` what it returns. A handler is a program over these calls. HTML bodies are
kept as the `HtmlRenderer` call that makes them. The `/stats` report goes from the use case to the
renderer unread and is not modelled; neither is the generated version string.
-/

namespace Cmlb

structure CallbackQueryId where
  value : Int
deriving DecidableEq, Repr

structure BotSettingsRecord where
  ownerId : Int := 0
  sudoUsers : List Int := []
  authorizedChats : List Int := []
  downloadDir : Path := "downloads"
  leechSplitSize : Int := 2000000000
  uploadLimitBytes : Int := 0
  statusUpdateInterval : Int := 5000
  rssPollInterval : Int := 60000
  updatedAt : Time := 0

structure RssFeed where
  feedId : Int := 0
  title : String
  url : String
  chat : ChatId
  includeRegex : String := ""
  excludeRegex : String := ""
  lastGuid : String := ""
  lastCheckedAt : Option Time := none
  enabled : Bool := true
  createdAt : Time := 0

/-- `CloneRequest`, `CountRequest` and `DeleteDriveRequest`. -/
structure DriveRequest where
  sourceUrl : String
  user : UserId
  chat : ChatId

structure StatusRequest where
  user : UserId
  chat : ChatId
  taskId : Option TaskId := none
  includeAllUsers : Bool := false

/-- `PauseTaskRequest` and `ResumeTaskRequest`. -/
abbrev TaskRequest := CancelTaskRequest

structure CommandDescription where
  name : String
  description : String
  permission : Permission

inductive Html
  | usage (command form : String)
  | notice (title detail : String)
  | success (title detail : String)
  | heading (text : String)
  | help (commands : List CommandDescription)
  | greeting
  | stats
  | version
  | userSettings (settings : UserSettingsRecord)
  | botSettings (settings : BotSettingsRecord)
  | rssSubscriptions (feeds : List RssFeed)
  -- The "Unknown Command" notice, with the name cut to 64 bytes
  | unknownCommand (name : String)
  -- The "Log Too Large" notice, with the size formatted by `format_bytes`
  | logTooLarge (bytes : Nat)
  | pong (latency : Int)
  | bulkCancel (cancelled failed : Nat)

/-- `telegram::InlineKeyboard`: rows of (label, callback data). -/
abbrev InlineKeyboard := List (List (String × String))

inductive Port
  | sendHtml (chat : ChatId) (html : Html)
  | sendHtmlWithKeyboard (chat : ChatId) (html : Html) (keyboard : InlineKeyboard)
  | editHtml (chat : ChatId) (msg : MessageId) (html : Html)
  | editHtmlWithKeyboard (chat : ChatId) (msg : MessageId) (html : Html) (keyboard : InlineKeyboard)
  | sendFile (chat : ChatId) (file : Path) (caption : String) (thumbnail : Option Path)
  | deleteMessage (chat : ChatId) (msg : MessageId)
  | answerCallback (query : CallbackQueryId) (text : String) (alert : Bool)
  | mirrorUrl (request : Request)
  | leechUrl (request : Request)
  | cloneResource (request : DriveRequest)
  | countResource (request : DriveRequest)
  | deleteResource (request : DriveRequest)
  | incompleteTasks
  | cancelTask (request : TaskRequest)
  | pauseTask (request : TaskRequest)
  | resumeTask (request : TaskRequest)
  | showStatus (request : StatusRequest)
  | showStats
  | updateUserSettings (user : UserId) (mutate : UserSettingsRecord → UserSettingsRecord)
  | updateBotSettings (mutate : BotSettingsRecord → BotSettingsRecord)
  | rssAdd (feed : RssFeed)
  | rssListForChat (chat : ChatId)
  | rssRemove (feedId : Int) (requester : UserId) (chat : ChatId)
  | steadyNow
  -- `std::filesystem::exists` and `file_size`; an error is its `error_code::message`
  | fileExists (file : Path)
  | fileSize (file : Path)

namespace Port

/-- The value of a call. Of the Drive results only success is used. -/
abbrev Answer : Port → Type
  | sendHtml .. | sendHtmlWithKeyboard .. | sendFile .. => Result MessageId
  | mirrorUrl .. | leechUrl .. => Result TaskId
  | incompleteTasks => Result (List Task)
  | updateUserSettings .. => Result UserSettingsRecord
  | updateBotSettings .. => Result BotSettingsRecord
  | rssAdd .. => Result Int
  | rssListForChat .. => Result (List RssFeed)
  | steadyNow => Time
  | fileExists .. => Except String Bool
  | fileSize .. => Except String Nat
  | _ => Result Unit

instance (c : Port) : Nonempty c.Answer := by
  cases c <;> first | exact ⟨(0 : Int)⟩ | exact ⟨Except.error default⟩ | exact ⟨Except.error ⟨.unknown, ""⟩⟩

/-- The command a call of `CancelTask`, `PauseTask` or `ResumeTask` `execute` belongs to. -/
def controls : Port → Option String
  | cancelTask _ => some "cancel"
  | pauseTask _ => some "pause"
  | resumeTask _ => some "resume"
  | _ => none

end Port

abbrev Action (α : Type) := Prog Port Port.Answer α

variable {α β : Type} {P : Port → Prop}

/-- `if (!r) co_return std::unexpected(r.error())`. -/
def onOk (r : Result α) (f : α → Action (Result β)) : Action (Result β) :=
  match r with
  | .error err => pure (.error err)
  | .ok a => f a

def discard (r : Result α) : Result Unit := r.map fun _ => ()

theorem onOk_only {r : Result α} {f : α → Action (Result β)} (hf : ∀ a, (f a).Only P) :
    (onOk r f).Only P := by
  cases r with
  | error err => exact .pure _
  | ok a => exact hf a

end Cmlb
