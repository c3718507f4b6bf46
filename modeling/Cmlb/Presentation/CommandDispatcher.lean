import Cmlb.Core.Text
import Cmlb.Presentation.Ports

/-!
# `CommandDispatcher`

The command table of `register_builtins_` and `dispatch`: aliases are resolved, the entry's
permission is checked against `Authority`, then its handler runs. The maps of the source have no
order that matters (`/help` sorts), so they are lists with distinct keys.
-/

namespace Cmlb

structure CommandRequest where
  command : String
  arguments : String
  fullText : String
  sender : UserId
  chat : ChatId
  sourceMessage : MessageId

/-- The blanks of `find_first_of(" \t\r\n")`. -/
def isBlank (c : Char) : Bool := c == ' ' || c == '\t' || c == '\r' || c == '\n'

def splitFirstToken (text : String) : String × String :=
  let (head, tail) := (text.toList.dropWhile isBlank).span (!isBlank ·)
  (String.ofList head, String.ofList (tail.dropWhile isBlank))

/-- What the handlers' captured `this` is used for: the authority, the registered commands and the
aliases. -/
structure This where
  authority : Authority
  commands : List CommandDescription
  aliases : List (String × String)

abbrev Handler := This → CommandRequest → Action (Result Unit)

/-- `CommandDispatcher::Entry`, with its key. -/
structure Entry where
  name : String
  required : Permission
  description : String
  handler : Handler

namespace CommandDispatcher

open Prog (ask)

/-- `send_html` of a usage hint or notice whose own failure is ignored, and the error returned. -/
def refuse (req : CommandRequest) (html : Html) (code : ErrorCode) (message : String) :
    Action (Result Unit) := do
  let _ ← ask (Port.sendHtml req.chat html)
  return .error ⟨code, message⟩

def reply (req : CommandRequest) (html : Html) : Action (Result Unit) := do
  let send ← ask (Port.sendHtml req.chat html)
  return discard send

/-! ### Commands with one mandatory argument -/

/-- `require_arg`, then the use case on the arguments. -/
def withArgument (name form message : String) (execute : CommandRequest → Action (Result Unit)) :
    Handler := fun _ req =>
  if req.arguments.isEmpty then refuse req (.usage name form) .invalidArgument message
  else execute req

def urlRequest (useQbittorrent : Bool) (req : CommandRequest) : Request :=
  { url := req.arguments, user := req.sender, chat := req.chat, useQbittorrent }

def driveRequest (req : CommandRequest) : DriveRequest := ⟨req.arguments, req.sender, req.chat⟩

def mirror : Handler := withArgument "mirror" "<url|magnet>" "/mirror requires a url" fun req => do
  let result ← ask (Port.mirrorUrl (urlRequest false req))
  return discard result

def qbmirror : Handler :=
  withArgument "qbmirror" "<magnet|torrent_url>" "/qbmirror requires a magnet/url" fun req => do
    let result ← ask (Port.mirrorUrl (urlRequest true req))
    return discard result

def leech : Handler := withArgument "leech" "<url|magnet>" "/leech requires a url" fun req => do
  let result ← ask (Port.leechUrl (urlRequest false req))
  return discard result

def qbleech : Handler :=
  withArgument "qbleech" "<magnet|torrent_url>" "/qbleech requires a magnet/url" fun req => do
    let result ← ask (Port.leechUrl (urlRequest true req))
    return discard result

def clone : Handler := withArgument "clone" "<drive_url>" "/clone requires a drive url" fun req =>
  ask (Port.cloneResource (driveRequest req))

def count : Handler := withArgument "count" "<drive_url>" "/count requires a drive url" fun req =>
  ask (Port.countResource (driveRequest req))

def del : Handler := withArgument "del" "<drive_url>" "/del requires a drive url" fun req =>
  ask (Port.deleteResource (driveRequest req))

/-! ### Commands on one task -/

/-- The task id is the first token of the arguments. -/
def onTask (name : String) (execute : TaskRequest → Action (Result Unit)) : Handler := fun _ req =>
  let head := (splitFirstToken req.arguments).1
  if head.isEmpty then
    refuse req (.usage name "<task_id>") .invalidArgument ("/" ++ name ++ " requires a task id")
  else execute ⟨⟨head⟩, req.chat⟩

def cancel : Handler := onTask "cancel" fun request => ask (Port.cancelTask request)

def pause : Handler := onTask "pause" fun request => ask (Port.pauseTask request)

def resume : Handler := onTask "resume" fun request => ask (Port.resumeTask request)

/-- The loop of `CancelTask::cancel_all`, with the two counters of its result. -/
def cancelEach (chat : ChatId) : List Task → Nat → Nat → Action (Nat × Nat)
  | [], cancelled, failed => return (cancelled, failed)
  | task :: rest, cancelled, failed =>
    if task.metadata.chat ≠ chat then cancelEach chat rest cancelled failed
    else do
      let outcome : Result Unit ← ask (Port.cancelTask ⟨task.metadata.id, chat⟩)
      match outcome with
      | .ok _ => cancelEach chat rest (cancelled + 1) failed
      | .error _ => cancelEach chat rest cancelled (failed + 1)

def cancelAll (chat : ChatId) : Action (Result (Nat × Nat)) := do
  let incomplete ← ask Port.incompleteTasks
  onOk incomplete fun tasks => do
    let result ← cancelEach chat tasks 0 0
    let _ ← ask (Port.sendHtml chat (.bulkCancel result.1 result.2))
    return .ok result

def cancelall : Handler := fun _ req => do
  let outcome ← cancelAll req.chat
  return discard outcome

def status : Handler := fun this req =>
  let head := (splitFirstToken req.arguments).1
  ask (Port.showStatus
    { user := req.sender, chat := req.chat
      taskId := if head.isEmpty then none else some ⟨head⟩
      includeAllUsers := this.authority.canRun req.sender req.chat .admin })

/-! ### Settings -/

def settingsKeyboard : InlineKeyboard :=
  [[("Cycle Upload Destination", "settings:upload:cycle"),
    ("Toggle Document Mode", "settings:doc:toggle")],
   [("Close", "close")]]

def settings : Handler := fun _ req => do
  let current ← ask (Port.updateUserSettings req.sender id)
  onOk current fun record => do
    let send ← ask (Port.sendHtmlWithKeyboard req.chat (.userSettings record) settingsKeyboard)
    return discard send

def botsettings : Handler := fun _ req => do
  let current ← ask (Port.updateBotSettings id)
  onOk current fun record => do
    let send ← ask (Port.sendHtmlWithKeyboard req.chat (.botSettings record) [[("Close", "close")]])
    return discard send

/-! ### Information -/

def describe (aliases : List (String × String)) (c : CommandDescription) : CommandDescription :=
  let shortcuts := ((aliases.filter (·.2 == c.name)).map (·.1)).mergeSort fun a b => decide (a ≤ b)
  if shortcuts.isEmpty then c
  else
    { c with
      description :=
        c.description ++ " (aliases: " ++ String.intercalate ", " (shortcuts.map ("/" ++ ·)) ++ ")" }

def listedBefore (a b : CommandDescription) : Bool :=
  if a.permission = b.permission then decide (a.name ≤ b.name)
  else a.permission.toNat < b.permission.toNat

def help : Handler := fun this req =>
  let runnable := this.commands.filter (this.authority.canRun req.sender req.chat ·.permission)
  reply req (.help ((runnable.map (describe this.aliases)).mergeSort listedBefore))

def start : Handler := fun _ req => reply req .greeting

def stats : Handler := fun _ req => do
  let report ← ask Port.showStats
  onOk report fun _ => reply req .stats

def version : Handler := fun _ req => reply req .version

def ping : Handler := fun _ req => do
  let start ← ask Port.steadyNow
  let send ← ask (Port.sendHtml req.chat (.heading "Pong"))
  onOk send fun msg => do
    let now ← ask Port.steadyNow
    -- nanosecond ticks, cast to milliseconds
    ask (Port.editHtml req.chat msg (.pong ((now - start).tdiv 1000000)))

def logPath : Path := "logs/cmlb.log"

def logSizeCap : Nat := 50 * 1024 * 1024

def log : Handler := fun _ req => do
  let found : Except String Bool ← ask (Port.fileExists logPath)
  match found with
  | .error _ | .ok false =>
    refuse req (.notice "Log Unavailable" "logs/cmlb.log was not found.") .io
      ("log file not found: " ++ logPath)
  | .ok true =>
    let size : Except String Nat ← ask (Port.fileSize logPath)
    match size with
    | .error message =>
      refuse req (.notice "Log Unavailable" ("Could not inspect logs/cmlb.log: " ++ message)) .io
        ("log stat failed: " ++ message)
    | .ok bytes =>
      if bytes > logSizeCap then
        refuse req (.logTooLarge bytes) .invalidArgument "log file too large to send"
      else do
        let send ← ask (Port.sendFile req.chat logPath "cmlb.log" none)
        return discard send

/-! ### RSS -/

def rssAdd (req : CommandRequest) (url : String) : Action (Result Unit) :=
  if url.isEmpty then refuse req (.usage "rss add" "<url>") .invalidArgument "/rss add requires a url"
  else do
    let added ← ask (Port.rssAdd { url, title := url, chat := req.chat })
    onOk added fun feedId =>
      reply req (.success "RSS Subscription Added" ("Feed id " ++ toString feedId ++ " is now active."))

def rssList (req : CommandRequest) : Action (Result Unit) := do
  let list ← ask (Port.rssListForChat req.chat)
  onOk list fun feeds => reply req (.rssSubscriptions feeds)

def rssRemove (req : CommandRequest) (tail : String) : Action (Result Unit) :=
  let head := (splitFirstToken tail).1
  if head.isEmpty then
    refuse req (.usage "rss remove" "<id>") .invalidArgument "/rss remove requires a feed id"
  else
    match stoll head with
    | none =>
      refuse req (.notice "RSS Error" "Feed id must be a number.") .invalidArgument
        "feed id is not a number"
    | some feedId => do
      let removed ← ask (Port.rssRemove feedId req.sender req.chat)
      onOk removed fun _ =>
        reply req (.success "RSS Subscription Removed" "Feed will no longer be polled.")

def rss : Handler := fun _ req =>
  let (sub, tail) := splitFirstToken req.arguments
  if sub = "add" then rssAdd req tail
  else if sub = "list" then rssList req
  else if sub = "remove" ∨ sub = "delete" ∨ sub = "del" then rssRemove req tail
  else refuse req (.usage "rss" "add <url> | list | remove <id>") .invalidArgument
    "unknown rss subcommand"

/-! ### The table and `dispatch` -/

/-- The `register_` calls of `register_builtins_`. -/
def commands : List Entry :=
  [⟨"mirror", .user, "Download a URL/magnet via aria2 and upload to GDrive/rclone.", mirror⟩,
   ⟨"qbmirror", .user, "Mirror via qBittorrent (use for torrents you intend to seed).", qbmirror⟩,
   ⟨"leech", .user, "Download via aria2 and upload back to this chat.", leech⟩,
   ⟨"qbleech", .user, "Leech via qBittorrent (use for torrents you intend to seed).", qbleech⟩,
   ⟨"clone", .user, "Server-side copy a GDrive file or folder to the configured parent.", clone⟩,
   ⟨"count", .user, "Recursively count files/folders/bytes in a GDrive resource.", count⟩,
   ⟨"del", .admin, "Delete a GDrive file or folder (trash, recoverable for 30 days).", del⟩,
   ⟨"cancel", .user, "Cancel a running task by id (see /status for ids).", cancel⟩,
   ⟨"cancelall", .admin, "Cancel every running task in this chat.", cancelall⟩,
   ⟨"pause", .user, "Pause a running task by id.", pause⟩,
   ⟨"resume", .user, "Resume a paused task by id.", resume⟩,
   ⟨"status", .user, "Show active tasks, or one task by id.", status⟩,
   ⟨"settings", .anyone, "View / change your per-user upload preferences.", settings⟩,
   ⟨"botsettings", .admin, "View / change bot-wide configuration (admins only).", botsettings⟩,
   ⟨"help", .anyone, "Show this list of commands.", help⟩,
   ⟨"start", .anyone, "Greet the bot and learn what it can do.", start⟩,
   ⟨"stats", .user, "CPU / RAM / disk usage and bot uptime.", stats⟩,
   ⟨"version", .anyone, "Show the running cmlb build version.", version⟩,
   ⟨"ping", .anyone, "Round-trip latency check against Telegram.", ping⟩,
   ⟨"log", .owner, "Upload the current cmlb.log file to this chat (owner only).", log⟩,
   ⟨"rss", .user, "Manage RSS feeds (subcommands: add, list, remove).", rss⟩]

/-- The `register_alias_` calls. -/
def aliases : List (String × String) :=
  [("m", "mirror"), ("qm", "qbmirror"), ("l", "leech"), ("ql", "qbleech")]

def this (authority : Authority) : This where
  authority := authority
  commands := commands.map fun e => ⟨e.name, e.description, e.required⟩
  aliases := aliases

def find (name : String) : Option Entry := commands.find? (·.name == name)

def resolve (command : String) : String := (aliases.lookup command).getD command

def requiredLabel : Permission → String
  | .anyone => "anyone"
  | .user => "authorized user"
  | .admin => "admin (sudo)"
  | .owner => "owner"

def dispatch (authority : Authority) (request : CommandRequest) : Action (Result Unit) :=
  let name := resolve request.command
  match find name with
  | none => refuse request (.unknownCommand name) .invalidArgument ("Unknown command: " ++ name)
  | some entry =>
    if authority.canRun request.sender request.chat entry.required then
      entry.handler (this authority) request
    else
      refuse request
        (.notice "Permission Denied"
          ("/" ++ name ++ " requires " ++ requiredLabel entry.required ++ " access."))
        .permissionDenied ("Sender lacks permission for command: " ++ name)

end CommandDispatcher

end Cmlb
