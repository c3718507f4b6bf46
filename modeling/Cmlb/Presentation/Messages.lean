import Cmlb.Application.ShowStatus
import Cmlb.Presentation.CommandDispatcher

/-!
# The messages as Telegram HTML

Every message that `HtmlRenderer` and `ShowStatus` compose has balanced tags, and the foreign strings
in it are escaped, exactly when the strings that go in without `escape_html` have nothing to escape
(`messages_wellFormed_iff`). These are three fields of `/settings`, the task id of the two replies of
`/status` that show one, and the command names of `/help`, which are the registered ones.
-/

namespace Cmlb

open Markup
open Markup.Piece (lit plain quoted raw)

/-! ### `ShowStatus` -/

namespace ShowStatus

variable (F : Fmt)

@[simp] theorem plain_taskState (s : TaskState) : escapeHtml.Plain s.toString := by
  cases s <;> decide

theorem renderMetricsFooter_sound (metrics : SystemSnapshot) (botUptime : Int) :
    Sound (renderMetricsFooter F metrics botUptime) := by
  have htitle : Sound [lit "<b><u>System</u></b>"] := ⟨fun _ => rfl, by simp⟩
  exact htitle.append (HtmlRenderer.metricsLines_sound F metrics botUptime)

theorem renderNoActiveTasks_sound (metrics : SystemSnapshot) (botUptime : Int) :
    Sound (renderNoActiveTasks F metrics botUptime) := by
  refine .append ?_ (renderMetricsFooter_sound F metrics botUptime)
  exact ⟨fun _ => rfl, by simp⟩

theorem renderDownloaderStatus_sound (status : DownloadStatus) (index : Nat) :
    Sound (renderDownloaderStatus F status index) := by
  refine .append ?_ (HtmlRenderer.progressLines_sound F status)
  exact ⟨fun _ => rfl, by simp⟩

theorem renderStatusList_sound (active : List DownloadStatus) (metrics : SystemSnapshot) (botUptime : Int) :
    Sound (renderStatusList F active metrics botUptime) := by
  have hfooter := renderMetricsFooter_sound F metrics botUptime
  refine .ite (renderNoActiveTasks_sound F metrics botUptime) ?_
  refine .append (.append (.append (.append ?_ ?_) (.ite ?_ .nil)) ?_) hfooter
  · exact ⟨fun _ => rfl, by simp⟩
  · refine .flatMap fun s _ => .append (.ite .nil ?_) (renderDownloaderStatus_sound F s.1 _)
    exact ⟨fun _ => rfl, by simp⟩
  · exact ⟨fun _ => rfl, by simp⟩
  · exact ⟨fun _ => rfl, by simp⟩

theorem renderTaskWithoutDownloader_sound (task : Task) (metrics : SystemSnapshot) (botUptime : Int) :
    Sound (renderTaskWithoutDownloader F task metrics botUptime) := by
  refine .append ?_ (renderMetricsFooter_sound F metrics botUptime)
  exact ⟨fun _ => rfl, by simp⟩

theorem renderNotFound_sound (id : TaskId) : Sound (renderNotFound id) :=
  ⟨fun _ => rfl, by simp [renderNotFound]⟩

end ShowStatus

/-! ### Every message -/

/-- A call of one of the `render_*` functions, or of one of `ShowStatus`. -/
inductive Message
  | heading (text : String)
  | code (text : String)
  | quote (text : String)
  | usage (command form : String)
  | success (title detail : String)
  | notice (title detail : String)
  | taskStatus (task : Task) (status : DownloadStatus)
  | status (active : List DownloadStatus) (metrics : SystemSnapshot) (botUptime : Int)
  | noActiveTasks (metrics : SystemSnapshot) (botUptime : Int)
  | stats (metrics : SystemSnapshot) (botUptime activeDownloads : Int)
      (unavailableDownloaders : List String)
  | help (commands : List CommandDescription)
  | rssSubscriptions (feeds : List RssFeed)
  | userSettings (settings : UserSettingsRecord)
  | botSettings (settings : BotSettingsRecord)
  | failure (stage : String) (error : AppError)
  | error (taskName : String) (error : AppError)
  | greeting (userFirstName : String)
  | statusList (active : List DownloadStatus) (metrics : SystemSnapshot) (botUptime : Int)
  | taskWithoutDownloader (task : Task) (metrics : SystemSnapshot) (botUptime : Int)
  | notFound (id : TaskId)

namespace Message

open HtmlRenderer

def pieces (F : Fmt) : Message → List Piece
  | heading text => renderHeading text
  | code text => renderCode text
  | quote text => renderQuote text
  | usage command form => renderUsage command form
  | success title detail => renderSuccess title detail
  | notice title detail => renderNotice title detail
  | taskStatus task s => renderTaskStatus F task s
  | status active metrics botUptime => renderStatus F active metrics botUptime
  | noActiveTasks metrics botUptime => renderNoActiveTasks F metrics botUptime
  | stats metrics botUptime activeDownloads unavailable =>
    renderStats F metrics botUptime activeDownloads unavailable
  | help commands => renderHelp commands
  | rssSubscriptions feeds => renderRssSubscriptions feeds
  | userSettings settings => renderUserSettings settings
  | botSettings settings => renderBotSettings F settings
  | failure stage err => renderFailure stage err
  | error taskName err => renderError taskName err
  | greeting userFirstName => renderGreeting userFirstName
  | statusList active metrics botUptime => ShowStatus.renderStatusList F active metrics botUptime
  | taskWithoutDownloader task metrics botUptime =>
    ShowStatus.renderTaskWithoutDownloader F task metrics botUptime
  | notFound id => ShowStatus.renderNotFound id

/-- The strings that are not escaped have nothing to escape. -/
def Safe : Message → Prop
  | help commands => ∀ cmd ∈ commands, NoMarkup cmd.name
  | userSettings settings => (∀ s ∈ settings.rcloneRemote, NoMarkup s) ∧
      (∀ s ∈ settings.gdriveFolderId, NoMarkup s) ∧ ∀ s ∈ settings.defaultThumbPath, NoMarkup s
  | taskWithoutDownloader task _ _ => NoMarkup task.metadata.id.value
  | notFound id => NoMarkup id.value
  | _ => True

theorem pieces_sound (F : Fmt) (m : Message) : Sound (m.pieces F) := by
  cases m with
  | heading text => exact renderHeading_sound text
  | code text => exact renderCode_sound text
  | quote text => exact renderQuote_sound text
  | usage command form => exact renderUsage_sound command form
  | success title detail => exact renderTitled_sound title detail
  | notice title detail => exact renderTitled_sound title detail
  | taskStatus task s => exact renderTaskStatus_sound F task s
  | status active metrics botUptime => exact renderStatus_sound F active metrics botUptime
  | noActiveTasks metrics botUptime => exact renderNoActiveTasks_sound F metrics botUptime
  | stats metrics botUptime activeDownloads unavailable => exact renderStats_sound F _ _ _ _
  | help commands => exact renderHelp_sound commands
  | rssSubscriptions feeds => exact renderRssSubscriptions_sound feeds
  | userSettings settings => exact renderUserSettings_sound settings
  | botSettings settings => exact renderBotSettings_sound F settings
  | failure stage err => exact renderFailure_sound stage err
  | error taskName err => exact renderError_sound taskName err
  | greeting userFirstName => exact renderGreeting_sound userFirstName
  | statusList active metrics botUptime => exact ShowStatus.renderStatusList_sound F _ _ _
  | taskWithoutDownloader task metrics botUptime =>
    exact ShowStatus.renderTaskWithoutDownloader_sound F _ _ _
  | notFound id => exact ShowStatus.renderNotFound_sound id

theorem noMarkup_getD (o : Option String) :
    NoMarkup (o.getD "(none)") ↔ ∀ s ∈ o, NoMarkup s := by
  cases o with
  | none =>
    have hnone : NoMarkup "(none)" := plain_iff_noMarkup.1 (by decide)
    simpa using hnone
  | some s => simp

section

variable (F : Fmt) (s : String)

@[simp] theorem raw_notMem_renderHeading (text : String) : raw s ∉ renderHeading text := by
  simp [renderHeading]

@[simp] theorem raw_notMem_renderCode (text : String) : raw s ∉ renderCode text := by
  simp [renderCode]

@[simp] theorem raw_notMem_renderQuote (text : String) : raw s ∉ renderQuote text := by
  simp [renderQuote]

@[simp] theorem raw_notMem_metricsLines (metrics : SystemSnapshot) (botUptime : Int) :
    raw s ∉ metricsLines F metrics botUptime := by
  simp [metricsLines]

@[simp] theorem raw_notMem_progressLines (status : DownloadStatus) :
    raw s ∉ progressLines F status := by
  simp [progressLines]

@[simp] theorem raw_notMem_renderMetricsFooter (metrics : SystemSnapshot) (botUptime : Int) :
    raw s ∉ renderMetricsFooter F metrics botUptime := by
  simp [renderMetricsFooter]

@[simp] theorem raw_notMem_renderNoActiveTasks (metrics : SystemSnapshot) (botUptime : Int) :
    raw s ∉ renderNoActiveTasks F metrics botUptime := by
  simp [renderNoActiveTasks]

@[simp] theorem raw_notMem_renderTitled (title detail : String) : raw s ∉ renderTitled title detail := by
  unfold renderTitled
  split <;> simp

@[simp] theorem raw_notMem_renderIdList (ids : List Int) : raw s ∉ renderIdList ids := by
  unfold renderIdList
  split <;> simp

variable {s}

@[simp] theorem raw_mem_helpEntry {cmd : CommandDescription} : raw s ∈ helpEntry cmd ↔ s = cmd.name := by
  simp [helpEntry]

end

theorem raw_plain_iff (F : Fmt) (m : Message) :
    (∀ s, raw s ∈ m.pieces F → escapeHtml.Plain s) ↔ m.Safe := by
  cases m with
  | heading text => simp [pieces, Safe]
  | code text => simp [pieces, Safe]
  | quote text => simp [pieces, Safe]
  | usage command form => simp [pieces, Safe, renderUsage]
  | success title detail => simp [pieces, Safe, renderSuccess]
  | notice title detail => simp [pieces, Safe, renderNotice]
  | taskStatus task s => simp [pieces, Safe, renderTaskStatus]
  | status active metrics botUptime =>
    simp only [pieces, Safe, renderStatus]
    split <;> simp [statusEntry]
  | noActiveTasks metrics botUptime => simp [pieces, Safe]
  | stats metrics botUptime activeDownloads unavailable =>
    simp [pieces, Safe, renderStats, joinedNames]
  | help commands =>
    have hraw {s : String} : raw s ∈ renderHelp commands ↔ ∃ cmd ∈ commands, s = cmd.name := by
      simp [renderHelp]
    simp only [pieces, Safe, hraw]
    constructor
    · intro h cmd hcmd
      exact plain_iff_noMarkup.1 (h cmd.name ⟨cmd, hcmd, rfl⟩)
    · rintro h s ⟨cmd, hcmd, rfl⟩
      exact plain_iff_noMarkup.2 (h cmd hcmd)
  | rssSubscriptions feeds =>
    simp only [pieces, Safe, renderRssSubscriptions]
    split <;> simp [feedEntry]
  | userSettings settings =>
    simp [pieces, Safe, renderUserSettings, plain_iff_noMarkup, noMarkup_getD]
  | botSettings settings => simp [pieces, Safe, renderBotSettings]
  | failure stage err => simp [pieces, Safe, renderFailure]
  | error taskName err => simp [pieces, Safe, renderError]
  | greeting userFirstName => simp [pieces, Safe, renderGreeting]
  | statusList active metrics botUptime =>
    simp only [pieces, Safe, ShowStatus.renderStatusList]
    split <;> simp [ShowStatus.renderNoActiveTasks, ShowStatus.renderMetricsFooter,
      ShowStatus.renderDownloaderStatus]
  | taskWithoutDownloader task metrics botUptime =>
    simp [pieces, Safe, ShowStatus.renderTaskWithoutDownloader, ShowStatus.renderMetricsFooter,
      plain_iff_noMarkup]
  | notFound id => simp [pieces, Safe, ShowStatus.renderNotFound, plain_iff_noMarkup]

/-- The messages that `ShowStatus` sends for a request. -/
def SentFor (request : StatusRequest) : Message → Prop
  | statusList .. | taskWithoutDownloader .. => True
  | notFound id => request.taskId = some id
  | _ => False

end Message

namespace ShowStatus

variable {F : Fmt} {botStartTime : Int} {request : StatusRequest}

/-- A message that may be sent, if the call is to send one. -/
def SendsMessage (F : Fmt) (request : StatusRequest) (c : Call) : Prop :=
  ∀ chat text, c = .sendHtml chat text → ∃ m : Message, m.SentFor request ∧ text = html (m.pieces F)

theorem sendsMessage {m : Message} (hm : m.SentFor request) (chat : ChatId) :
    SendsMessage F request (.sendHtml chat (html (m.pieces F))) := by
  intro chat' text h
  cases h
  exact ⟨m, hm, rfl⟩

theorem showTask_only {id : TaskId} (hid : request.taskId = some id) (snapshot : SystemSnapshot)
    (uptime : Int) : (showTask F request id snapshot uptime).Only (SendsMessage F request) := by
  refine .ask_bind (by simp [SendsMessage]) fun loaded => ?_
  rcases loaded with err | _ | task
  · exact .pure _
  · have hsent : SendsMessage F request (.sendHtml request.chat (html (renderNotFound id))) :=
      sendsMessage (m := .notFound id) hid request.chat
    exact (send_only _ _ hsent).bind fun _ => .pure _
  · dsimp only
    split
    · exact .pure _
    · split
      · exact send_only _ _ (sendsMessage (m := .taskWithoutDownloader task snapshot uptime) trivial _)
      · refine .ask_bind (by simp [SendsMessage]) fun status => ?_
        cases status with
        | error err => exact .pure _
        | ok status =>
          exact send_only _ _ (sendsMessage (m := .statusList [status] snapshot uptime) trivial _)

theorem execute_only : (execute F botStartTime request).Only (SendsMessage F request) := by
  refine .ask_bind (by simp [SendsMessage]) fun snapshot => .ask_bind (by simp [SendsMessage]) fun now => ?_
  dsimp only
  split
  · exact showTask_only ‹_› _ _
  · refine .ask_bind (by simp [SendsMessage]) fun incomplete => ?_
    cases incomplete with
    | error err => exact .pure _
    | ok tasks =>
      exact showTasks_only (by simp [SendsMessage])
        (fun active => sendsMessage (m := .statusList active snapshot _) trivial _) tasks

end ShowStatus

/-- Every message is balanced, with the foreign strings in it escaped, exactly when the strings that
are not escaped have none of the three characters; and `ShowStatus` sends such messages only. -/
theorem messages_wellFormed_iff (F : Fmt) :
    (∀ m : Message, WellFormed escapeHtml (m.pieces F) ↔ m.Safe) ∧
    ∀ botStartTime request calls result,
      (ShowStatus.execute F botStartTime request).Trace calls result →
      ∀ chat text, .sendHtml chat text ∈ calls →
      ∃ m : Message, m.SentFor request ∧ text = html (m.pieces F) := by
  refine ⟨fun m => (m.pieces_sound F).wellFormed_iff.trans (m.raw_plain_iff F), ?_⟩
  intro botStartTime request calls result htrace chat text hcall
  exact ShowStatus.execute_only.trace htrace _ hcall chat text rfl

/-- `/status <b>`: the reply opens a tag that is never closed. -/
theorem notFound_unbalanced : ∃ calls result text,
    (ShowStatus.execute Fmt.zero 0 ⟨⟨1⟩, ⟨5⟩, some ⟨"<b>"⟩, false⟩).Trace calls result ∧
    .sendHtml ⟨5⟩ text ∈ calls ∧
    text = "<b><u>Status</u></b>\n<b>Task:</b> <code><b></code>\n" ++
      "<blockquote>Task was not found.</blockquote>" ∧
    ¬ Balanced text := by
  have htrace : (ShowStatus.execute Fmt.zero 0 ⟨⟨1⟩, ⟨5⟩, some ⟨"<b>"⟩, false⟩).Trace
      [.snapshot, .steadyNow, .find ⟨"<b>"⟩, .sendHtml ⟨5⟩ (html (ShowStatus.renderNotFound ⟨"<b>"⟩))]
      (.error ⟨.notFound, "status: task not found"⟩) :=
    .call {} (.call (0 : Int) (.call (.ok none) (.call (.ok ⟨1⟩) (.pure _))))
  exact ⟨_, _, html (ShowStatus.renderNotFound ⟨"<b>"⟩), htrace, by simp, by decide +kernel,
    by decide +kernel⟩

/-- The registered names need no escaping. -/
theorem help_safe (aliases : List (String × String)) (shown : CommandDescription → Bool)
    (authority : Authority) :
    (Message.help ((((CommandDispatcher.this authority).commands.filter shown).map
      (CommandDispatcher.describe aliases)).mergeSort CommandDispatcher.listedBefore)).Safe := by
  have hnames : ∀ name ∈ CommandDispatcher.commands.map (·.name), escapeHtml.Plain name := by
    decide +kernel
  intro cmd hcmd
  simp only [List.mem_mergeSort, List.mem_map, List.mem_filter] at hcmd
  obtain ⟨c, ⟨hc, -⟩, rfl⟩ := hcmd
  obtain ⟨e, he, rfl⟩ := List.mem_map.1 hc
  have hname : (CommandDispatcher.describe aliases ⟨e.name, e.description, e.required⟩).name = e.name := by
    unfold CommandDispatcher.describe
    dsimp only
    split <;> rfl
  rw [hname]
  exact plain_iff_noMarkup.1 (hnames e.name (List.mem_map_of_mem he))

end Cmlb
