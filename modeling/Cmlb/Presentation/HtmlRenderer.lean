import Cmlb.Core.Formatting
import Cmlb.Presentation.Ports

/-!
# `HtmlRenderer`

A message is the list of pieces that `fmt::format` and `append` put together: the literals of the
source with their tags, numbers and labels (`plain`), and the strings that come from users and from
the network, either through `escape_html` (`quoted`) or as they are (`raw`). `html` is its text.
-/

namespace Cmlb

open Markup
open Markup.Piece (lit plain quoted raw)

abbrev html (ps : List Piece) : String := body escapeHtml ps

abbrev Sound (ps : List Piece) : Prop := Markup.Sound escapeHtml ps

namespace HtmlRenderer

def kindLabel : TaskKind → String
  | .mirror => "Mirror"
  | .leech => "Leech"
  | .clone => "Clone"

def renderHeading (text : String) : List Piece := [lit "<b><u>", quoted text, lit "</u></b>"]

def renderCode (text : String) : List Piece := [lit "<code>", quoted text, lit "</code>"]

def renderQuote (text : String) : List Piece := [lit "<blockquote>", quoted text, lit "</blockquote>"]

def renderUsage (command form : String) : List Piece :=
  let normalized := match command.toList with
    | '/' :: rest => String.ofList rest
    | _ => command
  renderHeading "Usage" ++ [lit "\n"] ++ renderCode ("/" ++ normalized ++ " " ++ form)

/-- The body of `render_success` and `render_notice`. -/
def renderTitled (title detail : String) : List Piece :=
  if detail.isEmpty then renderHeading title
  else renderHeading title ++ [lit "\n"] ++ renderQuote detail

def renderSuccess : String → String → List Piece := renderTitled

def renderNotice : String → String → List Piece := renderTitled

variable (F : Fmt)

/-- The footer after its heading; `ShowStatus` has the same text. -/
def metricsLines (metrics : SystemSnapshot) (botUptime : Int) : List Piece :=
  [lit "\n<b>CPU:</b> <code>", plain (F.fixed 1 metrics.cpuUsagePercent),
    lit "%</code> | <b>RAM:</b> <code>", plain (formatBytes F metrics.ramUsedBytes),
    lit "/", plain (formatBytes F metrics.ramTotalBytes),
    lit "</code> | <b>Disk:</b> <code>", plain (formatBytes F metrics.diskUsedBytes),
    lit "/", plain (formatBytes F metrics.diskTotalBytes),
    lit "</code>\n<b>Bot uptime:</b> <code>", plain (formatDuration botUptime), lit "</code>"]

def renderMetricsFooter (metrics : SystemSnapshot) (botUptime : Int) : List Piece :=
  renderHeading "System" ++ metricsLines F metrics botUptime

/-- The lines on the progress of a download, the same in every status message. -/
def progressLines (status : DownloadStatus) : List Piece :=
  let fraction :=
    if 0 < status.totalBytes then Float.ofInt status.downloadedBytes / Float.ofInt status.totalBytes
    else 0.0
  [plain (renderProgressBar fraction), lit " <code>", plain (formatPercent F fraction),
    lit "</code>\n<b>Size:</b> <code>", plain (formatBytes F status.downloadedBytes),
    lit " / ", plain (formatBytes F status.totalBytes),
    lit "</code>\n<b>Rate:</b> <code>", plain (formatRate F status.downloadSpeedBps),
    lit "</code> | <b>ETA:</b> <code>", plain (formatEta status.eta),
    lit "</code>\n<b>State:</b> <code>", plain status.state.toString, lit "</code>"]

def renderTaskStatus (task : Task) (status : DownloadStatus) : List Piece :=
  let name := if status.name.isEmpty then task.metadata.sourceUrl else status.name
  renderHeading (kindLabel task.metadata.kind) ++ [lit "\n"] ++ renderQuote name ++ [lit "\n"] ++
    progressLines F status

def renderNoActiveTasks (metrics : SystemSnapshot) (botUptime : Int) : List Piece :=
  renderHeading "Status" ++ [lit "\n"] ++
    renderQuote "No active tasks. New mirror and leech jobs will appear here." ++ [lit "\n\n"] ++
    renderMetricsFooter F metrics botUptime

def maxRenderedTasks : Nat := 10

/-- The `i`-th entry of `render_status`. -/
def statusEntry (status : DownloadStatus) (i : Nat) : List Piece :=
  [lit "<b>", plain (toString (i + 1)), lit ".</b> <code>", quoted status.name, lit "</code>\n"] ++
    progressLines F status ++ [lit "\n\n"]

def renderStatus (active : List DownloadStatus) (metrics : SystemSnapshot) (botUptime : Int) :
    List Piece :=
  if active.isEmpty then renderNoActiveTasks F metrics botUptime
  else
    renderHeading "Active Tasks" ++ [lit "\n"] ++
    ((active.take maxRenderedTasks).zipIdx.flatMap fun s => statusEntry F s.1 s.2) ++
    (if maxRenderedTasks < active.length then
      [lit "<i>... and ", plain (toString (active.length - maxRenderedTasks)),
        lit " more task(s)</i>\n\n"]
    else []) ++
    renderMetricsFooter F metrics botUptime

/-- The names with `", "` between them. -/
def joinedNames (names : List String) : List Piece :=
  names.zipIdx.flatMap fun n => (if n.2 = 0 then [] else [lit ", "]) ++ [quoted n.1]

def renderStats (metrics : SystemSnapshot) (botUptime activeDownloads : Int)
    (unavailableDownloaders : List String) : List Piece :=
  let degradedLine :=
    if unavailableDownloaders.isEmpty then []
    else [lit "<b>Unavailable downloaders:</b> <code>"] ++ joinedNames unavailableDownloaders ++
      [lit "</code>\n"]
  (renderHeading "Bot Statistics" ++ [lit "\n"] ++
      renderQuote "Live process and host-resource snapshot." ++
      [lit "\n<b>Active downloads:</b> <code>", plain (toString activeDownloads), lit "</code>\n"]) ++
    degradedLine ++
    [lit "<b>Bot uptime:</b> <code>", plain (formatDuration botUptime),
      lit "</code>\n<b>System uptime:</b> <code>", plain (formatDuration metrics.systemUptime),
      lit "</code>\n<b>CPU:</b> <code>", plain (F.fixed 1 metrics.cpuUsagePercent),
      lit "%</code>\n<b>RAM:</b> <code>", plain (formatBytes F metrics.ramUsedBytes),
      lit " / ", plain (formatBytes F metrics.ramTotalBytes),
      lit "</code>\n<b>Disk:</b> <code>", plain (formatBytes F metrics.diskUsedBytes),
      lit " / ", plain (formatBytes F metrics.diskTotalBytes),
      lit "</code>\n<b>Load avg:</b> <code>", plain (F.fixed 2 metrics.loadAverage1m),
      lit " / ", plain (F.fixed 2 metrics.loadAverage5m),
      lit " / ", plain (F.fixed 2 metrics.loadAverage15m), lit "</code>"]

def helpEntry (cmd : CommandDescription) : List Piece :=
  [lit "<code>/", raw cmd.name, lit "</code> <i>(", plain cmd.permission.toString, lit ")</i>"] ++
    (if cmd.description.isEmpty then [] else [lit " ", quoted cmd.description]) ++ [lit "\n"]

def renderHelp (commands : List CommandDescription) : List Piece :=
  (renderHeading "Available Commands" ++ [lit "\n"] ++
      renderQuote "Only commands available to your permission level are shown." ++ [lit "\n"]) ++
    commands.flatMap helpEntry

def maxRenderedFeeds : Nat := 20

def feedEntry (feed : RssFeed) : List Piece :=
  let titleSource := if feed.title.isEmpty then feed.url else feed.title
  [lit "<code>", plain (toString feed.feedId), lit "</code> <b>",
    quoted (truncateForDisplay titleSource 80), lit "</b>\n<code>",
    quoted (truncateForDisplay feed.url 120), lit "</code>\n"]

def renderRssSubscriptions (feeds : List RssFeed) : List Piece :=
  (renderHeading "RSS Subscriptions" ++ [lit "\n"]) ++
    if feeds.isEmpty then renderQuote "No feeds are configured for this chat."
    else
      (renderQuote "Feeds watched for this chat." ++ [lit "\n"]) ++
      (feeds.take maxRenderedFeeds).flatMap feedEntry ++
      if maxRenderedFeeds < feeds.length then
        [lit "<i>... and ", plain (toString (feeds.length - maxRenderedFeeds)), lit " more feed(s)</i>\n"]
      else []

def renderUserSettings (settings : UserSettingsRecord) : List Piece :=
  renderHeading "User Settings" ++ [lit "\n"] ++
    renderQuote "Personal defaults used for new mirror and leech tasks." ++
    [lit "\n<b>User id:</b> <code>", plain (toString settings.userId.value),
      lit "</code>\n<b>Leech destination:</b> <code>", plain settings.leechDestination.toString,
      lit "</code>\n<b>Mirror destination:</b> <code>", plain settings.mirrorDestination.toString,
      lit "</code>\n<b>Upload as document:</b> <code>",
      plain (if settings.uploadAsDocument then "yes" else "no"),
      lit "</code>\n<b>Rclone remote:</b> <code>", raw (settings.rcloneRemote.getD "(none)"),
      lit "</code>\n<b>GDrive folder id:</b> <code>", raw (settings.gdriveFolderId.getD "(none)"),
      lit "</code>\n<b>Default thumbnail:</b> <code>", raw (settings.defaultThumbPath.getD "(none)"),
      lit "</code>"]

def maxInline : Nat := 8

def renderIdList (ids : List Int) : List Piece :=
  if ids.isEmpty then [lit "<i>(none)</i>"]
  else
    ((ids.take maxInline).zipIdx.flatMap fun id =>
      (if id.2 = 0 then [] else [lit ", "]) ++ [lit "<code>", plain (toString id.1), lit "</code>"]) ++
    if maxInline < ids.length then
      [lit " <i>(+", plain (toString (ids.length - maxInline)), lit " more)</i>"]
    else []

def renderBotSettings (settings : BotSettingsRecord) : List Piece :=
  (renderHeading "Bot Settings" ++ [lit "\n"] ++
      renderQuote "Global controls for access, paths, limits, and polling." ++
      [lit "\n<b>Owner id:</b> <code>", plain (toString settings.ownerId),
        lit "</code>\n<b>Sudo users (", plain (toString settings.sudoUsers.length), lit "):</b> "]) ++
    renderIdList settings.sudoUsers ++
    [lit "\n<b>Authorized chats (", plain (toString settings.authorizedChats.length), lit "):</b> "] ++
    renderIdList settings.authorizedChats ++
    [lit "\n<b>Download dir:</b> <code>", quoted settings.downloadDir,
      lit "</code>\n<b>Leech split size:</b> <code>", plain (formatBytes F settings.leechSplitSize),
      lit "</code>\n<b>Upload limit:</b> <code>",
      plain (if settings.uploadLimitBytes = 0 then "unlimited"
        else formatBytes F settings.uploadLimitBytes),
      lit "</code>\n<b>Status update interval:</b> <code>", plain (toString settings.statusUpdateInterval),
      lit " ms</code>\n<b>RSS poll interval:</b> <code>", plain (toString settings.rssPollInterval),
      lit " ms</code>"]

def internalPrefixes : List String :=
  ["downloader add_uri: ", "downloader status: ", "download error: ", "upload: ", "mark_failed: "]

/-- The message without the first of the internal prefixes that it starts with. -/
def stripInternal (detail : String) : String :=
  match internalPrefixes.find? fun p => p.toList.isPrefixOf detail.toList with
  | some p => String.ofList (detail.toList.drop p.length)
  | none => detail

def renderFailure (stage : String) (error : AppError) : List Piece :=
  renderHeading "Failed" ++ [lit "\n<b>Stage:</b> <code>", quoted stage,
    lit "</code>\n<b>Reason:</b> ", quoted (friendlyErrorLabel error.code), lit "\n"] ++
    renderQuote (truncateForDisplay (stripInternal error.message) 512)

def renderError (taskName : String) (error : AppError) : List Piece :=
  renderHeading "Error" ++ [lit "\n<b>Task:</b> <code>", quoted taskName,
    lit "</code>\n<b>Reason:</b> ", quoted (friendlyErrorLabel error.code), lit "\n"] ++
    renderQuote (truncateForDisplay error.message 512)

def renderGreeting (userFirstName : String) : List Piece :=
  let who := if userFirstName.isEmpty then "there" else userFirstName
  renderHeading ("Hello, " ++ who ++ "!") ++ [lit "\n"] ++
    renderQuote "High-speed mirror and leech orchestration for Telegram." ++
    [lit "\n\nSend a URL, magnet link, or torrent file with <code>/mirror</code> ",
      lit "to upload to cloud storage, or <code>/leech</code> to receive it ",
      lit "back in this chat.\n\n",
      lit "Type <code>/help</code> for the full command list and ",
      lit "<code>/settings</code> to configure your preferences."]

/-! ### Tags

The literals of every message are balanced, and what stands for plain text is plain. -/

attribute [simp] Fmt.plain

@[simp] theorem plain_downloadState (s : DownloadState) : escapeHtml.Plain s.toString := by
  cases s <;> decide

@[simp] theorem plain_destination (d : UploadDestination) : escapeHtml.Plain d.toString := by
  cases d <;> decide

@[simp] theorem plain_permission (p : Permission) : escapeHtml.Plain p.toString := by
  cases p <;> decide

@[simp] theorem plain_ite {p : Prop} [Decidable p] {s t : String} (hs : escapeHtml.Plain s)
    (ht : escapeHtml.Plain t) : escapeHtml.Plain (if p then s else t) := by
  split <;> assumption

theorem renderHeading_sound (text : String) : Sound (renderHeading text) :=
  ⟨fun _ => rfl, by simp [renderHeading]⟩

theorem renderCode_sound (text : String) : Sound (renderCode text) :=
  ⟨fun _ => rfl, by simp [renderCode]⟩

theorem renderQuote_sound (text : String) : Sound (renderQuote text) :=
  ⟨fun _ => rfl, by simp [renderQuote]⟩

theorem newline_sound : Sound [lit "\n"] := ⟨fun _ => rfl, by simp⟩

theorem metricsLines_sound (metrics : SystemSnapshot) (botUptime : Int) :
    Sound (metricsLines F metrics botUptime) :=
  ⟨fun _ => rfl, by simp [metricsLines]⟩

theorem renderMetricsFooter_sound (metrics : SystemSnapshot) (botUptime : Int) :
    Sound (renderMetricsFooter F metrics botUptime) :=
  (renderHeading_sound _).append (metricsLines_sound F metrics botUptime)

theorem progressLines_sound (status : DownloadStatus) : Sound (progressLines F status) :=
  ⟨fun _ => rfl, by simp [progressLines]⟩

theorem renderUsage_sound (command form : String) : Sound (renderUsage command form) :=
  ((renderHeading_sound _).append newline_sound).append (renderCode_sound _)

theorem renderTitled_sound (title detail : String) : Sound (renderTitled title detail) :=
  .ite (renderHeading_sound _)
    (((renderHeading_sound _).append newline_sound).append (renderQuote_sound _))

theorem renderTaskStatus_sound (task : Task) (status : DownloadStatus) :
    Sound (renderTaskStatus F task status) := by
  have hname (name : String) := (newline_sound.append (renderQuote_sound name)).append newline_sound
  simpa [renderTaskStatus] using
    ((renderHeading_sound _).append (hname _)).append (progressLines_sound F status)

theorem renderNoActiveTasks_sound (metrics : SystemSnapshot) (botUptime : Int) :
    Sound (renderNoActiveTasks F metrics botUptime) := by
  refine .append ?_ (renderMetricsFooter_sound F metrics botUptime)
  exact ⟨fun _ => rfl, by simp [renderHeading, renderQuote]⟩

theorem statusEntry_sound (status : DownloadStatus) (i : Nat) : Sound (statusEntry F status i) := by
  refine .append (.append ?_ (progressLines_sound F status)) ?_
  · exact ⟨fun _ => rfl, by simp⟩
  · exact ⟨fun _ => rfl, by simp⟩

theorem renderStatus_sound (active : List DownloadStatus) (metrics : SystemSnapshot) (botUptime : Int) :
    Sound (renderStatus F active metrics botUptime) := by
  refine .ite (renderNoActiveTasks_sound F metrics botUptime) ?_
  refine .append (.append (.append ?_ ?_) (.ite ?_ .nil)) (renderMetricsFooter_sound F metrics botUptime)
  · exact (renderHeading_sound _).append newline_sound
  · exact .flatMap fun s _ => statusEntry_sound F s.1 s.2
  · exact ⟨fun _ => rfl, by simp⟩

theorem joinedNames_sound (names : List String) : Sound (joinedNames names) := by
  refine .flatMap fun n _ => .append (.ite .nil ?_) ?_
  · exact ⟨fun _ => rfl, by simp⟩
  · exact ⟨fun _ => rfl, by simp⟩

theorem renderStats_sound (metrics : SystemSnapshot) (botUptime activeDownloads : Int)
    (unavailableDownloaders : List String) :
    Sound (renderStats F metrics botUptime activeDownloads unavailableDownloaders) := by
  refine .append (.append ?_ (.ite .nil (.insert ?_ (joinedNames_sound _) ?_))) ?_
  · exact ⟨fun _ => rfl, by simp [renderHeading, renderQuote]⟩
  · exact ⟨fun _ => rfl, by simp⟩
  · exact fun _ => ⟨_, rfl⟩
  · exact ⟨fun _ => rfl, by simp⟩

theorem renderHelp_sound (commands : List CommandDescription) : Sound (renderHelp commands) := by
  refine .append ?_ (.flatMap fun cmd _ => .append (.append ?_ (.ite .nil ?_)) newline_sound)
  · exact ⟨fun _ => rfl, by simp [renderHeading, renderQuote]⟩
  · exact ⟨fun _ => rfl, by simp⟩
  · exact ⟨fun _ => rfl, by simp⟩

theorem renderRssSubscriptions_sound (feeds : List RssFeed) : Sound (renderRssSubscriptions feeds) := by
  refine .append ((renderHeading_sound _).append newline_sound) (.ite (renderQuote_sound _) ?_)
  refine .append (.append ((renderQuote_sound _).append newline_sound) (.flatMap fun feed _ => ?_))
    (.ite ?_ .nil)
  · exact ⟨fun _ => rfl, by simp [feedEntry]⟩
  · exact ⟨fun _ => rfl, by simp⟩

theorem renderUserSettings_sound (settings : UserSettingsRecord) :
    Sound (renderUserSettings settings) := by
  have hdoc : escapeHtml.Plain (if settings.uploadAsDocument then "yes" else "no") :=
    plain_ite (by decide) (by decide)
  exact ⟨fun _ => rfl, by simp [renderUserSettings, renderHeading, renderQuote, hdoc]⟩

theorem renderIdList_sound (ids : List Int) : Sound (renderIdList ids) := by
  refine .ite ⟨fun _ => rfl, by simp⟩ (.append (.flatMap fun id _ => .append (.ite .nil ?_) ?_) (.ite ?_ .nil))
  · exact ⟨fun _ => rfl, by simp⟩
  · exact ⟨fun _ => rfl, by simp⟩
  · exact ⟨fun _ => rfl, by simp⟩

theorem renderBotSettings_sound (settings : BotSettingsRecord) : Sound (renderBotSettings F settings) := by
  have hlimit : escapeHtml.Plain (if settings.uploadLimitBytes = 0 then "unlimited"
      else formatBytes F settings.uploadLimitBytes) :=
    plain_ite (by decide) (plain_formatBytes F _)
  refine .append (.append (.append (.append ?_ (renderIdList_sound _)) ?_) (renderIdList_sound _)) ?_
  · exact ⟨fun _ => rfl, by simp [renderHeading, renderQuote]⟩
  · exact ⟨fun _ => rfl, by simp⟩
  · exact ⟨fun _ => rfl, by simp [hlimit]⟩

theorem renderFailure_sound (stage : String) (error : AppError) : Sound (renderFailure stage error) :=
  ⟨fun _ => rfl, by simp [renderFailure, renderHeading, renderQuote]⟩

theorem renderError_sound (taskName : String) (error : AppError) : Sound (renderError taskName error) :=
  ⟨fun _ => rfl, by simp [renderError, renderHeading, renderQuote]⟩

theorem renderGreeting_sound (userFirstName : String) : Sound (renderGreeting userFirstName) :=
  ⟨fun _ => rfl, by simp [renderGreeting, renderHeading, renderQuote]⟩

end HtmlRenderer

end Cmlb
