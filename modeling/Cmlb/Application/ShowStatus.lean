import Cmlb.Lib.Prog
import Cmlb.Presentation.HtmlRenderer

/-!
# `ShowStatus::execute`

The status of one task, or of every task that the requester may see. The list is made from the
tasks of the requester alone: two repositories that differ in other tasks only are the same to it
(`list_depends_on_visible`).
-/

namespace Cmlb

namespace ShowStatus

open Markup
open Markup.Piece (lit plain quoted raw)
open Prog (ask)

inductive Call
  | snapshot
  | steadyNow
  | find (id : TaskId)
  | incomplete
  | status (downloader : DownloaderKind) (gid : Gid)
  | sendHtml (chat : ChatId) (text : String)
deriving DecidableEq

namespace Call

abbrev Answer : Call → Type
  | snapshot => SystemSnapshot
  | steadyNow => Int
  | find _ => Result (Option Task)
  | incomplete => Result (List Task)
  | status .. => Result DownloadStatus
  | sendHtml .. => Result MessageId

end Call

abbrev Action (α : Type) := Prog Call Call.Answer α

def visibleToRequest (request : StatusRequest) (task : Task) : Bool :=
  task.metadata.chat = request.chat && (request.includeAllUsers || task.metadata.user = request.user)

/-- `downloader_for`; there is none for `DownloaderKind::None`. -/
def downloaderFor : DownloaderKind → Option DownloaderKind
  | .none => none
  | kind => some kind

/-- The downloader of the task and its id there, when it has both. -/
def binding (task : Task) : Option (DownloaderKind × Gid) := do
  let gid ← task.downloaderId
  let downloader ← downloaderFor task.downloaderKind
  return (downloader, gid)

variable (F : Fmt)

def renderMetricsFooter (metrics : SystemSnapshot) (botUptime : Int) : List Piece :=
  lit "<b><u>System</u></b>" :: HtmlRenderer.metricsLines F metrics botUptime

def renderNoActiveTasks (metrics : SystemSnapshot) (botUptime : Int) : List Piece :=
  [lit "<b><u>Status</u></b>\n<blockquote>No active tasks. New mirror and leech jobs will appear ",
    lit "here.</blockquote>\n\n"] ++ renderMetricsFooter F metrics botUptime

def renderDownloaderStatus (status : DownloadStatus) (index : Nat) : List Piece :=
  let name := if status.name.isEmpty then "(unnamed download)" else status.name
  [lit "<b>", plain (toString index), lit ".</b> <code>", quoted name, lit "</code>\n"] ++
    HtmlRenderer.progressLines F status

def maxRenderedTasks : Nat := 10

def renderStatusList (active : List DownloadStatus) (metrics : SystemSnapshot) (botUptime : Int) :
    List Piece :=
  if active.isEmpty then renderNoActiveTasks F metrics botUptime
  else
    [lit "<b><u>Active Tasks</u></b>\n"] ++
    ((active.take maxRenderedTasks).zipIdx.flatMap fun s =>
      (if s.2 = 0 then [] else [lit "\n\n"]) ++ renderDownloaderStatus F s.1 (s.2 + 1)) ++
    (if maxRenderedTasks < active.length then
      [lit "\n\n<i>... and ", plain (toString (active.length - maxRenderedTasks)),
        lit " more task(s)</i>"]
    else []) ++
    [lit "\n\n"] ++ renderMetricsFooter F metrics botUptime

def renderTaskWithoutDownloader (task : Task) (metrics : SystemSnapshot) (botUptime : Int) :
    List Piece :=
  [lit "<b><u>Task Status</u></b>\n<b>Task:</b> <code>", raw task.metadata.id.value,
    lit "</code>\n<b>State:</b> <code>", plain task.state.toString,
    lit "</code>\n<b>Source:</b>\n<blockquote>", quoted (truncateForDisplay task.metadata.sourceUrl 200),
    lit "</blockquote>\n\n"] ++ renderMetricsFooter F metrics botUptime

/-- The reply to a task id that is not in the repository. -/
def renderNotFound (id : TaskId) : List Piece :=
  [lit "<b><u>Status</u></b>\n<b>Task:</b> <code>", raw id.value,
    lit "</code>\n<blockquote>Task was not found.</blockquote>"]

def ticksPerSecond : Int := 1000000000

/-- Send, and keep only whether it succeeded. -/
def send (chat : ChatId) (message : List Piece) : Action (Result Unit) := do
  let sent : Result MessageId ← ask (Call.sendHtml chat (html message))
  return sent.map fun _ => ()

/-- The branch with a `task_id`. -/
def showTask (request : StatusRequest) (id : TaskId) (snapshot : SystemSnapshot) (uptime : Int) :
    Action (Result Unit) := do
  let loaded : Result (Option Task) ← ask (Call.find id)
  match loaded with
  | .error err => return .error err
  | .ok none => do
    let _ ← send request.chat (renderNotFound id)
    return .error ⟨.notFound, "status: task not found"⟩
  | .ok (some task) =>
    if !visibleToRequest request task then
      return .error ⟨.permissionDenied, "status: task is not visible to this requester"⟩
    else match binding task with
      | none => send request.chat (renderTaskWithoutDownloader F task snapshot uptime)
      | some (downloader, gid) => do
        let status : Result DownloadStatus ← ask (Call.status downloader gid)
        match status with
        | .error err => return .error err
        | .ok status => send request.chat (renderStatusList F [status] snapshot uptime)

/-- The loop over `incomplete`: what the downloaders say of the visible tasks. -/
def collectActive (request : StatusRequest) : List Task → Action (List DownloadStatus)
  | [] => return []
  | task :: rest =>
    if !visibleToRequest request task then collectActive request rest
    else match binding task with
      | none => collectActive request rest
      | some (downloader, gid) => do
        let status : Result DownloadStatus ← ask (Call.status downloader gid)
        match status with
        | .error _ => collectActive request rest
        | .ok status => do
          let active ← collectActive request rest
          return status :: active

/-- What follows the answer of `incomplete`. -/
def showTasks (request : StatusRequest) (tasks : List Task) (snapshot : SystemSnapshot) (uptime : Int) :
    Action (Result Unit) := do
  let active ← collectActive request tasks
  send request.chat (renderStatusList F active snapshot uptime)

/-- The branch without a `task_id`. -/
def showList (request : StatusRequest) (snapshot : SystemSnapshot) (uptime : Int) :
    Action (Result Unit) := do
  let incomplete : Result (List Task) ← ask Call.incomplete
  match incomplete with
  | .error err => return .error err
  | .ok tasks => showTasks F request tasks snapshot uptime

def execute (botStartTime : Int) (request : StatusRequest) : Action (Result Unit) := do
  let snapshot : SystemSnapshot ← ask Call.snapshot
  let now : Int ← ask Call.steadyNow
  let uptime := (now - botStartTime).tdiv ticksPerSecond
  match request.taskId with
  | some id => showTask F request id snapshot uptime
  | none => showList F request snapshot uptime

/-! ### The list -/

variable {F} {request : StatusRequest} {botStartTime : Int}

theorem collectActive_filter (tasks : List Task) :
    collectActive request (tasks.filter (visibleToRequest request)) = collectActive request tasks := by
  induction tasks with
  | nil => rfl
  | cons task rest ih =>
    by_cases hv : visibleToRequest request task = true
    · rw [List.filter_cons_of_pos hv]
      unfold collectActive
      rw [ih]
    · rw [List.filter_cons_of_neg hv, ih]
      conv_rhs => unfold collectActive
      simp [hv]

theorem send_only {P : Call → Prop} (chat : ChatId) (message : List Piece)
    (h : P (.sendHtml chat (html message))) : (send chat message).Only P :=
  .ask_bind h fun _ => .pure _

theorem collectActive_only {P : Call → Prop} (h : ∀ downloader gid, P (.status downloader gid))
    (tasks : List Task) : (collectActive request tasks).Only P := by
  induction tasks with
  | nil => exact .pure _
  | cons task rest ih =>
    unfold collectActive
    split
    · exact ih
    · split
      · exact ih
      · refine .ask_bind (h _ _) fun status => ?_
        cases status with
        | error err => exact ih
        | ok status => exact ih.bind fun _ => .pure _

theorem showTasks_only {P : Call → Prop} (hstatus : ∀ downloader gid, P (.status downloader gid))
    {snapshot : SystemSnapshot} {uptime : Int}
    (hsend : ∀ active, P (.sendHtml request.chat (html (renderStatusList F active snapshot uptime))))
    (tasks : List Task) : (showTasks F request tasks snapshot uptime).Only P :=
  (collectActive_only hstatus tasks).bind fun _ => send_only _ _ (hsend _)

theorem run_showList {w : List Call → (c : Call) → c.Answer} {past : List Call} {tasks : List Task}
    (h : w past .incomplete = .ok tasks) (snapshot : SystemSnapshot) (uptime : Int) :
    (showList F request snapshot uptime).run w past =
      (showTasks F request tasks snapshot uptime).run w (past ++ [.incomplete]) := by
  unfold showList
  show Prog.run w (past ++ [.incomplete]) (match w past .incomplete with
    | .error err => pure (.error err)
    | .ok tasks => showTasks F request tasks snapshot uptime) = _
  rw [h]

theorem run_execute {w : List Call → (c : Call) → c.Answer} (hid : request.taskId = none) :
    (execute F botStartTime request).run w [] =
      (showList F request (w [] .snapshot)
        ((w [.snapshot] .steadyNow - botStartTime).tdiv ticksPerSecond)).run w [.snapshot, .steadyNow] := by
  unfold execute
  rw [hid]
  rfl

/-- In two worlds that answer alike, but for the tasks that the requester may not see, the calls and
the result are the same; among the calls are those to the downloaders and the message that is sent. -/
theorem list_depends_on_visible {w w' : List Call → (c : Call) → c.Answer} (hid : request.taskId = none)
    (hother : ∀ past c, c ≠ .incomplete → w past c = w' past c)
    (hinc : ∀ past, ∃ l l' : List Task, w past .incomplete = .ok l ∧ w' past .incomplete = .ok l' ∧
      l.filter (visibleToRequest request) = l'.filter (visibleToRequest request)) :
    (execute F botStartTime request).run w [] = (execute F botStartTime request).run w' [] := by
  obtain ⟨l, l', hl, hl', hfilter⟩ := hinc [.snapshot, .steadyNow]
  have hsnapshot := hother [] .snapshot (by simp)
  have hnow := hother [.snapshot] .steadyNow (by simp)
  have hloop : collectActive request l = collectActive request l' := by
    rw [← collectActive_filter l, hfilter, collectActive_filter]
  rw [run_execute hid, run_execute hid, run_showList hl, run_showList hl', hsnapshot, hnow]
  unfold showTasks
  rw [hloop]
  -- no list is asked for again
  exact Prog.run_congr (showTasks_only (by simp) (by simp) l') hother _

/-- A repository with the tasks `tasks`, downloads that have not begun, and no load. -/
def idleWorld (tasks : List Task) : List Call → (c : Call) → c.Answer
  | _, .snapshot => {}
  | _, .steadyNow => (0 : Int)
  | _, .find _ => .ok none
  | _, .incomplete => .ok tasks
  | _, .status _ gid => .ok { id := gid }
  | _, .sendHtml _ _ => .ok ⟨1⟩

def boundTask (id : String) (user chat : Int) : Task where
  metadata := ⟨⟨id⟩, ⟨user⟩, ⟨chat⟩, ⟨0⟩, .mirror, "magnet:" ++ id, 0, 0⟩
  state := .downloading
  downloaderId := some ⟨id⟩
  downloaderKind := .aria2

/-- Neither a task of another user nor one of another chat shows. -/
theorem list_hides_others :
    (execute Fmt.zero 0 ⟨⟨1⟩, ⟨5⟩, none, false⟩).run (idleWorld [boundTask "a" 1 5]) [] =
      (execute Fmt.zero 0 ⟨⟨1⟩, ⟨5⟩, none, false⟩).run
        (idleWorld [boundTask "b" 2 5, boundTask "a" 1 5, boundTask "c" 1 6]) [] := by
  refine list_depends_on_visible rfl ?_ fun past => ⟨_, _, rfl, rfl, by decide⟩
  intro past c hc
  cases c with
  | incomplete => exact absurd rfl hc
  | _ => rfl

end ShowStatus

end Cmlb
