import Cmlb.Lib.Machine
import Cmlb.Application.Pipeline

/-!
# `MirrorUrl::execute` and `LeechUrl::execute`

Both use cases are one coroutine up to a handful of values (`UseCase`). The coroutine is a machine:
a `Run` is suspended at a program point `Pc` and an `Event` is what wakes it, the answer of a port
or the scheduler running it up to its next `co_await` or lock section. The spawned upload coroutines
move on their own events, in between any two steps of the poll loop. A save is two steps, `saving`
until the repository has written the row and `saved` until the coroutine runs again, because others
can see the row in between.

`calls` is the history of the run, newest first. Log lines and the HTML bodies of the status message
are not modelled; the stage that `fail_task` reports is.
-/

namespace Cmlb

/-- `MirrorRequest` / `LeechRequest` (the leech request has no `override_destination`). -/
structure Request where
  url : String
  user : UserId
  chat : ChatId
  useQbittorrent : Bool := false
  overrideDestination : Option UploadDestination := none
deriving DecidableEq, Repr

/-- The uploader a run uses and the `UploadConfig` it passes to it. -/
structure UploadTarget where
  uploader : UploadDestination
  config : UploadConfig
deriving DecidableEq, Repr

structure UseCase where
  kind : TaskKind
  emptyUrl : AppError
  cancelledByUser : AppError
  target : Request → Option UserSettingsRecord → UploadTarget
  -- The error a successful `upload_directory` is turned into, if any
  rejectDirectory : List UploadResult → Option AppError

namespace MirrorUrl

/-- `resolve_destination` (it never fails). -/
def resolveDestination (req : Request) (settings : Option UserSettingsRecord) : UploadDestination :=
  match req.overrideDestination with
  | some d => d
  | none =>
    match settings with
    | some s =>
      if s.mirrorDestination = .googleDrive ∨ s.mirrorDestination = .rclone then s.mirrorDestination
      else .googleDrive
    | none => .googleDrive

def target (req : Request) (settings : Option UserSettingsRecord) : UploadTarget :=
  let destination := resolveDestination req settings
  { uploader := if destination = .rclone then .rclone else .googleDrive
    config :=
      { folderId := if destination = .googleDrive then settings.bind (·.gdriveFolderId) else none
        rclonePath := if destination = .rclone then settings.bind (·.rcloneRemote) else none } }

def useCase : UseCase where
  kind := .mirror
  emptyUrl := ⟨.invalidArgument, "mirror: empty URL"⟩
  cancelledByUser := ⟨.cancelled, "mirror: cancelled by user"⟩
  target := target
  -- an empty result list only leaves `upload_outcome` at its default
  rejectDirectory _ := none

end MirrorUrl

namespace LeechUrl

def target (req : Request) (settings : Option UserSettingsRecord) : UploadTarget where
  uploader := .telegram
  config :=
    { chatId := some req.chat
      asDocument := (settings.map (·.uploadAsDocument)).getD false
      thumbnailPath := settings.bind (·.defaultThumbPath) }

def useCase : UseCase where
  kind := .leech
  emptyUrl := ⟨.invalidArgument, "leech: empty URL"⟩
  cancelledByUser := ⟨.cancelled, "leech: cancelled by user"⟩
  target := target
  rejectDirectory
    | [] => some ⟨.internal, "upload produced no results"⟩
    | _ :: _ => none

end LeechUrl

/-- One call of `execute`: the use case with its constructor argument `upload_pool_size`, the
request, what the selected downloader says about pipelining, and the id `make_task_id` draws. -/
structure Setup where
  useCase : UseCase
  poolArg : Int
  request : Request
  supportsPipelining : Bool
  taskId : TaskId

/-- The member `upload_pool_size_`, as the constructor clamps it. -/
def Setup.uploadPoolSize (S : Setup) : Int := if S.poolArg > 0 then S.poolArg else 1

inductive Stage
  | state | download | upload
deriving DecidableEq, Repr

inductive Exit
  | emptyUrl
  -- Settings, status message or first save failed: no task row was written
  | rejected (err : AppError)
  | failed (stage : Stage) (err : AppError)
  | cancelled
  | completed
deriving DecidableEq, Repr

def Exit.result (S : Setup) : Exit → Result TaskId
  | emptyUrl => .error S.useCase.emptyUrl
  | rejected err | failed _ err => .error err
  | cancelled => .error S.useCase.cancelledByUser
  | completed => .ok S.taskId

/-- The `persist_best_effort` call sites. -/
inductive AfterSave
  | startDownload | attachDownloader
  | beginUpload (file : Path) (rest : List Path)
  | beginUploadFallback
  | markFailed (stage : Stage) (err : AppError)
  | markCancelled | markCompleted
deriving DecidableEq, Repr

inductive AfterDrain
  | cancel
  | failTask (stage : Stage) (err : AppError)
  | uploadFailed
deriving DecidableEq, Repr

inductive AfterRemove
  | cancel
  | failUpload (err : AppError)
  | completed
deriving DecidableEq, Repr

inductive AfterEdit
  | failed (stage : Stage) (err : AppError)
  | cancelled | uploading | completed
deriving DecidableEq, Repr

inductive Pc
  | start
  | gettingSettings
  | sendingStatus
  | creating
  -- The row is written, `active_guard` is not constructed yet
  | created
  | saving (k : AfterSave)
  | saved (k : AfterSave)
  | addingUri
  | loopHead
  | polling
  -- The `for` loop over `final_status.files`, about to call `can_spawn_more`
  | spawnNext (files : List Path)
  | checkQueued (file : Path) (rest : List Path)
  | spawning (file : Path) (rest : List Path)
  | rendering
  | checking
  | waiting
  | draining (k : AfterDrain)
  | removing (k : AfterRemove)
  | afterLoop
  | editing (k : AfterEdit)
  | uploadingDirectory (path : Path)
  | uploadingFile (file : Path)
  -- `co_return`, the locals are not destroyed yet
  | leaving (exit : Exit)
  | returned (exit : Exit)
  -- An exception is leaving the coroutine, `active_guard` is still alive
  | unwinding
  | threw
deriving DecidableEq, Repr

/-- `active_guard` is alive, so the task is registered. -/
def Pc.guarded : Pc → Bool
  | start | gettingSettings | sendingStatus | creating | created | returned _ | threw => false
  | _ => true

def Pc.over : Pc → Bool
  | returned _ | threw => true
  | _ => false

inductive Call
  | save (task : Task) (r : Result Unit)
  | addUri (r : Result Gid)
  | remove (gid : Gid) (deleteFiles : Bool)
  | uploadFile (file : Path)
  | uploadedFile (file : Path) (x : UploadResult)
  | uploadDirectory (path : Path)
  | uploadedDirectory (path : Path) (xs : List UploadResult)
deriving DecidableEq

inductive Event
  -- The coroutine runs on, up to its next `co_await` or lock section
  | run
  | settings (r : Result (Option UserSettingsRecord))
  | sent (r : Result MessageId)
  | commit (r : Result Unit)
  | gid (r : Result Gid)
  -- The loop head reads the coroutine's cancellation state and the registry flag
  | head (coroutineCancelled registryCancelled : Bool)
  -- `with_timeout(downloader.status(gid), ...)` answers
  | status (r : Result DownloadStatus)
  | rendered
  | tick
  | removed (r : Result Unit)
  | edited (r : Result Unit)
  | directory (r : Result (List UploadResult))
  | file (r : Result UploadResult)
  | uploadStarted (i : Nat)
  | uploadReturned (i : Nat) (r : Result UploadResult)
  | uploadThrew (i : Nat)
  | clock (now : Time)
  | threw
deriving DecidableEq

structure Run where
  pc : Pc := .start
  now : Time := 0
  settings : Option UserSettingsRecord := none
  task : Task
  gid : Gid := ⟨""⟩
  target : UploadTarget := ⟨.telegram, {}⟩
  finalStatus : DownloadStatus := {}
  pipe : PipelineState := {}
  transitionedToUploading : Bool := false
  downloadComplete : Bool := false
  calls : List Call := []
deriving DecidableEq

/-- The task `execute` constructs once the status message is sent. -/
def Setup.newTask (S : Setup) (statusMessage : MessageId) (now : Time) : Task where
  metadata :=
    { id := S.taskId, user := S.request.user, chat := S.request.chat, statusMessage,
      kind := S.useCase.kind, sourceUrl := S.request.url, createdAt := now, updatedAt := now }

/-- Before the first step (the task is a placeholder until the status message is sent). -/
def Setup.init (S : Setup) : Run := { task := S.newTask ⟨0⟩ 0 }

namespace Run

def failTask (stage : Stage) (err : AppError) (r : Run) : Run :=
  { r with task := r.task.orSelf (r.task.markFailed err.message r.now)
           pc := .saving (.markFailed stage err) }

def onSettings (x : Result (Option UserSettingsRecord)) (r : Run) : Run :=
  match x with
  | .error e => { r with pc := .returned (.rejected e) }
  | .ok s => { r with settings := s, pc := .sendingStatus }

def onSent (S : Setup) (x : Result MessageId) (r : Run) : Run :=
  match x with
  | .error e => { r with pc := .returned (.rejected e) }
  | .ok m => { r with task := S.newTask m r.now, pc := .creating }

def onCreated (x : Result Unit) (r : Run) : Run :=
  let r := { r with calls := .save r.task x :: r.calls }
  match x with
  | .error e => { r with pc := .returned (.rejected e) }
  | .ok _ => { r with pc := .created }

/-- `active_guard` is constructed, then `task.start_download()`. -/
def startDownload (r : Run) : Run :=
  match r.task.startDownload r.now with
  | .error e => r.failTask .state e
  | .ok t => { r with task := t, pc := .saving .startDownload }

def onCommit (k : AfterSave) (x : Result Unit) (r : Run) : Run :=
  { r with pc := .saved k, calls := .save r.task x :: r.calls }

/-- Behind `persist_best_effort`: a failed save is only logged. -/
def afterSave (k : AfterSave) (r : Run) : Run :=
  match k with
  | .startDownload => { r with pc := .addingUri }
  | .attachDownloader => { r with pc := .loopHead }
  | .beginUpload file rest => { r with pc := .spawning file rest }
  | .beginUploadFallback => { r with pc := .editing .uploading }
  | .markFailed stage err => { r with pc := .editing (.failed stage err) }
  | .markCancelled => { r with pc := .editing .cancelled }
  | .markCompleted => { r with pc := .removing .completed, calls := .remove r.gid false :: r.calls }

def onGid (S : Setup) (x : Result Gid) (r : Run) : Run :=
  let r := { r with calls := .addUri x :: r.calls }
  match x with
  | .error e => r.failTask .download e
  | .ok g =>
    let kind : DownloaderKind := if S.request.useQbittorrent then .qbittorrent else .aria2
    { r with
      gid := g
      task := r.task.attachDownloader g kind r.now
      target := S.useCase.target S.request r.settings
      pc := .saving .attachDownloader }

def onHead (coroutineCancelled registryCancelled : Bool) (r : Run) : Run :=
  if coroutineCancelled || registryCancelled then { r with pc := .draining .cancel }
  else if r.downloadComplete then { r with pc := .checking }
  else { r with pc := .polling }

def onStatus (S : Setup) (x : Result DownloadStatus) (r : Run) : Run :=
  match x with
  | .error e => { r with pc := .draining (.failTask .download e) }
  | .ok st =>
    let r := { r with finalStatus := st }
    if st.state = .error then
      let msg := st.errorMessage.getD "downloader reported error"
      { r with pc := .draining (.failTask .download ⟨.aria2Rpc, msg⟩) }
    else if st.state = .removed then
      { r with pc := .draining (.failTask .download ⟨.cancelled, "download removed externally"⟩) }
    else
      { r with
        downloadComplete := r.downloadComplete || st.state == .complete || st.state == .seeding
        pc := if S.supportsPipelining then .spawnNext st.files else .rendering }

/-- `if (!can_spawn_more()) break;` at the head of the `for` loop. -/
def spawnNext (S : Setup) (files : List Path) (r : Run) : Run :=
  match files with
  | [] => { r with pc := .rendering }
  | file :: rest =>
    if r.pipe.canSpawnMore S.uploadPoolSize then { r with pc := .checkQueued file rest }
    else { r with pc := .rendering }

/-- `queued.contains`, and `begin_upload` before the first upload. -/
def checkQueued (file : Path) (rest : List Path) (r : Run) : Run :=
  if file ∈ r.pipe.queued then { r with pc := .spawnNext rest }
  else if r.transitionedToUploading then { r with pc := .spawning file rest }
  else
    match r.task.beginUpload r.now with
    | .ok t => { r with task := t, transitionedToUploading := true
                        pc := .saving (.beginUpload file rest) }
    | .error _ => { r with pc := .spawning file rest }

def spawnUpload (file : Path) (rest : List Path) (r : Run) : Run :=
  { r with pipe := r.pipe.spawnUpload file, pc := .spawnNext rest }

def check (r : Run) : Run :=
  if r.pipe.failed > 0 then { r with pc := .draining .uploadFailed }
  else if r.downloadComplete && r.pipe.inFlight == 0 then { r with pc := .afterLoop }
  else { r with pc := .waiting }

/-- One round of `drain_uploads`; with `in_flight = 0` no coroutine is left to change
`first_error`. -/
def drain (k : AfterDrain) (r : Run) : Run :=
  if r.pipe.inFlight == 0 then
    match k with
    | .cancel => { r with pc := .removing .cancel, calls := .remove r.gid true :: r.calls }
    | .failTask stage err => r.failTask stage err
    | .uploadFailed =>
      let err := r.pipe.firstError.getD ⟨.unknown, "upload failed"⟩
      { r with pc := .removing (.failUpload err), calls := .remove r.gid false :: r.calls }
  else r

def afterRemove (k : AfterRemove) (r : Run) : Run :=
  match k with
  | .cancel => { r with task := r.task.orSelf (r.task.markCancelled r.now)
                        pc := .saving .markCancelled }
  | .failUpload err => r.failTask .upload err
  | .completed => { r with pc := .editing .completed }

def finish (r : Run) : Run :=
  match r.task.markCompleted r.now with
  | .error e => r.failTask .state e
  | .ok t => { r with task := t, pc := .saving .markCompleted }

/-- The tail: `begin_upload` if nothing has called it (its error is ignored), then `mark_completed`. -/
def complete (r : Run) : Run :=
  if r.transitionedToUploading then r.finish
  else { r with task := r.task.orSelf (r.task.beginUpload r.now) }.finish

/-- Behind the loop: the fallback is taken when no upload has completed. -/
def afterLoop (r : Run) : Run :=
  if r.pipe.completed > 0 then r.complete
  else
    match r.task.beginUpload r.now with
    | .error e => r.failTask .state e
    | .ok t => { r with task := t, pc := .saving .beginUploadFallback }

def fallback (r : Run) : Run :=
  match r.finalStatus.files, r.finalStatus.savePath with
  | [], _ => r.failTask .download ⟨.internal, "downloader reported no produced files"⟩
  | _ :: _, some dir => { r with pc := .uploadingDirectory dir, calls := .uploadDirectory dir :: r.calls }
  | file :: _, none => { r with pc := .uploadingFile file, calls := .uploadFile file :: r.calls }

def afterEdit (k : AfterEdit) (r : Run) : Run :=
  match k with
  | .failed stage err => { r with pc := .leaving (.failed stage err) }
  | .cancelled => { r with pc := .leaving .cancelled }
  | .uploading => r.fallback
  | .completed => { r with pc := .leaving .completed }

def onDirectory (S : Setup) (path : Path) (x : Result (List UploadResult)) (r : Run) : Run :=
  match x with
  | .error e => r.failTask .upload e
  | .ok xs =>
    let r := { r with calls := .uploadedDirectory path xs :: r.calls }
    match S.useCase.rejectDirectory xs with
    | some e => r.failTask .upload e
    | none => r.complete

def onFile (file : Path) (x : Result UploadResult) (r : Run) : Run :=
  match x with
  | .error e => r.failTask .upload e
  | .ok x => { r with calls := .uploadedFile file x :: r.calls }.complete

def uploadStarted (i : Nat) (r : Run) : Option Run :=
  match r.pipe.uploads[i]?, r.pipe.uploadStarted i with
  | some u, some p => some { r with pipe := p, calls := .uploadFile u.file :: r.calls }
  | _, _ => none

def uploadReturned (i : Nat) (x : Result UploadResult) (r : Run) : Option Run :=
  match r.pipe.uploads[i]?, r.pipe.uploadReturned i x with
  | some u, some p =>
    match x with
    | .ok y => some { r with pipe := p, calls := .uploadedFile u.file y :: r.calls }
    | .error _ => some { r with pipe := p }
  | _, _ => none

def uploadThrew (i : Nat) (r : Run) : Option Run :=
  (r.pipe.uploadThrew i).map fun p => { r with pipe := p }

def unwind (r : Run) : Run := { r with pc := if r.pc.guarded then .unwinding else .threw }

/-- The next state of the `execute` coroutine and its uploads, or `none` when nobody waits for
the event. -/
def step (S : Setup) (r : Run) (e : Event) : Option Run :=
  match r.pc, e with
  | _, .clock now => some { r with now := now }
  | _, .uploadStarted i => r.uploadStarted i
  | _, .uploadReturned i x => r.uploadReturned i x
  | _, .uploadThrew i => r.uploadThrew i
  | .start, .run =>
    if S.request.url = "" then some { r with pc := .returned .emptyUrl }
    else some { r with pc := .gettingSettings }
  | .gettingSettings, .settings x => some (r.onSettings x)
  | .sendingStatus, .sent x => some (r.onSent S x)
  | .creating, .commit x => some (r.onCreated x)
  | .created, .run => some r.startDownload
  | .saving k, .commit x => some (r.onCommit k x)
  | .saved k, .run => some (r.afterSave k)
  | .addingUri, .gid x => some (r.onGid S x)
  | .loopHead, .head c reg => some (r.onHead c reg)
  | .polling, .status x => some (r.onStatus S x)
  | .spawnNext files, .run => some (r.spawnNext S files)
  | .checkQueued file rest, .run => some (r.checkQueued file rest)
  | .spawning file rest, .run => some (r.spawnUpload file rest)
  | .rendering, .rendered => some { r with pc := .checking }
  | .checking, .run => some r.check
  | .waiting, .tick => some { r with pc := .loopHead }
  | .draining k, .tick => some (r.drain k)
  | .removing k, .removed _ => some (r.afterRemove k)
  | .afterLoop, .run => some r.afterLoop
  | .editing k, .edited _ => some (r.afterEdit k)
  | .uploadingDirectory path, .directory x => some (r.onDirectory S path x)
  | .uploadingFile file, .file x => some (r.onFile file x)
  | .leaving exit, .run => some { r with pc := .returned exit }
  | .unwinding, .run => some { r with pc := .threw }
  | .returned _, .threw | .threw, .threw | .unwinding, .threw | .leaving _, .threw => none
  | _, .threw => some r.unwind
  | _, _ => none

end Run

def Setup.machine (S : Setup) : Machine Run Event := ⟨Run.step S⟩

/-! ### A sample call -/

def Setup.sample (useCase : UseCase) (pool : Int) (supportsPipelining : Bool) : Setup where
  useCase := useCase
  poolArg := pool
  request := { url := "https://host/file", user := ⟨1⟩, chat := ⟨2⟩ }
  supportsPipelining := supportsPipelining
  taskId := ⟨"t1"⟩

/-- From the start of `execute` to the first head of the poll loop. -/
def Event.toLoop : List Event :=
  [.run, .settings (.ok none), .sent (.ok ⟨7⟩), .commit (.ok ()), .run, .commit (.ok ()), .run,
    .gid (.ok ⟨"g"⟩), .commit (.ok ()), .run]

def Event.toReturn : List Event := [.commit (.ok ()), .run, .removed (.ok ()), .edited (.ok ()), .run]

end Cmlb
