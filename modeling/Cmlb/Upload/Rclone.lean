import Cmlb.Core.Cancelled
import Cmlb.Application.Ports
import Cmlb.Download.Aria2

/-!
# The rclone uploader (`rclone_uploader.cpp`)

`upload_file` and `upload_directory` as programs over the file system, the subprocess launcher and the
caller's cancellation state. `run_rclone` reads the exit code of a child and never its `cancelled`
flag: a call returns `Cancelled` exactly if the check between the probe and the copy finds the
cancellation (`decided_uploadFile`, `decided_uploadDirectory`).

`parse_line` is a parameter: it is a regular expression over floating-point numbers, and the call only
takes a size from it. Progress callbacks and durations are left out.
-/

namespace Cmlb.Upload.Rclone

structure RcloneConfig where
  executable : Path := "rclone"
  configPath : Path := ""
  transfers : Int := 8
  checkers : Int := 16
  multiThreadStreams : Int := 4
  multiThreadCutoff : String := "250M"
  driveChunkSize : String := "64M"
  bufferSize : String := "32M"
  useMmap : Bool := true
  fastList : Bool := true
  driveAcknowledgeAbuse : Bool := true
  logLevel : String := "NOTICE"
  extraArgs : List String := []

/-- `parseLine` is `parse_line`, with the total of a line that is valid. -/
structure RcloneUploader where
  config : RcloneConfig
  parseLine : String → Option Int

/-- `SubprocessResult`; `stdoutLines` are the lines that `on_stdout_line` was called with. -/
structure SubprocessResult where
  exitCode : Int
  stdoutLines : List String
  stderrData : String
  timedOut : Bool
  cancelled : Bool
deriving DecidableEq

/-- The codes that `Subprocess::run` fails with. -/
inductive SubprocessFault
  | invalidArgument | io | notFound | subprocessFailed | internal
deriving DecidableEq, Repr

def SubprocessFault.code : SubprocessFault → ErrorCode
  | .invalidArgument => .invalidArgument
  | .io => .io
  | .notFound => .notFound
  | .subprocessFailed => .subprocessFailed
  | .internal => .internal

/-- `readiness` and `setReadiness` are the accesses to `readiness_`. -/
inductive RcloneCall
  | fileExists (path : Path)
  | isDirectory (path : Path)
  | readiness
  | setReadiness (ready : Int)
  | cancellationState
  | run (executable : Path) (arguments : List String)

abbrev RcloneCall.Answer : RcloneCall → Type
  | .fileExists _ | .isDirectory _ | .cancellationState => Bool
  | .readiness => Int
  | .setReadiness _ => Unit
  | .run _ _ => Except (SubprocessFault × String) SubprocessResult

abbrev Action := Prog RcloneCall RcloneCall.Answer

def joinRemote (base leaf : String) : String :=
  if base ≠ "" ∧ base.toList.getLast? ≠ some '/' ∧ base.toList.getLast? ≠ some ':' then
    base ++ "/" ++ leaf
  else base ++ leaf

def buildCommonRcloneArgs (cfg : RcloneConfig) : List String :=
  ["--progress", "--stats=1s", "--stats-one-line", "--transfers=" ++ toString cfg.transfers,
    "--checkers=" ++ toString cfg.checkers,
    "--multi-thread-streams=" ++ toString cfg.multiThreadStreams,
    "--multi-thread-cutoff=" ++ cfg.multiThreadCutoff, "--drive-chunk-size=" ++ cfg.driveChunkSize,
    "--buffer-size=" ++ cfg.bufferSize] ++
  (if cfg.useMmap then ["--use-mmap"] else []) ++
  (if cfg.fastList then ["--fast-list"] else []) ++
  (if cfg.driveAcknowledgeAbuse then ["--drive-acknowledge-abuse"] else []) ++
  ["--log-level=" ++ cfg.logLevel] ++
  (if cfg.configPath = "" then [] else ["--config", cfg.configPath]) ++ cfg.extraArgs

namespace RcloneUploader

variable (G : RcloneUploader)

def probeRclone : Action Bool := do
  let cached : Int ← Prog.ask RcloneCall.readiness
  if 0 ≤ cached then pure (cached == 1)
  else
    let res : Except (SubprocessFault × String) SubprocessResult ←
      Prog.ask (RcloneCall.run G.config.executable ["--version"])
    let ok := match res with
      | .ok r => r.exitCode == 0
      | .error _ => false
    let _ ← Prog.ask (RcloneCall.setReadiness (if ok then 1 else 0))
    pure ok

/-- The total of the last line that is valid. -/
def totalSeen (lines : List String) : Int := (lines.filterMap G.parseLine).getLast?.getD 0

/-- What becomes of the child's result. -/
def finish (displayName : String) : Except (SubprocessFault × String) SubprocessResult → Result UploadResult
  | .error (fault, message) => .error ⟨fault.code, message⟩
  | .ok res =>
    if res.exitCode ≠ 0 then
      .error ⟨.rcloneInvocation, "rclone: exited " ++ toString res.exitCode ++ ": " ++ res.stderrData⟩
    else .ok { fileId := displayName, link := "", size := G.totalSeen res.stdoutLines }

def runRclone (args : List String) (displayName : String) : Action (Result UploadResult) := do
  let ready ← G.probeRclone
  if ready then
    let cancelled : Bool ← Prog.ask RcloneCall.cancellationState
    if cancelled then pure (.error ⟨.cancelled, "rclone: cancelled"⟩)
    else
      let res : Except (SubprocessFault × String) SubprocessResult ←
        Prog.ask (RcloneCall.run G.config.executable args)
      pure (G.finish displayName res)
  else pure (.error ⟨.rcloneInvocation, "rclone: binary unavailable (probe failed)"⟩)

/-- What `upload_file` and `upload_directory` share. -/
def copy (verb : String) (path : Path) (remote : String) : Action (Result UploadResult) :=
  let dest := joinRemote remote (Aria2.filename path)
  G.runRclone ([verb, path, dest] ++ buildCommonRcloneArgs G.config) (Aria2.filename path)

def remoteRequired {α : Type} : Result α :=
  .error ⟨.invalidArgument, "rclone: UploadConfig.rclone_path is required (\"remote:path\")"⟩

def uploadFile (path : Path) (config : UploadConfig) : Action (Result UploadResult) :=
  match config.rclonePath with
  | none | some "" => pure remoteRequired
  | some remote => do
    let present : Bool ← Prog.ask (RcloneCall.fileExists path)
    if present then G.copy "copyto" path remote
    else pure (.error ⟨.notFound, "rclone: file not found: " ++ path⟩)

def uploadDirectory (path : Path) (config : UploadConfig) : Action (Result (List UploadResult)) :=
  match config.rclonePath with
  | none | some "" => pure remoteRequired
  | some remote => do
    let present : Bool ← Prog.ask (RcloneCall.isDirectory path)
    if present then
      let single ← G.copy "copy" path remote
      orReturn single fun res => pure (.ok [res])
    else pure (.error ⟨.invalidArgument, "rclone: not a directory: " ++ path⟩)

end RcloneUploader

/-! ### Cancellation -/

/-- The ways in which a cancellation reaches the call. -/
def Cancels : (Σ c, RcloneCall.Answer c) → Prop
  | ⟨.cancellationState, cancelled⟩ => cancelled = true
  | ⟨.run _ _, .ok res⟩ => res.cancelled = true
  | _ => False

/-- The one way that it heeds. -/
def Heeds : (Σ c, RcloneCall.Answer c) → Prop
  | ⟨.cancellationState, cancelled⟩ => cancelled = true
  | _ => False

variable {G : RcloneUploader}

theorem SubprocessFault.code_ne (fault : SubprocessFault) : fault.code ≠ .cancelled := by
  cases fault <;> simp [SubprocessFault.code]

theorem not_isCancelled_finish (displayName : String)
    (res : Except (SubprocessFault × String) SubprocessResult) :
    ¬ IsCancelled (G.finish displayName res) := by
  unfold RcloneUploader.finish
  split
  · rw [isCancelled_error]
    exact SubprocessFault.code_ne _
  · split
    · simp [isCancelled_error]
    · exact not_isCancelled_ok

/-- The probe does not look for a cancellation. -/
theorem decided_probeRclone : G.probeRclone.Decided Heeds fun _ => False := by
  refine Prog.Decided.ask_bind (fun _ h => h.elim) fun cached _ => ?_
  split
  · exact .pure id
  · refine .ask_bind (fun _ h => h.elim) fun res _ => ?_
    exact .ask_bind (fun _ h => h.elim) fun _ _ => .pure id

theorem decided_runRclone (args : List String) (displayName : String) :
    (G.runRclone args displayName).Decided Heeds IsCancelled := by
  refine decided_probeRclone.bind (fun _ h => h.elim) fun ready _ => ?_
  split
  · refine .ask_bind ?_ fun cancelled hnot => ?_
    · rintro _ rfl
      exact ends_error rfl
    · have hfalse : cancelled = false := eq_false_of_ne_true hnot
      subst hfalse
      exact .ask_bind (fun _ h => h.elim) fun res _ => .pure (not_isCancelled_finish displayName res)
  · exact decided_error (by simp)

theorem decided_uploadFile (path : Path) (config : UploadConfig) :
    (G.uploadFile path config).Decided Heeds IsCancelled := by
  unfold RcloneUploader.uploadFile
  split
  · exact decided_error (by simp)
  · exact decided_error (by simp)
  · refine .ask_bind (fun _ h => h.elim) fun present _ => ?_
    split
    · exact decided_runRclone _ _
    · exact decided_error (by simp)

theorem decided_uploadDirectory (path : Path) (config : UploadConfig) :
    (G.uploadDirectory path config).Decided Heeds IsCancelled := by
  unfold RcloneUploader.uploadDirectory
  split
  · exact decided_error (by simp)
  · exact decided_error (by simp)
  · refine .ask_bind (fun _ h => h.elim) fun present _ => ?_
    split
    · exact decided_orReturn (decided_runRclone _ _) fun res => decided_ok _
    · exact decided_error (by simp)

end Cmlb.Upload.Rclone
