import Cmlb.Core.Error

/-!
# The task aggregate and its state machine (`domain/task.cpp`)

`system_clock` readings are passed in as `now`: every successful transition stamps `updatedAt`.
A rejected transition returns `ErrorCode::InvalidState` and leaves the task as it was, so the
transitions are functions `Task → Result Task`.
-/

namespace Cmlb

/-- A `system_clock` time point, in clock ticks. -/
abbrev Time := Int

structure ChatId where
  value : Int
deriving DecidableEq, Repr

structure UserId where
  value : Int
deriving DecidableEq, Repr

structure MessageId where
  value : Int
deriving DecidableEq, Repr

structure Gid where
  value : String
deriving DecidableEq, Repr

structure TaskId where
  value : String
deriving DecidableEq, Repr

inductive TaskState
  | queued | downloading | processing | uploading | completed | failed | cancelled
deriving DecidableEq, Repr

def TaskState.toString : TaskState → String
  | queued => "Queued"
  | downloading => "Downloading"
  | processing => "Processing"
  | uploading => "Uploading"
  | completed => "Completed"
  | failed => "Failed"
  | cancelled => "Cancelled"

/-- `Task::is_terminal`, as a predicate on the state. -/
def TaskState.isTerminal (s : TaskState) : Bool :=
  s == .completed || s == .failed || s == .cancelled

inductive TaskKind
  | mirror | leech | clone
deriving DecidableEq, Repr

inductive DownloaderKind
  | none | aria2 | qbittorrent
deriving DecidableEq, Repr

structure TaskMetadata where
  id : TaskId
  user : UserId
  chat : ChatId
  statusMessage : MessageId
  kind : TaskKind
  sourceUrl : String
  createdAt : Time
  updatedAt : Time
deriving DecidableEq, Repr

structure Task where
  metadata : TaskMetadata
  state : TaskState := .queued
  errorMessage : Option String := none
  downloaderId : Option Gid := none
  downloaderKind : DownloaderKind := .none
deriving DecidableEq, Repr

def invalidTransition (src dst : TaskState) : AppError :=
  ⟨.invalidState, "Invalid task transition: " ++ src.toString ++ " -> " ++ dst.toString⟩

namespace Task

def isTerminal (t : Task) : Bool := t.state.isTerminal

def touch (now : Time) (t : Task) : Task :=
  { t with metadata := { t.metadata with updatedAt := now } }

/-- Enter `dst` when `legal` holds of the current state. -/
def transition (legal : TaskState → Bool) (dst : TaskState) (now : Time) (t : Task) : Result Task :=
  if legal t.state then .ok (({ t with state := dst }).touch now)
  else .error (invalidTransition t.state dst)

def startDownload : Time → Task → Result Task := transition (· == .queued) .downloading

def beginProcessing : Time → Task → Result Task := transition (· == .downloading) .processing

def beginUpload : Time → Task → Result Task :=
  transition (fun s => s == .downloading || s == .processing) .uploading

def markCompleted : Time → Task → Result Task := transition (· == .uploading) .completed

/-- The only transition that also records a reason. -/
def markFailed (reason : String) (now : Time) (t : Task) : Result Task :=
  if t.isTerminal then .error (invalidTransition t.state .failed)
  else .ok (({ t with errorMessage := some reason, state := .failed }).touch now)

def markCancelled : Time → Task → Result Task := transition (fun s => !s.isTerminal) .cancelled

def attachDownloader (id : Gid) (kind : DownloaderKind) (now : Time) (t : Task) : Task :=
  ({ t with downloaderId := some id, downloaderKind := kind }).touch now

/-- The task left behind by a transition whose error is ignored. -/
def orSelf (t : Task) (r : Result Task) : Task :=
  match r with
  | .ok t' => t'
  | .error _ => t

variable {t t' : Task} {now : Time} {legal : TaskState → Bool} {dst : TaskState} {reason : String}

/-- A legal transition enters its target and changes nothing but the state and the time stamp. -/
theorem transition_of_legal (h : legal t.state = true) :
    transition legal dst now t = .ok (({ t with state := dst }).touch now) := by
  simp [transition, h]

theorem transition_eq_ok (h : transition legal dst now t = .ok t') :
    legal t.state = true ∧ t' = ({ t with state := dst }).touch now := by
  unfold transition at h
  split at h
  · exact ⟨‹_›, by cases h; rfl⟩
  · cases h

theorem markFailed_of_not_terminal (h : t.isTerminal = false) :
    markFailed reason now t =
      .ok (({ t with errorMessage := some reason, state := .failed }).touch now) := by
  simp [markFailed, h]

end Task

end Cmlb
