import Cmlb.Lib.WorkerPool
import Cmlb.Application.Ports
import Cmlb.Core.Error
import Cmlb.Core.Http
import Cmlb.Core.Json

/-!
# The upload worker pools (`google_drive_uploader.cpp`, `telegram_uploader.cpp`)

Four functions fan their work out to a pool of detached workers: `upload_directory` of both
uploaders, the split parts of Telegram's `upload_file` and the chunks of Drive's `upload_resumable`.
A worker's steps are its accesses to the shared state and its suspension points; an event carries what
the step gets from outside (the answer of a request, the cancellation state, an exception). In all
four the parent sets `live_workers`, spawns, and only then waits on the join timer, and the exit guard
of the last worker cancels it: `wakeup_kept_iff` says when that wakes the parent. A cancellation of
the caller ends the wait in the same way, and `no_worker_outlives` says when no worker is left then.

Progress callbacks, durations and the counters only they read are left out.
-/

namespace Cmlb.Upload

open WorkerPool

/-- `std::clamp`, for `lo ≤ hi`. -/
def clamp (v lo hi : Int) : Int := if v < lo then lo else if hi < v then hi else v

/-- The part of the shared state that all pools have. -/
structure Queue where
  nextIndex : Nat := 0
  abort : Bool := false
  firstError : Option AppError := none
deriving DecidableEq

namespace Queue

/-- `record_error`, under `err_mtx`. -/
def recordError (q : Queue) (err : AppError) : Queue :=
  { q with firstError := some (q.firstError.getD err), abort := true }

def setAbort (q : Queue) : Queue := { q with abort := true }

def claimed (q : Queue) : Queue := { q with nextIndex := q.nextIndex + 1 }

/-- What `next_index.fetch_add(1)` returns where `next_index` is an `std::atomic<int>`. -/
def fetched (q : Queue) : Int := (q.nextIndex : Int).bmod 4294967296

end Queue

/-! ### `upload_directory` -/

/-- `calls` is the history of the `upload_file` calls that have ended, `none` for an exception. -/
structure DirShared extends Queue where
  results : List UploadResult := []
  calls : List (Nat × Option (Result UploadResult)) := []
deriving DecidableEq

/-- `uploading idx` is suspended in `upload_file` on the work item `idx`. -/
inductive DirPc
  | checkAbort
  | checkCancel
  | claim
  | uploading (idx : Nat)
deriving DecidableEq

inductive DirEvent
  | run
  | cancelState (cancelled : Bool)
  | uploaded (r : Result UploadResult)
  | threw

/-- `file_worker`, for `size` work items; `onCancel` is what it does when it finds itself cancelled. -/
def fileWorker (onCancel : Queue → Queue) (size : Nat) (sh : DirShared) (pc : DirPc) (e : DirEvent) :
    Option (DirShared × Option DirPc) :=
  match pc, e with
  | .checkAbort, .run => some (sh, if sh.abort then none else some .checkCancel)
  | .checkCancel, .cancelState cancelled =>
    if cancelled then some ({ sh with toQueue := onCancel sh.toQueue }, none)
    else some (sh, some .claim)
  | .claim, .run =>
    let idx := sh.nextIndex
    some ({ sh with toQueue := sh.claimed }, if size ≤ idx then none else some (.uploading idx))
  | .uploading idx, .uploaded r =>
    let sh := { sh with calls := sh.calls ++ [(idx, some r)] }
    match r with
    | .error err => some ({ sh with toQueue := sh.recordError err }, none)
    | .ok res => some ({ sh with results := sh.results ++ [res] }, some .checkAbort)
  | .uploading idx, .threw => some ({ sh with calls := sh.calls ++ [(idx, none)] }, none)
  | _, _ => none

def dirVerdict (sh : DirShared) : Result (List UploadResult) :=
  match sh.firstError with
  | some err => .error err
  | none => .ok sh.results

def dirBody (onCancel : Queue → Queue) (size : Nat) :
    WorkerBody DirShared DirPc DirEvent (Result (List UploadResult)) where
  init := .checkAbort
  step := fileWorker onCancel size
  verdict := dirVerdict

namespace GoogleDrive

/-- A cancelled worker stops the others but records no error. -/
def dirBody (size : Nat) : WorkerBody DirShared DirPc DirEvent (Result (List UploadResult)) :=
  Upload.dirBody Queue.setAbort size

/-- `file_parallelism`, from `parallel_files_per_directory`. -/
def fileParallelism (configured : Int) (size : Nat) : Nat := (clamp configured 1 (max 1 size)).toNat

def dirPool (configured : Int) (size : Nat) := (pool (dirBody size) (fileParallelism configured size)).machine

def dirStart (configured : Int) (size : Nat) :
    PoolState (fileParallelism configured size) DirShared DirPc (Result (List UploadResult)) :=
  start _ {}

end GoogleDrive

namespace Telegram

def cancelled : AppError := ⟨.cancelled, "telegram_uploader: cancelled"⟩

def dirBody (size : Nat) : WorkerBody DirShared DirPc DirEvent (Result (List UploadResult)) :=
  Upload.dirBody (·.recordError cancelled) size

/-- `file_parallelism`, from `upload_files_parallelism`; no pool for an empty directory. -/
def fileParallelism (configured : Int) (size : Nat) : Nat :=
  if size = 0 then 0 else (clamp configured 1 size).toNat

def dirPool (configured : Int) (size : Nat) := (pool (dirBody size) (fileParallelism configured size)).machine

/-- An empty directory is returned as an empty vector before a pool is set up. -/
def dirStart (configured : Int) (size : Nat) :
    PoolState (fileParallelism configured size) DirShared DirPc (Result (List UploadResult)) :=
  if size = 0 then ⟨⟨.returned (.ok []), 0, {}⟩, fun _ => .gone⟩
  else start _ {}

/-! ### The parts of a split file (`TelegramUploader::upload_file`) -/

structure PartsShared extends Queue where
  results : List (Option Int)
  partSizes : List Int
deriving DecidableEq

inductive PartPc
  | checkAbort
  | checkCancel
  | claim
  | sizing (idx : Nat)
  | sending (idx : Nat)
  | reporting
deriving DecidableEq

/-- `fileSize` is `fs::file_size`, with the message of its `error_code`; `sent` has the id of the
message that carries the part. -/
inductive PartEvent
  | run
  | cancelState (cancelled : Bool)
  | fileSize (r : Except String Int)
  | sent (r : Result Int)
  | threw

def partWorker (totalParts : Nat) (sh : PartsShared) (pc : PartPc) (e : PartEvent) :
    Option (PartsShared × Option PartPc) :=
  match pc, e with
  | .checkAbort, .run => some (sh, if sh.abort then none else some .checkCancel)
  | .checkCancel, .cancelState c =>
    if c then some ({ sh with toQueue := sh.recordError cancelled }, none) else some (sh, some .claim)
  | .claim, .run =>
    let idx := sh.nextIndex
    -- from 2^31 on the `int` counter is negative and `part_paths` is indexed out of bounds
    if idx < 2147483648 then
      some ({ sh with toQueue := sh.claimed }, if totalParts ≤ idx then none else some (.sizing idx))
    else none
  | .sizing _, .fileSize (.error what) =>
    let err := ⟨.fileSystem, "telegram_uploader: file_size on part failed: " ++ what⟩
    some ({ sh with toQueue := sh.recordError err }, none)
  | .sizing idx, .fileSize (.ok partSize) =>
    some ({ sh with partSizes := sh.partSizes.set idx partSize }, some (.sending idx))
  | .sending _, .sent (.error err) => some ({ sh with toQueue := sh.recordError err }, none)
  | .sending idx, .sent (.ok msg) =>
    some ({ sh with results := sh.results.set idx (some msg) }, some .reporting)
  | .sending _, .threw => some (sh, none)
  -- the progress callback
  | .reporting, .run => some (sh, some .checkAbort)
  | .reporting, .threw => some (sh, none)
  | _, _ => none

/-- The loop over the slots, from part `i` on. -/
def collect (i : Nat) (agg : UploadResult) : List (Option Int × Int) → Result UploadResult
  | [] => .ok agg
  | (none, _) :: _ =>
    .error ⟨.internal, "telegram_uploader: missing result for part " ++ toString (i + 1)⟩
  | (some msg, size) :: rest =>
    let fileId := if agg.fileId = "" then toString msg else agg.fileId
    collect (i + 1) { agg with size := agg.size + size, fileId := fileId } rest

def partsVerdict (sh : PartsShared) : Result UploadResult :=
  match sh.firstError with
  | some err => .error err
  | none => collect 0 { fileId := "", link := "" } (sh.results.zip sh.partSizes)

def partsBody (totalParts : Nat) : WorkerBody PartsShared PartPc PartEvent (Result UploadResult) where
  init := .checkAbort
  step := partWorker totalParts
  verdict := partsVerdict

/-- `parallelism`, from `upload_parallelism`. It is zero when `split_file` made no parts, which it
does when the file has been emptied since its size was taken. -/
def partParallelism (configured : Int) (totalParts : Nat) : Nat :=
  (min (max configured 1) totalParts).toNat

def partsPool (configured : Int) (totalParts : Nat) :=
  (pool (partsBody totalParts) (partParallelism configured totalParts)).machine

def partsStart (configured : Int) (totalParts : Nat) :
    PoolState (partParallelism configured totalParts) PartsShared PartPc (Result UploadResult) :=
  start _ { results := List.replicate totalParts none, partSizes := List.replicate totalParts 0 }

/-- What a step of a worker can do. -/
inductive PartStep (totalParts : Nat) (sh : PartsShared) :
    PartPc → PartEvent → PartsShared → Option PartPc → Prop
  | aborted (h : sh.abort = true) : PartStep totalParts sh .checkAbort .run sh none
  | goesOn : PartStep totalParts sh .checkAbort .run sh (some .checkCancel)
  | cancelled : PartStep totalParts sh .checkCancel (.cancelState true)
      { sh with toQueue := sh.recordError cancelled } none
  | notCancelled : PartStep totalParts sh .checkCancel (.cancelState false) sh (some .claim)
  | exhausted (h : totalParts ≤ sh.nextIndex) :
      PartStep totalParts sh .claim .run { sh with toQueue := sh.claimed } none
  | claimed (h : sh.nextIndex < totalParts) : PartStep totalParts sh .claim .run
      { sh with toQueue := sh.claimed } (some (.sizing sh.nextIndex))
  | unsized (idx what) : PartStep totalParts sh (.sizing idx) (.fileSize (.error what)) { sh with
      toQueue := sh.recordError ⟨.fileSystem, "telegram_uploader: file_size on part failed: " ++ what⟩ } none
  | sized (idx partSize) : PartStep totalParts sh (.sizing idx) (.fileSize (.ok partSize))
      { sh with partSizes := sh.partSizes.set idx partSize } (some (.sending idx))
  | failed (idx err) : PartStep totalParts sh (.sending idx) (.sent (.error err))
      { sh with toQueue := sh.recordError err } none
  | sent (idx msg) : PartStep totalParts sh (.sending idx) (.sent (.ok msg))
      { sh with results := sh.results.set idx (some msg) } (some .reporting)
  | threw (idx) : PartStep totalParts sh (.sending idx) .threw sh none
  | reported : PartStep totalParts sh .reporting .run sh (some .checkAbort)
  | reportThrew : PartStep totalParts sh .reporting .threw sh none

theorem partWorker_inv {totalParts : Nat} {sh sh' : PartsShared} {pc : PartPc} {e : PartEvent}
    {o : Option PartPc} (h : partWorker totalParts sh pc e = some (sh', o)) :
    PartStep totalParts sh pc e sh' o := by
  unfold partWorker at h
  split at h
  · cases h
    split
    · exact .aborted ‹_›
    · exact .goesOn
  · split at h <;> rename_i hc
    · cases h
      rw [hc]
      exact .cancelled
    · cases h
      rw [Bool.eq_false_iff.2 hc]
      exact .notCancelled
  · dsimp only at h
    split at h
    · cases h
      split
      · exact .exhausted ‹_›
      · exact .claimed (Nat.lt_of_not_le ‹_›)
    · cases h
  · cases h
    exact .unsized _ _
  · cases h
    exact .sized _ _
  · cases h
    exact .failed _ _
  · cases h
    exact .sent _ _
  · cases h
    exact .threw _
  · cases h
    exact .reported
  · cases h
    exact .reportThrew
  · cases h

end Telegram

namespace GoogleDrive

/-! ### The chunks of a resumable session (`upload_resumable`) -/

def kMultipartThreshold : Nat := 5242880

def kResumableAlignment : Nat := 262144

/-- What `upload_resumable` has when the session is open and the file has been probed. `file` is the
file's content, `chunkSize` the configured `std::size_t`. -/
structure Resumable where
  json : JsonLib
  path : String
  file : Nat → UInt8
  total : Nat
  chunkSize : Nat
  parallelChunksPerFile : Int
  maxRetries : Int

structure ChunkPlan where
  offset : Nat
  length : Nat
deriving DecidableEq

namespace Resumable

/-- `chunk_bytes`: the configured size as an `int64_t`, at least one block, in whole blocks. -/
def chunkBytes (R : Resumable) : Nat :=
  (max ((R.chunkSize : Int).bmod 18446744073709551616) kResumableAlignment).toNat
    / kResumableAlignment * kResumableAlignment

/-- The loop `for (off = 0; off < total; off += chunk_bytes)`, for at most `fuel` rounds. -/
def planFrom (R : Resumable) : Nat → Nat → List ChunkPlan
  | 0, _ => []
  | fuel + 1, off =>
    if off < R.total then
      ⟨off, min R.chunkBytes (R.total - off)⟩ :: R.planFrom fuel (off + R.chunkBytes)
    else []

/-- Each round advances by at least one byte. -/
def plan (R : Resumable) : List ChunkPlan := R.planFrom R.total 0

/-- `(*plan_ptr)[idx]`. -/
def chunk (R : Resumable) (idx : Nat) : ChunkPlan := R.plan.getD idx ⟨0, 0⟩

def parallelism (R : Resumable) : Nat :=
  (clamp R.parallelChunksPerFile 1 (max 1 R.plan.length)).toNat

def retries (R : Resumable) : Int := max 0 R.maxRetries

end Resumable

/-- `puts` is the history of the chunk PUTs that were answered. -/
structure ChunkShared extends Queue where
  fileId : String := ""
  puts : List (ChunkPlan × HttpResponse) := []

/-- `attempt` and `refreshed` (`refreshed_bearer`) count the retries of a chunk; `routing` and
`deciding` have left the retry loop with an answer. -/
inductive ChunkPc
  | opening
  | checkAbort
  | checkCancel
  | claim
  | reading (idx : Nat)
  | backoff (idx attempt : Nat)
  | bearer (idx attempt : Nat) (refreshed : Bool)
  | sending (idx attempt : Nat) (refreshed : Bool)
  | answered (idx attempt : Nat) (refreshed : Bool) (r : Result HttpResponse)
  | routing (idx : Nat) (resp : HttpResponse)
  | deciding (idx : Nat) (resp : HttpResponse)

/-- `read` has the number of bytes read, `bearer` what `acquire_bearer` returned (the token only goes
into the header), `answer` what the PUT returned. -/
inductive ChunkEvent
  | run
  | opened (ok : Bool)
  | cancelState (cancelled : Bool)
  | read (got : Nat)
  | bearer (r : Result String)
  | answer (r : Result HttpResponse)
  | threw

/-- `doc.at("id").get<std::string>()` of an answer's body, or the `what()` of the exception. -/
def finalFileId (L : JsonLib) (body : String) : Except String String :=
  match L.parse body with
  | .error what => .error what
  | .ok doc =>
    match doc.atKey "id" with
    | .error what => .error what
    | .ok id => id.getString

def bail (sh : ChunkShared) (err : AppError) : Option (ChunkShared × Option ChunkPc) :=
  some ({ sh with toQueue := sh.recordError err }, none)

/-- The end of a round of the retry loop, with what the PUT returned. -/
def retry (R : Resumable) (sh : ChunkShared) (idx attempt : Nat) (refreshed : Bool) :
    Result HttpResponse → Option (ChunkShared × Option ChunkPc)
  | .error err =>
    if err.code ≠ .cancelled ∧ attempt < R.retries then some (sh, some (.backoff idx (attempt + 1)))
    else bail sh err
  | .ok resp =>
    let code := resp.statusCode
    if code = 401 ∧ refreshed = false then some (sh, some (.bearer idx attempt true))
    else if code = 429 ∨ 500 ≤ code ∧ code < 600 then
      if attempt < R.retries then some (sh, some (.backoff idx (attempt + 1)))
      else bail sh ⟨.googleDriveApi, "gdrive: chunk PUT exhausted " ++
        toString (R.retries + 1) ++ " retries: HTTP " ++ toString code ++ ": " ++ resp.body⟩
    else some (sh, some (.routing idx resp))

/-- What becomes of the answer after the retry loop. -/
def conclude (R : Resumable) (sh : ChunkShared) (resp : HttpResponse) :
    Option (ChunkShared × Option ChunkPc) :=
  if resp.statusCode = 200 ∨ resp.statusCode = 201 then
    match finalFileId R.json resp.body with
    | .error what => bail sh ⟨.jsonParse, "gdrive: final chunk parse: " ++ what⟩
    | .ok id => some ({ sh with fileId := id }, some .checkAbort)
  else if resp.statusCode ≠ 308 then
    bail sh ⟨.googleDriveApi,
      "gdrive: chunk PUT returned " ++ toString resp.statusCode ++ ": " ++ resp.body⟩
  else some (sh, some .checkAbort)

/-- The worker of `worker_factory`. -/
def chunkWorker (R : Resumable) (sh : ChunkShared) (pc : ChunkPc) (e : ChunkEvent) :
    Option (ChunkShared × Option ChunkPc) :=
  match pc, e with
  | .opening, .opened ok =>
    if ok then some (sh, some .checkAbort)
    else bail sh ⟨.io, "gdrive: worker cannot open " ++ R.path⟩
  | .checkAbort, .run => some (sh, if sh.abort then none else some .checkCancel)
  | .checkCancel, .cancelState cancelled =>
    if cancelled then some ({ sh with toQueue := sh.setAbort }, none) else some (sh, some .claim)
  | .claim, .run =>
    let idx := sh.nextIndex
    -- from 2^31 on the `int` counter is negative and the plan is indexed out of bounds
    if idx < 2147483648 then
      some ({ sh with toQueue := sh.claimed },
        if R.plan.length ≤ idx then none else some (.reading idx))
    else none
  | .reading idx, .read got =>
    if got = (R.chunk idx).length then some (sh, some (.bearer idx 0 false))
    else bail sh ⟨.io, "gdrive: worker short read on " ++ R.path⟩
  | .backoff idx attempt, .run =>
    some (sh, if sh.abort then none else some (.bearer idx attempt false))
  | .bearer _ _ _, .bearer (.error err) => bail sh err
  | .bearer idx attempt refreshed, .bearer (.ok _) => some (sh, some (.sending idx attempt refreshed))
  | .sending idx attempt refreshed, .answer r =>
    let puts := match r with
      | .ok resp => sh.puts ++ [(R.chunk idx, resp)]
      | .error _ => sh.puts
    some ({ sh with puts := puts }, some (.answered idx attempt refreshed r))
  | .answered idx attempt refreshed r, .run => retry R sh idx attempt refreshed r
  | .routing idx resp, .run => some (sh, if sh.abort then none else some (.deciding idx resp))
  | .deciding _ resp, .run => conclude R sh resp
  | .backoff _ _, .threw | .bearer _ _ _, .threw | .sending _ _ _, .threw => some (sh, none)
  | _, _ => none

def resumableVerdict (R : Resumable) (sh : ChunkShared) : Result UploadResult :=
  match sh.firstError with
  | some err => .error err
  | none =>
    if sh.fileId = "" then .error ⟨.googleDriveApi, "gdrive: no chunk returned final response"⟩
    else .ok ⟨sh.fileId, "https://drive.google.com/file/d/" ++ sh.fileId ++ "/view", R.total, 0⟩

def chunkBody (R : Resumable) : WorkerBody ChunkShared ChunkPc ChunkEvent (Result UploadResult) where
  init := .opening
  step := chunkWorker R
  verdict := resumableVerdict R

def chunkPool (R : Resumable) := (pool (chunkBody R) R.parallelism).machine

def chunkStart (R : Resumable) : PoolState R.parallelism ChunkShared ChunkPc (Result UploadResult) :=
  start _ {}

end GoogleDrive

/-! ### The join -/

theorem clamp_toNat_pos {v hi : Int} (h : 1 ≤ hi) : 0 < (clamp v 1 hi).toNat := by
  unfold clamp
  split
  · decide
  · split <;> omega

theorem GoogleDrive.fileParallelism_pos (configured : Int) (size : Nat) :
    0 < GoogleDrive.fileParallelism configured size :=
  clamp_toNat_pos (le_max_left _ _)

theorem GoogleDrive.Resumable.parallelism_pos (R : GoogleDrive.Resumable) : 0 < R.parallelism :=
  clamp_toNat_pos (le_max_left _ _)

theorem Telegram.fileParallelism_pos {configured : Int} {size : Nat} (h : size ≠ 0) :
    0 < Telegram.fileParallelism configured size := by
  rw [fileParallelism, if_neg h]
  exact clamp_toNat_pos (by omega)

theorem Telegram.partParallelism_pos (configured : Int) (totalParts : Nat) :
    0 < Telegram.partParallelism configured totalParts ↔ 0 < totalParts := by
  unfold partParallelism
  omega

/-- The state an empty directory is returned in. -/
theorem Telegram.joinInv_returned {configured : Int} {size : Nat} :
    JoinInv (⟨⟨.returned (.ok []), 0, {}⟩, fun _ => .gone⟩ :
      PoolState (Telegram.fileParallelism configured size) DirShared DirPc
        (Result (List UploadResult))) where
  live := by simp [Worker.count]
  cancelling i hi := by cases hi
  unique i j hi := by cases hi
  spawned := Nat.le_refl _

/-- In a run of a pool (of `size` items or parts), the parent has always been woken or will be woken by
a cancel still to come exactly if the join timer is cancelled only after the parent's wait has started,
and the pool has a worker at all. -/
theorem wakeup_kept_iff (R : GoogleDrive.Resumable) (configured : Int) (size : Nat) :
    (∀ t s, (GoogleDrive.chunkPool R).Runs (GoogleDrive.chunkStart R) t s →
      (KeepsWakeup (GoogleDrive.chunkPool R) (GoogleDrive.chunkStart R) t ↔
        (GoogleDrive.chunkPool R).Steps CancelsWait (GoogleDrive.chunkStart R) t s)) ∧
    (∀ t s, (GoogleDrive.dirPool configured size).Runs (GoogleDrive.dirStart configured size) t s →
      (KeepsWakeup (GoogleDrive.dirPool configured size) (GoogleDrive.dirStart configured size) t ↔
        (GoogleDrive.dirPool configured size).Steps CancelsWait
          (GoogleDrive.dirStart configured size) t s)) ∧
    (∀ t s, (Telegram.partsPool configured size).Runs (Telegram.partsStart configured size) t s →
      (KeepsWakeup (Telegram.partsPool configured size) (Telegram.partsStart configured size) t ↔
        0 < size ∧ (Telegram.partsPool configured size).Steps CancelsWait
          (Telegram.partsStart configured size) t s)) ∧
    (∀ t s, (Telegram.dirPool configured size).Runs (Telegram.dirStart configured size) t s →
      (KeepsWakeup (Telegram.dirPool configured size) (Telegram.dirStart configured size) t ↔
        (Telegram.dirPool configured size).Steps CancelsWait
          (Telegram.dirStart configured size) t s)) := by
  refine ⟨fun t s h => ?_, fun t s h => ?_, fun t s h => ?_, fun t s h => ?_⟩
  · exact keepsWakeup_iff R.parallelism_pos h
  · exact keepsWakeup_iff (GoogleDrive.fileParallelism_pos configured size) h
  · by_cases hn : 0 < size
    · rw [and_iff_right hn]
      exact keepsWakeup_iff ((Telegram.partParallelism_pos configured size).2 hn) h
    · have hzero : Telegram.partParallelism configured size = 0 := by
        have := mt (Telegram.partParallelism_pos configured size).1 hn
        omega
      exact iff_of_false (not_keepsWakeup_empty hzero) fun h => hn h.1
  · by_cases hn : size = 0
    · refine keepsWakeup_iff_of_returned (r := .ok []) ?_ h
      rw [Telegram.dirStart, if_pos hn]
    · unfold Telegram.dirStart at h ⊢
      rw [if_neg hn] at h ⊢
      exact keepsWakeup_iff (Telegram.fileParallelism_pos hn) h

/-- In a run of a pool whose caller is cancelled only when no worker is live, the call is over only in
states where the live count is zero and every worker has passed its exit guard. -/
theorem no_worker_outlives (R : GoogleDrive.Resumable) (configured : Int) (size : Nat) :
    (∀ t s, (GoogleDrive.chunkPool R).Steps CancelledIdle (GoogleDrive.chunkStart R) t s →
      s.shared.parent.over = true → s.shared.live = 0 ∧ ∀ i, (s.locals i).count = 0) ∧
    (∀ t s, (GoogleDrive.dirPool configured size).Steps CancelledIdle
        (GoogleDrive.dirStart configured size) t s →
      s.shared.parent.over = true → s.shared.live = 0 ∧ ∀ i, (s.locals i).count = 0) ∧
    (∀ t s, (Telegram.partsPool configured size).Steps CancelledIdle
        (Telegram.partsStart configured size) t s →
      s.shared.parent.over = true → s.shared.live = 0 ∧ ∀ i, (s.locals i).count = 0) ∧
    (∀ t s, (Telegram.dirPool configured size).Steps CancelledIdle
        (Telegram.dirStart configured size) t s →
      s.shared.parent.over = true → s.shared.live = 0 ∧ ∀ i, (s.locals i).count = 0) := by
  refine ⟨fun t s h => ?_, fun t s h => ?_, fun t s h => ?_, fun t s h => ?_⟩
  · exact joined_of_over (.start _) (joinsAll_start _) h
  · exact joined_of_over (.start _) (joinsAll_start _) h
  · exact joined_of_over (.start _) (joinsAll_start _) h
  · unfold Telegram.dirStart at h
    split at h
    · exact joined_of_over Telegram.joinInv_returned (fun _ => rfl) h
    · exact joined_of_over (.start _) (joinsAll_start _) h

/-- A caller that is cancelled while workers are live can be over before them, in any of the pools. -/
theorem outlives_of_cancelled {n : Nat} {σ τ ε ρ : Type} {B : WorkerBody σ τ ε ρ}
    {s s' : PoolState n σ τ ρ} (hl : s.shared.live ≠ 0)
    (hs : (pool B n).machine.step s (.env .interrupt) = some s') :
    ∃ t₂ s₂, (pool B n).machine.Runs s' t₂ s₂ ∧ s₂.shared.parent.over = true ∧ s₂.shared.live ≠ 0 := by
  cases step_inv hs with
  | abandon hq => exact ⟨[], _, .nil _, rfl, hl⟩
  | interrupt hq => exact ⟨[.env .resume], _, .cons trivial rfl (.nil _), rfl, hl⟩

/-- A worker that uploads the one item of a directory, up to its exit guard. -/
def uploadsOne {n : Nat} (i : Fin n) (r : UploadResult) : List (PoolEvent n DirEvent) :=
  [.act i .start, .act i (.run .run), .act i (.run (.cancelState false)), .act i (.run .run),
    .act i (.run (.uploaded (.ok r))), .act i (.run .run), .act i (.run (.cancelState false)),
    .act i (.run .run), .act i .exit]

/-- The parent waits before the worker cancels. -/
def cancelsLast : List (PoolEvent (GoogleDrive.fileParallelism 1 1) DirEvent) :=
  .env .spawn :: uploadsOne ⟨0, by decide⟩ ⟨"id", "", 1, 0⟩ ++
    [.env .startWait, .act ⟨0, by decide⟩ .cancel, .env .resume]

/-- On another thread the worker is done before the parent gets to its wait. -/
def cancelsFirst : List (PoolEvent (GoogleDrive.fileParallelism 1 1) DirEvent) :=
  .env .spawn :: uploadsOne ⟨0, by decide⟩ ⟨"id", "", 1, 0⟩ ++ [.act ⟨0, by decide⟩ .cancel]

theorem wakeup_kept_waiting :
    KeepsWakeup (GoogleDrive.dirPool 1 1) (GoogleDrive.dirStart 1 1) cancelsLast := by
  have hrun : ∃ s, (GoogleDrive.dirPool 1 1).Steps CancelsWait (GoogleDrive.dirStart 1 1)
      cancelsLast s := by
    refine ⟨_, .cons trivial rfl (.cons trivial rfl (.cons trivial rfl (.cons trivial rfl
      (.cons trivial rfl (.cons trivial rfl (.cons trivial rfl (.cons trivial rfl (.cons trivial rfl
      (.cons trivial rfl (.cons trivial rfl (.cons ?_ rfl (.cons trivial rfl (.nil _)))))))))))))⟩
    intro k h
    cases h
  obtain ⟨s, hs⟩ := hrun
  exact ((wakeup_kept_iff ⟨⟨.error, fun _ => 0⟩, "", fun _ => 0, 0, 0, 0, 0⟩ 1 1).2.1 _ s hs.runs).2 hs

theorem no_worker_outlives_waiting : ∃ s, (GoogleDrive.dirPool 1 1).Runs (GoogleDrive.dirStart 1 1)
    cancelsLast s ∧ s.shared.parent.over = true ∧ s.shared.live = 0 := by
  have hrun : ∃ s, (GoogleDrive.dirPool 1 1).Steps CancelledIdle (GoogleDrive.dirStart 1 1)
      cancelsLast s ∧ s.shared.parent.over = true :=
    ⟨_, .cons trivial rfl (.cons trivial rfl (.cons trivial rfl (.cons trivial rfl
      (.cons trivial rfl (.cons trivial rfl (.cons trivial rfl (.cons trivial rfl (.cons trivial rfl
      (.cons trivial rfl (.cons trivial rfl (.cons trivial rfl (.cons trivial rfl (.nil _))))))))))))),
      rfl⟩
  obtain ⟨s, hs, ho⟩ := hrun
  have hall := no_worker_outlives ⟨⟨.error, fun _ => 0⟩, "", fun _ => 0, 0, 0, 0, 0⟩ 1 1
  exact ⟨s, hs.runs, ho, (hall.2.1 _ s hs ho).1⟩

/-- The caller is cancelled while the worker is in `upload_file`: the parent takes the end of its wait
for the join. -/
def cancelledCaller : List (PoolEvent (GoogleDrive.fileParallelism 1 1) DirEvent) :=
  [.env .spawn, .env .startWait, .act ⟨0, by decide⟩ .start, .act ⟨0, by decide⟩ (.run .run),
    .act ⟨0, by decide⟩ (.run (.cancelState false)), .act ⟨0, by decide⟩ (.run .run),
    .env .interrupt, .env .resume]

theorem worker_outlives : ∃ s, (GoogleDrive.dirPool 1 1).Runs (GoogleDrive.dirStart 1 1)
    cancelledCaller s ∧ s.shared.parent = .returned (.ok []) ∧ s.shared.live = 1 ∧
    s.locals ⟨0, by decide⟩ = .running (.uploading 0) :=
  ⟨_, .cons trivial rfl (.cons trivial rfl (.cons trivial rfl (.cons trivial rfl (.cons trivial rfl
    (.cons trivial rfl (.cons trivial rfl (.cons trivial rfl (.nil _)))))))), rfl, rfl, rfl⟩

set_option maxRecDepth 4000 in
theorem wakeup_lost : ∃ s, (GoogleDrive.dirPool 1 1).Runs (GoogleDrive.dirStart 1 1) cancelsFirst s ∧
    LostWakeup s := by
  have hrun : ((GoogleDrive.dirPool 1 1).run (GoogleDrive.dirStart 1 1) cancelsFirst).map
      (fun s => decide (LostWakeup s)) = some true := by decide
  obtain ⟨s, hs, hl⟩ := Machine.exists_runs hrun
  exact ⟨s, hs, of_decide_eq_true hl⟩

end Cmlb.Upload
