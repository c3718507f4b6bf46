import Cmlb.Core.Cancelled
import Cmlb.Upload.ChunkMoves
import Cmlb.Upload.Directory

/-!
# The failures of the upload workers

Each pool keeps the first error that one of its workers records, and returns it. So a call of a pool
returns `Cancelled` exactly if the first step with which a worker fails is one that is cancelled
(`isCancelled_join`). The workers differ in what they make of their own cancellation: in
the Telegram uploader they record an error, in the Google Drive uploader they only stop the others.
-/

namespace Cmlb.Upload

open WorkerPool

theorem Queue.recordError_firstError (q : Queue) (err : AppError) :
    (q.recordError err).firstError = q.firstError.or (some err) := by
  cases h : q.firstError <;> simp [Queue.recordError, h]

/-! ### `upload_directory` -/

/-- `onCancel` is the error of a worker that finds itself cancelled, if it records one. -/
def fileFailure (onCancel : Option AppError) : DirPc → DirEvent → Option AppError
  | .checkCancel, .cancelState true => onCancel
  | .uploading _, .uploaded (.error err) => some err
  | _, _ => none

theorem keepsFirst_dirBody {onCancel : Queue → Queue} {err : Option AppError} (size : Nat)
    (hc : ∀ q, (onCancel q).firstError = q.firstError.or err) :
    KeepsFirst (dirBody onCancel size) (fun sh => sh.firstError) (fileFailure err) := by
  intro sh l e sh' o hs
  cases fileWorker_inv hs with
  | aborted | goesOn | notCancelled | uploaded | threw => simp [fileFailure]
  | cancelled => exact hc _
  | exhausted | claimed => simp [fileFailure, Queue.claimed]
  | failed => exact Queue.recordError_firstError _ _

namespace GoogleDrive

theorem keepsFirst_dirBody (size : Nat) :
    KeepsFirst (dirBody size) (fun sh => sh.firstError) (fileFailure none) :=
  Upload.keepsFirst_dirBody size fun q => by simp [Queue.setAbort]

end GoogleDrive

namespace Telegram

theorem keepsFirst_dirBody (size : Nat) :
    KeepsFirst (dirBody size) (fun sh => sh.firstError) (fileFailure (some cancelled)) :=
  Upload.keepsFirst_dirBody size fun q => q.recordError_firstError cancelled

/-! ### The parts of a split file -/

def partFailure : PartPc → PartEvent → Option AppError
  | .checkCancel, .cancelState true => some cancelled
  | .sizing _, .fileSize (.error what) =>
    some ⟨.fileSystem, "telegram_uploader: file_size on part failed: " ++ what⟩
  | .sending _, .sent (.error err) => some err
  | _, _ => none

theorem keepsFirst_partsBody (totalParts : Nat) :
    KeepsFirst (partsBody totalParts) (fun sh => sh.firstError) partFailure := by
  intro sh l e sh' o hs
  cases partWorker_inv hs with
  | aborted | goesOn | notCancelled | sized | sent | threw | reported | reportThrew => simp [partFailure]
  | exhausted | claimed => simp [partFailure, Queue.claimed]
  | cancelled | unsized | failed => exact Queue.recordError_firstError _ _

end Telegram

/-! ### The chunks of a resumable session -/

namespace GoogleDrive

/-- The end of a retry round and of a chunk as `retry` and `conclude` have it, when no other worker has
failed. -/
def chunkFailure (R : Resumable) : ChunkPc → ChunkEvent → Option AppError
  | .opening, .opened false => some ⟨.io, "gdrive: worker cannot open " ++ R.path⟩
  | .reading idx, .read got =>
    if got = (R.chunk idx).length then none
    else some ⟨.io, "gdrive: worker short read on " ++ R.path⟩
  | .bearer _ _ _, .bearer (.error err) => some err
  | .answered idx attempt refreshed r, .run =>
    (retry R {} idx attempt refreshed r).bind fun x => x.1.firstError
  | .deciding _ resp, .run => (conclude R {} resp).bind fun x => x.1.firstError
  | _, _ => none

variable {R : Resumable} {sh sh' : ChunkShared} {o : Option ChunkPc}

theorem bail_firstError {err : AppError} (hs : bail sh err = some (sh', o)) :
    sh'.firstError = sh.firstError.or ((bail {} err).bind fun x => x.1.firstError) := by
  cases hs
  exact Queue.recordError_firstError _ err

theorem retry_firstError {idx attempt : Nat} {refreshed : Bool} {r : Result HttpResponse}
    (hs : retry R sh idx attempt refreshed r = some (sh', o)) :
    sh'.firstError =
      sh.firstError.or ((retry R {} idx attempt refreshed r).bind fun x => x.1.firstError) := by
  rcases retry_cases R idx attempt refreshed r with ⟨err, hbail⟩ | ⟨pc, -, hstays⟩
  · rw [hbail] at hs ⊢
    exact bail_firstError hs
  · rw [hstays] at hs ⊢
    cases hs
    simp

theorem conclude_firstError {resp : HttpResponse} (hs : conclude R sh resp = some (sh', o)) :
    sh'.firstError = sh.firstError.or ((conclude R {} resp).bind fun x => x.1.firstError) := by
  rcases conclude_cases R resp with ⟨err, hbail⟩ | ⟨id, hid⟩ | hmore
  · rw [hbail] at hs ⊢
    exact bail_firstError hs
  · rw [hid] at hs ⊢
    cases hs
    simp
  · rw [hmore] at hs ⊢
    cases hs
    simp

theorem keepsFirst_chunkBody (R : Resumable) :
    KeepsFirst (chunkBody R) (fun sh => sh.firstError) (chunkFailure R) := by
  intro sh l e sh' o hs
  cases chunkWorker_move hs with
  | opened | aborted | goesOn | notCancelled | read | abandoned | retried => simp [chunkFailure]
  | authorized | put | unanswered | dropped | routed => simp [chunkFailure]
  | cancelled => simp [chunkFailure, Queue.setAbort]
  | exhausted | claimed => simp [chunkFailure, Queue.claimed]
  | unopened | unauthorized => exact Queue.recordError_firstError _ _
  | shortRead idx got h =>
    rw [chunkFailure, if_neg h]
    exact Queue.recordError_firstError _ _
  | retries _ _ _ _ _ _ h => exact retry_firstError h
  | concludes _ _ _ _ h => exact conclude_firstError h
  | threw => cases l <;> simp [chunkFailure]

end GoogleDrive

/-! ### What the calls return -/

/-- The first failure of a worker is a cancellation. -/
def CancelsFirst {σ τ ε ρ : Type} {n : Nat} (B : WorkerBody σ τ ε ρ)
    (failure : τ → ε → Option AppError) (s : PoolState n σ τ ρ) (t : List (PoolEvent n ε)) : Prop :=
  ∃ err, FailsFirst B failure s t err ∧ err.code = .cancelled

theorem isCancelled_join {σ τ ε α : Type} {n : Nat} {B : WorkerBody σ τ ε (Result α)} {sh : σ}
    {firstError : σ → Option AppError} {failure : τ → ε → Option AppError}
    (hB : KeepsFirst B firstError failure) (h0 : firstError sh = none)
    (hverdict : ∀ sh, IsCancelled (B.verdict sh) ↔ ∃ err, firstError sh = some err ∧ err.code = .cancelled)
    (j : Join B n sh) : IsCancelled j.result ↔ CancelsFirst B failure (start n sh) j.events := by
  rw [Join.result, hverdict]
  exact exists_congr fun err => and_congr_left fun _ => hB.iff h0 j.run

/-- The wait for the workers of a directory, with the logs of the `upload_file` calls that have ended
by then; `uploadFile idx` is the call for the work item `idx`. -/
structure FilesJoin {γ : Type} {ρ : γ → Type} (B : WorkerBody DirShared DirPc DirEvent (Result (List UploadResult)))
    (n : Nat) (uploadFile : Nat → Prog γ ρ (Result UploadResult)) extends Join B n {} where
  logs : Nat → List (Σ c, ρ c)
  nested : ∀ m idx r, state.shared.body.calls[m]? = some (idx, some r) →
    (uploadFile idx).Dialog (logs m) r

theorem isCancelled_dirVerdict (sh : DirShared) :
    IsCancelled (dirVerdict sh) ↔ ∃ err, sh.firstError = some err ∧ err.code = .cancelled := by
  unfold dirVerdict
  cases h : sh.firstError <;> simp [isCancelled_error, not_isCancelled_ok]

theorem Telegram.not_isCancelled_collect (l : List (Option Int × Int)) (i : Nat) (agg : UploadResult) :
    ¬ IsCancelled (collect i agg l) := by
  induction l generalizing i agg with
  | nil => exact not_isCancelled_ok
  | cons slot rest ih =>
    obtain ⟨result, size⟩ := slot
    cases result with
    | none => simp [collect, isCancelled_error]
    | some msg => exact ih (i + 1) _

theorem Telegram.isCancelled_partsVerdict (sh : PartsShared) :
    IsCancelled (partsVerdict sh) ↔ ∃ err, sh.firstError = some err ∧ err.code = .cancelled := by
  unfold partsVerdict
  cases h : sh.firstError with
  | none => simp [not_isCancelled_collect]
  | some err => simp [isCancelled_error]

theorem GoogleDrive.isCancelled_resumableVerdict (R : Resumable) (sh : ChunkShared) :
    IsCancelled (resumableVerdict R sh) ↔ ∃ err, sh.firstError = some err ∧ err.code = .cancelled := by
  unfold resumableVerdict
  cases h : sh.firstError with
  | none =>
    dsimp only
    split <;> simp [isCancelled_error, not_isCancelled_ok]
  | some err => simp [isCancelled_error]

end Cmlb.Upload
