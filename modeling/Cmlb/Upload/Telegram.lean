import Cmlb.Upload.Failures
import Cmlb.Download.Aria2

/-!
# The Telegram uploader (`telegram_uploader.cpp`)

`upload_file` and `upload_directory` as programs over the file system, the messenger and the caller's
cancellation state; the worker pools inside them are calls that are answered with a run of the pool up
to where the caller goes on. A call returns `Cancelled` exactly if the check of the cancellation state
finds it, the messenger fails with it, or it is the first failure of the workers (`decided_uploadFile`,
`decided_uploadDirectory`). A worker that finds itself cancelled does fail with it, but what ends the
wait for the workers does not count.

The media kind is only logged; it is left out, and so are progress callbacks and durations.
-/

namespace Cmlb.Upload.Telegram

open WorkerPool

structure TelegramUploader where
  uploadParallelism : Int
  uploadFilesParallelism : Int

inductive PartWrite
  | cannotCreate | failed | written
deriving DecidableEq, Repr

/-- An entry of the directory walk, with the `error_code` at the top of the loop. -/
structure ListedEntry where
  ec : Option String
  path : Path
  isRegularFile : Bool

inductive TelegramCall
  | fileExists (path : Path)
  | isDirectory (path : Path)
  | fileSize (path : Path)
  | openSource (path : Path)
  | writePart (path : Path)
  | walk (path : Path)
  | cancellationState
  | sendFile (chat : ChatId) (path : Path) (caption : String) (thumbnail : Option Path)
  | joinParts (configured : Int) (parts : List Path)

/-- The slots that a pool of `totalParts` parts starts with. -/
def partsShared (totalParts : Nat) : PartsShared :=
  { results := List.replicate totalParts none, partSizes := List.replicate totalParts 0 }

abbrev TelegramCall.Answer : TelegramCall → Type
  | .fileExists _ | .isDirectory _ | .openSource _ | .cancellationState => Bool
  | .fileSize _ => Except String Nat
  | .writePart _ => PartWrite
  | .walk _ => List ListedEntry
  | .sendFile _ _ _ _ => Result Int
  | .joinParts configured parts =>
    Join (partsBody parts.length) (partParallelism configured parts.length) (partsShared parts.length)

abbrev Action := Prog TelegramCall TelegramCall.Answer

/-- `fmt::format(".part{:03d}", i + 1)` behind the path. -/
def partPath (src : Path) (i : Nat) : Path :=
  let digits := toString (i + 1)
  src ++ ".part" ++ String.ofList (List.replicate (3 - digits.length) '0') ++ digits

def splitParts (src : Path) : Nat → Nat → List Path → Action (Result (List Path))
  | 0, _, parts => pure (.ok parts)
  | left + 1, i, parts => do
    let outcome : PartWrite ← Prog.ask (TelegramCall.writePart (partPath src i))
    match outcome with
    | .cannotCreate =>
      pure (.error ⟨.io, "telegram_uploader: cannot create part " ++ partPath src i⟩)
    | .failed => pure (.error ⟨.io, "telegram_uploader: write failed for " ++ partPath src i⟩)
    | .written => splitParts src left (i + 1) (parts ++ [partPath src i])

/-- The number of parts, as an `int`. `reserve` throws for a negative one (see `SplitWorld.splitFile`); the
loop makes no part then. -/
def chunkCount (total : Nat) (chunkBytes : Int) : Int :=
  ((total + chunkBytes - 1) / chunkBytes).bmod 4294967296

def sizeFailed {α : Type} (what : String) : Result α :=
  .error ⟨.fileSystem, "telegram_uploader: file_size failed: " ++ what⟩

def splitFile (src : Path) (chunkBytes : Int) : Action (Result (List Path)) := do
  let opened : Bool ← Prog.ask (TelegramCall.openSource src)
  if opened then
    let total : Except String Nat ← Prog.ask (TelegramCall.fileSize src)
    match total with
    | .error what => pure (sizeFailed what)
    | .ok total =>
      if chunkBytes ≤ 0 then
        pure (.error ⟨.invalidArgument, "telegram_uploader: split_size must be > 0"⟩)
      else splitParts src (chunkCount total chunkBytes).toNat 0 []
  else pure (.error ⟨.io, "telegram_uploader: cannot open " ++ src ++ " for splitting"⟩)

/-- The loop over the entries. -/
def collectFiles : List ListedEntry → List Path → Result (List Path)
  | [], files => .ok files
  | entry :: rest, files =>
    match entry.ec with
    | some what => .error ⟨.fileSystem, "telegram_uploader: directory walk failed: " ++ what⟩
    | none => collectFiles rest (if entry.isRegularFile then files ++ [entry.path] else files)

def lexLt {α : Type} [DecidableEq α] (lt : α → α → Bool) : List α → List α → Bool
  | _, [] => false
  | [], _ :: _ => true
  | x :: xs, y :: ys => if x = y then lexLt lt xs ys else lt x y

/-- `fs::path`'s order: by the components, which are ordered as strings. -/
def pathLt (a b : Path) : Bool :=
  let componentLt (x y : String) := lexLt (fun c d => decide (c.toNat < d.toNat)) x.toList y.toList
  lexLt componentLt (a.splitOn "/") (b.splitOn "/")

/-- `std::ranges::sort` -/
def sortPaths (files : List Path) : List Path := files.mergeSort fun a b => !pathLt b a

namespace TelegramUploader

variable (T : TelegramUploader)

def uploadWhole (chat : ChatId) (path : Path) (size : Nat) (config : UploadConfig) :
    Action (Result UploadResult) := do
  let sent : Result Int ←
    Prog.ask (TelegramCall.sendFile chat path (config.caption.getD "") config.thumbnailPath)
  orReturn sent fun msg => pure (.ok { fileId := toString msg, link := "", size := size })

def uploadSplit (path : Path) (config : UploadConfig) : Action (Result UploadResult) := do
  let parts ← splitFile path config.splitSize
  orReturn parts fun parts => do
    let j : Join (partsBody parts.length) (partParallelism T.uploadParallelism parts.length)
        (partsShared parts.length) ← Prog.ask (TelegramCall.joinParts T.uploadParallelism parts)
    pure j.result

def uploadSized (chat : ChatId) (path : Path) (size : Nat) (config : UploadConfig) :
    Action (Result UploadResult) := do
  let stopped : Bool ← Prog.ask TelegramCall.cancellationState
  if stopped then pure (.error cancelled)
  else if (size : Int) ≤ config.splitSize then uploadWhole chat path size config
  else T.uploadSplit path config

def uploadFile (path : Path) (config : UploadConfig) : Action (Result UploadResult) :=
  match config.chatId with
  | none =>
    pure (.error ⟨.invalidArgument, "telegram_uploader: UploadConfig.chat_id is required"⟩)
  | some chat => do
    let present : Bool ← Prog.ask (TelegramCall.fileExists path)
    if present then
      let size : Except String Nat ← Prog.ask (TelegramCall.fileSize path)
      match size with
      | .error what => pure (sizeFailed what)
      | .ok size => T.uploadSized chat path size config
    else pure (.error ⟨.notFound, "telegram_uploader: file not found: " ++ path⟩)

/-- The files of a directory. -/
def listFiles (path : Path) : Action (Result (List Path)) := do
  let present : Bool ← Prog.ask (TelegramCall.isDirectory path)
  if present then
    let entries : List ListedEntry ← Prog.ask (TelegramCall.walk path)
    orReturn (collectFiles entries []) fun files => pure (.ok (sortPaths files))
  else pure (.error ⟨.invalidArgument, "telegram_uploader: not a directory: " ++ path⟩)

end TelegramUploader

/-- The wait for the workers of a directory. -/
structure JoinFiles where
  files : List Path
  config : UploadConfig

abbrev JoinFiles.Answer (T : TelegramUploader) (c : JoinFiles) : Type :=
  FilesJoin (dirBody c.files.length) (fileParallelism T.uploadFilesParallelism c.files.length)
    fun idx => T.uploadFile (c.files.getD idx "") c.config

abbrev DirAction (T : TelegramUploader) :=
  Prog (TelegramCall ⊕ JoinFiles) (Sum.elim TelegramCall.Answer (JoinFiles.Answer T))

def TelegramUploader.uploadDirectory (T : TelegramUploader) (path : Path) (config : UploadConfig) :
    DirAction T (Result (List UploadResult)) := do
  let files ← (TelegramUploader.listFiles path).embed
  orReturn files fun files =>
    if files = [] then pure (.ok [])
    else do
      let j : JoinFiles.Answer T ⟨files, config⟩ ← Prog.ask (Sum.inr (JoinFiles.mk files config))
      pure j.result

/-! ### What is heeded of a cancellation -/

/-- The answers that make a call return `Cancelled`. -/
def Heeds : (Σ c, TelegramCall.Answer c) → Prop
  | ⟨.cancellationState, stopped⟩ => stopped = true
  | ⟨.sendFile _ _ _ _, sent⟩ => IsCancelled sent
  | ⟨.joinParts configured parts, j⟩ =>
    CancelsFirst (partsBody parts.length) partFailure
      (start (partParallelism configured parts.length) (partsShared parts.length)) j.events
  | _ => False

def DirHeeds (T : TelegramUploader) :
    (Σ c, Sum.elim TelegramCall.Answer (JoinFiles.Answer T) c) → Prop
  | ⟨.inl c, r⟩ => Heeds ⟨c, r⟩
  | ⟨.inr c, j⟩ =>
    CancelsFirst (dirBody c.files.length) (fileFailure (some cancelled))
      (start (fileParallelism T.uploadFilesParallelism c.files.length) {}) j.events

variable {T : TelegramUploader}

theorem decided_sendFile (chat : ChatId) (path : Path) (caption : String) (thumbnail : Option Path) :
    (Prog.ask (TelegramCall.sendFile chat path caption thumbnail) : Action (Result Int)).Decided Heeds
      IsCancelled := by
  show (Prog.ask (TelegramCall.sendFile chat path caption thumbnail) : Action _).Decided Heeds
    fun sent => Heeds ⟨.sendFile chat path caption thumbnail, sent⟩
  exact .ask _

theorem decided_uploadWhole (chat : ChatId) (path : Path) (size : Nat) (config : UploadConfig) :
    (TelegramUploader.uploadWhole chat path size config).Decided Heeds IsCancelled :=
  decided_orReturn (decided_sendFile _ _ _ _) fun _ => decided_ok _

theorem decided_splitParts (src : Path) (left i : Nat) (parts : List Path) :
    (splitParts src left i parts).Decided Heeds IsCancelled := by
  induction left generalizing i parts with
  | zero => exact decided_ok parts
  | succ left ih =>
    refine .ask_bind (fun _ h => h.elim) fun outcome _ => ?_
    cases outcome with
    | cannotCreate => exact decided_error (by simp)
    | failed => exact decided_error (by simp)
    | written => exact ih (i + 1) _

theorem decided_splitFile (src : Path) (chunkBytes : Int) :
    (splitFile src chunkBytes).Decided Heeds IsCancelled := by
  refine .ask_bind (fun _ h => h.elim) fun opened _ => ?_
  split
  · refine .ask_bind (fun _ h => h.elim) fun total _ => ?_
    cases total with
    | error what => exact decided_error (by simp)
    | ok total =>
      dsimp only
      split
      · exact decided_error (by simp)
      · exact decided_splitParts src _ 0 []
  · exact decided_error (by simp)

theorem isCancelled_joinParts {total n : Nat} (j : Join (partsBody total) n (partsShared total)) :
    IsCancelled j.result ↔
      CancelsFirst (partsBody total) partFailure (start n (partsShared total)) j.events :=
  isCancelled_join (keepsFirst_partsBody total) rfl isCancelled_partsVerdict j

theorem isCancelled_joinFiles {size n : Nat} (j : Join (dirBody size) n {}) :
    IsCancelled j.result ↔
      CancelsFirst (dirBody size) (fileFailure (some cancelled)) (start n {}) j.events :=
  isCancelled_join (keepsFirst_dirBody size) rfl isCancelled_dirVerdict j

theorem decided_uploadSplit (path : Path) (config : UploadConfig) :
    (T.uploadSplit path config).Decided Heeds IsCancelled := by
  refine decided_orReturn (decided_splitFile path _) fun parts => ?_
  exact .ask_map isCancelled_joinParts

theorem decided_uploadSized (chat : ChatId) (path : Path) (size : Nat) (config : UploadConfig) :
    (T.uploadSized chat path size config).Decided Heeds IsCancelled := by
  refine .ask_bind ?_ fun stopped hnot => ?_
  · rintro stopped rfl
    exact ends_error rfl
  · have hfalse : stopped = false := eq_false_of_ne_true hnot
    subst hfalse
    rw [if_neg Bool.false_ne_true]
    split
    · exact decided_uploadWhole chat path size config
    · exact decided_uploadSplit path config

theorem decided_uploadFile (path : Path) (config : UploadConfig) :
    (T.uploadFile path config).Decided Heeds IsCancelled := by
  unfold TelegramUploader.uploadFile
  split
  · exact decided_error (by simp)
  · refine .ask_bind (fun _ h => h.elim) fun present _ => ?_
    split
    · refine .ask_bind (fun _ h => h.elim) fun size _ => ?_
      cases size with
      | error what => exact decided_error (by simp)
      | ok size => exact decided_uploadSized _ path size config
    · exact decided_error (by simp)

theorem not_isCancelled_collectFiles (entries : List ListedEntry) (files : List Path) :
    ¬ IsCancelled (collectFiles entries files) := by
  induction entries generalizing files with
  | nil => exact not_isCancelled_ok
  | cons entry rest ih =>
    unfold collectFiles
    split
    · simp [isCancelled_error]
    · exact ih _

theorem decided_listFiles (path : Path) :
    (TelegramUploader.listFiles path).Decided Heeds IsCancelled := by
  refine .ask_bind (fun _ h => h.elim) fun present _ => ?_
  split
  · refine .ask_bind (fun _ h => h.elim) fun entries _ => ?_
    exact decided_orReturn (.pure (not_isCancelled_collectFiles entries [])) fun files => decided_ok _
  · exact decided_error (by simp)

theorem decided_uploadDirectory (path : Path) (config : UploadConfig) :
    (T.uploadDirectory path config).Decided (DirHeeds T) IsCancelled := by
  have hlist : (TelegramUploader.listFiles path).embed.Decided (DirHeeds T) IsCancelled :=
    (decided_listFiles path).embed fun _ _ => Iff.rfl
  refine decided_orReturn hlist fun files => ?_
  split
  · exact decided_ok []
  · exact .ask_map fun j => isCancelled_joinFiles j.toJoin

end Cmlb.Upload.Telegram
