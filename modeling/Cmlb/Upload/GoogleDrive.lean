import Cmlb.Http.BeastClient
import Cmlb.Download.Aria2
import Cmlb.Upload.Failures

/-!
# The Google Drive uploader (`google_drive_uploader.cpp`)

`upload_file` and `upload_directory` as programs over the file system, the HTTP client and the caller's
cancellation state. The worker pools inside them are calls that are answered with a run of the pool up
to where the caller goes on (`WorkerPool.Join`). A call returns `Cancelled` exactly if a check of the
cancellation state finds it, a request of its own is aborted, or the first failure of its workers is a
cancellation (`decided_uploadFile`, `decided_uploadDirectory`): what a worker finds out by itself, or
what ends the wait for them, does not count.

The headers and bodies of the requests are left out, and so are progress callbacks and durations.
-/

namespace Cmlb.Upload.GoogleDrive

open WorkerPool

/-- What the uploader has of its configuration; `ready` says that the credentials were loaded. -/
structure GoogleDriveUploader where
  ready : Bool
  json : JsonLib
  parentFolderId : String
  chunkSize : Nat
  parallelChunksPerFile : Int
  parallelFilesPerDirectory : Int
  maxRetries : Int

inductive DriveRequest
  | tokenExchange (jwt : String)
  | multipart (bearer name parent : String) (content : List UInt8)
  | resumableInit (bearer name parent : String) (total : Nat)
  | createFolder (bearer name parent : String)

/-- What `rs256_sign` fails with: a key that OpenSSL does not read, or another failure of its. -/
inductive SignError
  | badKey (what : String)
  | failed (message : String)

def SignError.toAppError : SignError → AppError
  | .badKey what => ⟨.invalidConfiguration, "gdrive: PEM_read_bio_PrivateKey failed: " ++ what⟩
  | .failed message => ⟨.internal, message⟩

inductive EntryKind
  | directory | file | other
deriving DecidableEq, Repr

/-- An entry of the directory walk: the `error_code` at the top of the loop, the path relative to the
root, as its components, or the message of `fs::relative`. -/
structure WalkEntry where
  ec : Option String
  path : Path
  rel : Except String (List String)
  kind : EntryKind

structure FileWork where
  source : Path
  parentId : String

/-- `probe` opens the file, whose content the workers then read; `abortSession` is
`abort_resumable_session`, of whose outcome only a warning is logged. -/
inductive DriveCall
  | fileExists (path : Path)
  | isDirectory (path : Path)
  | fileSize (path : Path)
  | readFile (path : Path)
  | probe (path : Path)
  | walk (path : Path)
  | cancellationState
  | cachedBearer
  | signJwt
  | storeBearer (value : String) (expires : Int)
  | request (q : DriveRequest)
  | abortSession (uri : String)
  | joinChunks (R : Resumable)

abbrev DriveCall.Answer : DriveCall → Type
  | .fileExists _ | .isDirectory _ | .cancellationState => Bool
  | .fileSize _ => Except String Nat
  | .readFile _ => Option (List UInt8)
  | .probe _ => Option (Nat → UInt8)
  | .walk _ => List WalkEntry
  | .cachedBearer => Option String
  | .signJwt => Except SignError String
  | .storeBearer _ _ => Unit
  | .request _ | .abortSession _ => Result HttpResponse
  | .joinChunks R => Join (chunkBody R) R.parallelism {}

abbrev Action := Prog DriveCall DriveCall.Answer

/-- `status_code / 100 == 2` -/
def isSuccess (resp : HttpResponse) : Bool := resp.statusCode / 100 == 2

def shareLink (fileId : String) : String := "https://drive.google.com/file/d/" ++ fileId ++ "/view"

/-- The token of an answer, and its lifetime in seconds. -/
def parseToken (L : JsonLib) (body : String) : Except String (String × Int) :=
  match L.parse body with
  | .error what => .error what
  | .ok doc =>
    match doc.atKey "access_token" with
    | .error what => .error what
    | .ok token =>
      match token.getString with
      | .error what => .error what
      | .ok value =>
        match doc.value (Json.getInt L.trunc) "expires_in" 3600 with
        | .error what => .error what
        | .ok expires => .ok ("Bearer " ++ value, expires)

/-- The answer of a request that has to succeed and carry a file id. -/
def parseId (L : JsonLib) (returned parse : String) (resp : HttpResponse) : Result String :=
  if isSuccess resp then
    match finalFileId L resp.body with
    | .error what => .error ⟨.jsonParse, parse ++ what⟩
    | .ok id => .ok id
  else .error ⟨.googleDriveApi, returned ++ toString resp.statusCode ++ ": " ++ resp.body⟩

namespace GoogleDriveUploader

variable (G : GoogleDriveUploader)

def tokenOf (resp : HttpResponse) : Result (String × Int) :=
  if resp.statusCode ≠ 200 then
    .error ⟨.unauthenticated,
      "gdrive: token exchange returned " ++ toString resp.statusCode ++ ": " ++ resp.body⟩
  else
    match parseToken G.json resp.body with
    | .error what => .error ⟨.jsonParse, "gdrive: token response parse failed: " ++ what⟩
    | .ok token => .ok token

def mintBearer : Action (Result (String × Int)) := do
  let jwt : Except SignError String ← Prog.ask DriveCall.signJwt
  match jwt with
  | .error err => pure (.error err.toAppError)
  | .ok jwt =>
    let res : Result HttpResponse ← Prog.ask (DriveCall.request (.tokenExchange jwt))
    orReturn res fun resp => pure (G.tokenOf resp)

def acquireBearer : Action (Result String) := do
  let cached : Option String ← Prog.ask DriveCall.cachedBearer
  match cached with
  | some value => pure (.ok value)
  | none =>
    let fresh ← G.mintBearer
    orReturn fresh fun token => do
      let _ ← Prog.ask (DriveCall.storeBearer token.1 token.2)
      pure (.ok token.1)

def uploadMultipart (path : Path) (parentFolder : String) : Action (Result UploadResult) := do
  let content : Option (List UInt8) ← Prog.ask (DriveCall.readFile path)
  match content with
  | none => pure (.error ⟨.io, "gdrive: cannot open " ++ path⟩)
  | some content =>
    let bearer ← G.acquireBearer
    orReturn bearer fun bearer => do
      let res : Result HttpResponse ←
        Prog.ask (DriveCall.request (.multipart bearer (Aria2.filename path) parentFolder content))
      orReturn res fun resp =>
        let id := parseId G.json "gdrive: multipart upload returned " "gdrive: multipart response parse: " resp
        orReturn id fun id => pure (.ok ⟨id, shareLink id, content.length, 0⟩)

/-- The session URI of the answer to the initial request. -/
def sessionOf (resp : HttpResponse) : Result String :=
  if isSuccess resp then
    match Http.findLocation resp.headers with
    | none => .error ⟨.googleDriveApi, "gdrive: resumable session missing Location header"⟩
    | some uri => .ok uri
  else
    .error ⟨.googleDriveApi,
      "gdrive: resumable init returned " ++ toString resp.statusCode ++ ": " ++ resp.body⟩

/-- The chunks of an open session. -/
def uploadChunks (path : Path) (total : Nat) (uri : String) : Action (Result UploadResult) := do
  let file : Option (Nat → UInt8) ← Prog.ask (DriveCall.probe path)
  match file with
  | none =>
    let _ ← Prog.ask (DriveCall.abortSession uri)
    pure (.error ⟨.io, "gdrive: cannot open " ++ path⟩)
  | some file =>
    let R : Resumable :=
      ⟨G.json, path, file, total, G.chunkSize, G.parallelChunksPerFile, G.maxRetries⟩
    let j : Join (chunkBody R) R.parallelism {} ← Prog.ask (DriveCall.joinChunks R)
    if j.state.shared.body.firstError.isSome then
      let _ ← Prog.ask (DriveCall.abortSession uri)
      pure j.result
    else pure j.result

def uploadResumable (path : Path) (parentFolder : String) : Action (Result UploadResult) := do
  let size : Except String Nat ← Prog.ask (DriveCall.fileSize path)
  match size with
  | .error what => pure (.error ⟨.fileSystem, "gdrive: file_size failed: " ++ what⟩)
  | .ok total =>
    let bearer ← G.acquireBearer
    orReturn bearer fun bearer => do
      let res : Result HttpResponse ←
        Prog.ask (DriveCall.request (.resumableInit bearer (Aria2.filename path) parentFolder total))
      orReturn res fun resp => orReturn (sessionOf resp) fun uri => G.uploadChunks path total uri

def notReady {α : Type} : Result α :=
  .error ⟨.invalidState, "gdrive: uploader not ready (credentials missing)"⟩

def noParent {α : Type} : Result α :=
  .error ⟨.invalidArgument, "gdrive: no parent folder id (config + override both empty)"⟩

def cancelled : AppError := ⟨.cancelled, "gdrive: cancelled"⟩

/-- `kMultipartThreshold` decides which way a file goes. -/
def uploadSized (path : Path) (parent : String) (size : Nat) : Action (Result UploadResult) := do
  let stopped : Bool ← Prog.ask DriveCall.cancellationState
  if stopped then pure (.error cancelled)
  else if size ≤ kMultipartThreshold then G.uploadMultipart path parent
  else G.uploadResumable path parent

def uploadFile (path : Path) (config : UploadConfig) : Action (Result UploadResult) :=
  if G.ready then do
    let present : Bool ← Prog.ask (DriveCall.fileExists path)
    if present then
      let size : Except String Nat ← Prog.ask (DriveCall.fileSize path)
      match size with
      | .error what => pure (.error ⟨.fileSystem, "gdrive: file_size failed: " ++ what⟩)
      | .ok size =>
        let parent := config.folderId.getD G.parentFolderId
        if parent = "" then pure noParent else G.uploadSized path parent size
    else pure (.error ⟨.notFound, "gdrive: file not found: " ++ path⟩)
  else pure notReady

def createFolder (name parent : String) : Action (Result String) := do
  let bearer ← G.acquireBearer
  orReturn bearer fun bearer => do
    let res : Result HttpResponse ← Prog.ask (DriveCall.request (.createFolder bearer name parent))
    orReturn res fun resp =>
      pure (parseId G.json "gdrive: create folder returned " "gdrive: create folder parse: " resp)

/-- The loop over the entries. `folderIds` is the map from relative directories to folder ids, the
latest first; a parent that it does not have is taken for the root. -/
def walkEntries (rootId : String) :
    List WalkEntry → List (List String × String) → List FileWork → Action (Result (List FileWork))
  | [], _, work => pure (.ok work)
  | entry :: rest, folderIds, work =>
    match entry.ec with
    | some what => pure (.error ⟨.fileSystem, "gdrive: directory walk failed: " ++ what⟩)
    | none => do
      let stopped : Bool ← Prog.ask DriveCall.cancellationState
      if stopped then pure (.error cancelled)
      else
        match entry.rel with
        | .error what => pure (.error ⟨.fileSystem, "gdrive: relative() failed: " ++ what⟩)
        | .ok rel =>
          let parentId := (folderIds.lookup rel.dropLast).getD rootId
          match entry.kind with
          | .directory =>
            let created ← G.createFolder (rel.getLastD "") parentId
            orReturn created fun id => walkEntries rootId rest ((rel, id) :: folderIds) work
          | .file => walkEntries rootId rest folderIds (work ++ [⟨entry.path, parentId⟩])
          | .other => walkEntries rootId rest folderIds work

/-- The folders are created, and the files are collected. -/
def prepare (path : Path) (config : UploadConfig) : Action (Result (List FileWork)) :=
  if G.ready then do
    let present : Bool ← Prog.ask (DriveCall.isDirectory path)
    if present then
      let rootParent := config.folderId.getD G.parentFolderId
      if rootParent = "" then pure noParent
      else
        let root ← G.createFolder (Aria2.filename path) rootParent
        orReturn root fun rootId => do
          let entries : List WalkEntry ← Prog.ask (DriveCall.walk path)
          G.walkEntries rootId entries [([], rootId)] []
    else pure (.error ⟨.invalidArgument, "gdrive: not a directory: " ++ path⟩)
  else pure notReady

/-- The call of `file_worker` for the work item `idx`. -/
def uploadItem (work : List FileWork) (config : UploadConfig) (idx : Nat) : Action (Result UploadResult) :=
  let w := work.getD idx ⟨"", ""⟩
  G.uploadFile w.source { config with folderId := some w.parentId }

end GoogleDriveUploader

/-- The wait for the workers of a directory. -/
structure JoinFiles where
  work : List FileWork
  config : UploadConfig

abbrev JoinFiles.Answer (G : GoogleDriveUploader) (c : JoinFiles) : Type :=
  FilesJoin (dirBody c.work.length) (fileParallelism G.parallelFilesPerDirectory c.work.length)
    (G.uploadItem c.work c.config)

abbrev DirAction (G : GoogleDriveUploader) :=
  Prog (DriveCall ⊕ JoinFiles) (Sum.elim DriveCall.Answer (JoinFiles.Answer G))

def GoogleDriveUploader.uploadDirectory (G : GoogleDriveUploader) (path : Path) (config : UploadConfig) :
    DirAction G (Result (List UploadResult)) := do
  let work ← (G.prepare path config).embed
  orReturn work fun work => do
    let j : JoinFiles.Answer G ⟨work, config⟩ ← Prog.ask (Sum.inr (JoinFiles.mk work config))
    pure j.result

/-! ### The calls of `acquire_bearer` -/

def DriveCall.ForBearer : DriveCall → Prop
  | .cachedBearer | .signJwt | .storeBearer _ _ | .request (.tokenExchange _) => True
  | _ => False

theorem only_mintBearer (G : GoogleDriveUploader) : G.mintBearer.Only DriveCall.ForBearer := by
  refine .ask_bind trivial fun jwt => ?_
  cases jwt with
  | error err => exact .pure _
  | ok jwt =>
    refine .ask_bind trivial fun res => ?_
    cases res with
    | error err => exact .pure _
    | ok resp => exact .pure _

theorem only_acquireBearer (G : GoogleDriveUploader) : G.acquireBearer.Only DriveCall.ForBearer := by
  refine .ask_bind trivial fun cached => ?_
  cases cached with
  | some value => exact .pure _
  | none =>
    refine (only_mintBearer G).bind fun fresh => ?_
    cases fresh with
    | error err => exact .pure _
    | ok token => exact .ask_bind trivial fun _ => .pure _

/-! ### What is heeded of a cancellation -/

/-- The answers that make a call return `Cancelled`. -/
def Heeds : (Σ c, DriveCall.Answer c) → Prop
  | ⟨.cancellationState, stopped⟩ => stopped = true
  | ⟨.request _, res⟩ => IsCancelled res
  | ⟨.joinChunks R, j⟩ => CancelsFirst (chunkBody R) (chunkFailure R) (start R.parallelism {}) j.events
  | _ => False

def DirHeeds (G : GoogleDriveUploader) :
    (Σ c, Sum.elim DriveCall.Answer (JoinFiles.Answer G) c) → Prop
  | ⟨.inl c, r⟩ => Heeds ⟨c, r⟩
  | ⟨.inr c, j⟩ =>
    CancelsFirst (dirBody c.work.length) (fileFailure none)
      (start (fileParallelism G.parallelFilesPerDirectory c.work.length) {}) j.events

variable {G : GoogleDriveUploader} {α : Type}

theorem decided_request (q : DriveRequest) :
    (Prog.ask (DriveCall.request q) : Action (Result HttpResponse)).Decided Heeds IsCancelled := by
  show (Prog.ask (DriveCall.request q) : Action _).Decided Heeds fun res => Heeds ⟨.request q, res⟩
  exact .ask _

/-- The check of the cancellation state. -/
theorem decided_cancellationState {f : Bool → Action (Result α)} {err : AppError}
    (hstop : f true = pure (.error err)) (herr : err.code = .cancelled)
    (hf : (f false).Decided Heeds IsCancelled) :
    (Prog.ask DriveCall.cancellationState >>= f).Decided Heeds IsCancelled := by
  refine .ask_bind ?_ fun stopped hnot => ?_
  · rintro stopped rfl
    rw [hstop]
    exact ends_error herr
  · have hfalse : stopped = false := eq_false_of_ne_true hnot
    rw [hfalse]
    exact hf

theorem decided_tokenOf (resp : HttpResponse) :
    (pure (G.tokenOf resp) : Action _).Decided Heeds IsCancelled := by
  unfold GoogleDriveUploader.tokenOf
  split
  · exact decided_error (by simp)
  · split
    · exact decided_error (by simp)
    · exact decided_ok _

theorem decided_mintBearer : G.mintBearer.Decided Heeds IsCancelled := by
  refine .ask_bind (fun _ h => h.elim) fun jwt _ => ?_
  cases jwt with
  | error err => exact decided_error (by cases err <;> simp [SignError.toAppError])
  | ok jwt => exact decided_orReturn (decided_request _) decided_tokenOf

theorem decided_acquireBearer : G.acquireBearer.Decided Heeds IsCancelled := by
  refine .ask_bind (fun _ h => h.elim) fun cached _ => ?_
  cases cached with
  | some value => exact decided_ok value
  | none =>
    refine decided_orReturn decided_mintBearer fun token => ?_
    exact .ask_bind (fun _ h => h.elim) fun _ _ => decided_ok token.1

theorem not_isCancelled_parseId {L : JsonLib} {returned parse : String} {resp : HttpResponse} :
    ¬ IsCancelled (parseId L returned parse resp) := by
  unfold parseId
  split
  · split
    · simp [isCancelled_error]
    · exact not_isCancelled_ok
  · simp [isCancelled_error]

theorem not_isCancelled_sessionOf (resp : HttpResponse) :
    ¬ IsCancelled (GoogleDriveUploader.sessionOf resp) := by
  unfold GoogleDriveUploader.sessionOf
  split
  · split
    · simp [isCancelled_error]
    · exact not_isCancelled_ok
  · simp [isCancelled_error]

theorem decided_uploadMultipart (path : Path) (parent : String) :
    (G.uploadMultipart path parent).Decided Heeds IsCancelled := by
  refine .ask_bind (fun _ h => h.elim) fun content _ => ?_
  cases content with
  | none => exact decided_error (by simp)
  | some content =>
    refine decided_orReturn decided_acquireBearer fun bearer => ?_
    refine decided_orReturn (decided_request _) fun resp => ?_
    exact decided_orReturn (.pure not_isCancelled_parseId) fun id => decided_ok _

theorem isCancelled_joinChunks {R : Resumable} (j : Join (chunkBody R) R.parallelism {}) :
    IsCancelled j.result ↔
      CancelsFirst (chunkBody R) (chunkFailure R) (start R.parallelism {}) j.events :=
  isCancelled_join (keepsFirst_chunkBody R) rfl (isCancelled_resumableVerdict R) j

theorem decided_uploadChunks (path : Path) (total : Nat) (uri : String) :
    (G.uploadChunks path total uri).Decided Heeds IsCancelled := by
  refine .ask_bind (fun _ h => h.elim) fun file _ => ?_
  cases file with
  | none => exact .ask_bind (fun _ h => h.elim) fun _ _ => decided_error (by simp)
  | some file =>
    refine .ask_bind ?_ ?_
    · intro j hj
      have hresult := (isCancelled_joinChunks j).2 hj
      split
      · exact .ask_bind fun _ => .pure hresult
      · exact .pure hresult
    · intro j hj
      have hresult := mt (isCancelled_joinChunks j).1 hj
      split
      · exact .ask_bind (fun _ h => h.elim) fun _ _ => .pure hresult
      · exact .pure hresult

theorem decided_uploadResumable (path : Path) (parent : String) :
    (G.uploadResumable path parent).Decided Heeds IsCancelled := by
  refine .ask_bind (fun _ h => h.elim) fun size _ => ?_
  cases size with
  | error what => exact decided_error (by simp)
  | ok total =>
    refine decided_orReturn decided_acquireBearer fun bearer => ?_
    refine decided_orReturn (decided_request _) fun resp => ?_
    exact decided_orReturn (.pure (not_isCancelled_sessionOf resp)) fun uri => decided_uploadChunks path total uri

theorem decided_uploadSized (path : Path) (parent : String) (size : Nat) :
    (G.uploadSized path parent size).Decided Heeds IsCancelled := by
  refine decided_cancellationState rfl rfl ?_
  by_cases hsize : size ≤ kMultipartThreshold
  · rw [if_pos hsize]
    exact decided_uploadMultipart path parent
  · rw [if_neg hsize]
    exact decided_uploadResumable path parent

theorem decided_uploadFile (path : Path) (config : UploadConfig) :
    (G.uploadFile path config).Decided Heeds IsCancelled := by
  unfold GoogleDriveUploader.uploadFile
  split
  · refine .ask_bind (fun _ h => h.elim) fun present _ => ?_
    split
    · refine .ask_bind (fun _ h => h.elim) fun size _ => ?_
      cases size with
      | error what => exact decided_error (by simp)
      | ok size =>
        dsimp only
        split
        · exact decided_error (by simp)
        · exact decided_uploadSized path _ size
    · exact decided_error (by simp)
  · exact decided_error (by simp)

theorem decided_createFolder (name parent : String) :
    (G.createFolder name parent).Decided Heeds IsCancelled := by
  refine decided_orReturn decided_acquireBearer fun bearer => ?_
  exact decided_orReturn (decided_request _) fun resp => .pure not_isCancelled_parseId

theorem decided_walkEntries (rootId : String) (entries : List WalkEntry)
    (folderIds : List (List String × String)) (work : List FileWork) :
    (G.walkEntries rootId entries folderIds work).Decided Heeds IsCancelled := by
  induction entries generalizing folderIds work with
  | nil => exact decided_ok work
  | cons entry rest ih =>
    unfold GoogleDriveUploader.walkEntries
    split
    · exact decided_error (by simp)
    · refine decided_cancellationState rfl rfl ?_
      rw [if_neg Bool.false_ne_true]
      split
      · exact decided_error (by simp)
      · split
        · exact decided_orReturn (decided_createFolder _ _) fun id => ih _ work
        · exact ih folderIds _
        · exact ih folderIds work

theorem isCancelled_joinFiles {size n : Nat} (j : Join (dirBody size) n {}) :
    IsCancelled j.result ↔ CancelsFirst (dirBody size) (fileFailure none) (start n {}) j.events :=
  isCancelled_join (keepsFirst_dirBody size) rfl isCancelled_dirVerdict j

theorem decided_prepare (path : Path) (config : UploadConfig) :
    (G.prepare path config).Decided Heeds IsCancelled := by
  unfold GoogleDriveUploader.prepare
  split
  · refine .ask_bind (fun _ h => h.elim) fun present _ => ?_
    split
    · dsimp only
      split
      · exact decided_error (by simp)
      · refine decided_orReturn (decided_createFolder _ _) fun rootId => ?_
        exact .ask_bind (fun _ h => h.elim) fun entries _ => decided_walkEntries rootId entries _ []
    · exact decided_error (by simp)
  · exact decided_error (by simp)

theorem decided_uploadDirectory (path : Path) (config : UploadConfig) :
    (G.uploadDirectory path config).Decided (DirHeeds G) IsCancelled := by
  have hprepare : (G.prepare path config).embed.Decided (DirHeeds G) IsCancelled :=
    (decided_prepare path config).embed fun _ _ => Iff.rfl
  refine decided_orReturn hprepare fun work => ?_
  exact .ask_map fun j => isCancelled_joinFiles j.toJoin

end Cmlb.Upload.GoogleDrive
