import Cmlb.Upload.DirectoryTree
import Cmlb.Upload.Telegram

/-!
# A directory walk that fails

`upload_directory` looks at `ec` at the top of the loop's body only. When opening or advancing the
iterator fails, `ec` is set and the iterator is the end iterator, so that the loop is left by its
condition: what was found so far is uploaded, and the failure is never reported
(`failed_walk_unreported`). With `ec` and its values written out the uploaders make the same calls and
return the same (`GoogleDrive.erase_uploadDirectoryEc`, `Telegram.erase_uploadDirectoryEc`).
-/

namespace Cmlb.Upload

open WorkerPool

/-- `ec` as opening or advancing the iterator sets it: `rest` are the entries that the iterator still
has, and `failure` is the code of the error that makes it the end iterator, if there is one. -/
def ecAt {ε : Type} (failure : Option String) : List ε → Option String
  | [] => failure
  | _ :: _ => none

namespace GoogleDrive

namespace GoogleDriveUploader

variable (G : GoogleDriveUploader)

/-- The loop over the entries with its variable `ec`, which is returned as the loop leaves it. -/
def walkEntriesEc (failure : Option String) (rootId : String) : Option String → List WalkEntry →
    List (List String × String) → List FileWork → Action (Result (List FileWork × Option String))
  | ec, [], _, work => pure (.ok (work, ec))
  | ec, entry :: rest, folderIds, work =>
    match ec with
    | some what => pure (.error ⟨.fileSystem, "gdrive: directory walk failed: " ++ what⟩)
    | none => do
      let stopped : Bool ← Prog.ask DriveCall.cancellationState
      if stopped then pure (.error cancelled)
      else
        match entry.rel with
        | .error what => pure (.error ⟨.fileSystem, "gdrive: relative() failed: " ++ what⟩)
        | .ok rel =>
          let parentId := (folderIds.lookup rel.dropLast).getD rootId
          match entry.kind with
          | .directory =>
            let created ← G.createFolder (rel.getLastD "") parentId
            orReturn created fun id =>
              walkEntriesEc failure rootId (ecAt failure rest) rest ((rel, id) :: folderIds) work
          | .file =>
            walkEntriesEc failure rootId (ecAt failure rest) rest folderIds
              (work ++ [⟨entry.path, parentId⟩])
          | .other => walkEntriesEc failure rootId (ecAt failure rest) rest folderIds work

def prepareEc (failure : Option String) (path : Path) (config : UploadConfig) :
    Action (Result (List FileWork × Option String)) :=
  if G.ready then do
    let present : Bool ← Prog.ask (DriveCall.isDirectory path)
    if present then
      let rootParent := config.folderId.getD G.parentFolderId
      if rootParent = "" then pure noParent
      else
        let root ← G.createFolder (Aria2.filename path) rootParent
        orReturn root fun rootId => do
          let entries : List WalkEntry ← Prog.ask (DriveCall.walk path)
          G.walkEntriesEc failure rootId (ecAt failure entries) entries [([], rootId)] []
    else pure (.error ⟨.invalidArgument, "gdrive: not a directory: " ++ path⟩)
  else pure notReady

/-- `upload_directory`, with `ec` as its loop leaves it. -/
def uploadDirectoryEc (failure : Option String) (path : Path) (config : UploadConfig) :
    DirAction G (Option String × Result (List UploadResult)) := do
  let work ← (G.prepareEc failure path config).embed
  match work with
  | .error err => pure (none, .error err)
  | .ok (work, ec) =>
    let j : JoinFiles.Answer G ⟨work, config⟩ ← Prog.ask (Sum.inr (JoinFiles.mk work config))
    pure (ec, j.result)

end GoogleDriveUploader

/-- An error is returned before any files are handed to the workers. -/
def Reported {G : GoogleDriveUploader} (log : DirLog G) (r : Result (List UploadResult)) : Prop :=
  (∃ err, r = .error err) ∧ ∀ c j, (⟨.inr c, j⟩ : Σ c, Sum.elim DriveCall.Answer (JoinFiles.Answer G) c) ∉ log

section Erase

variable {G : GoogleDriveUploader} {failure : Option String}

/-- In the answer of a walk no entry has an error code. -/
def WalkClean : (Σ c, DriveCall.Answer c) → Prop
  | ⟨.walk _, entries⟩ => ∀ e ∈ entries, e.ec = none
  | _ => True

/-- Where only the iterator sets `ec`, the variable makes no difference to the loop. -/
theorem erase_walkEntriesEc (rootId : String) {entries : List WalkEntry} (h : ∀ e ∈ entries, e.ec = none)
    (folderIds : List (List String × String)) (work : List FileWork) :
    Prog.Erases WalkClean (Except.map Prod.fst)
      (G.walkEntriesEc failure rootId (ecAt failure entries) entries folderIds work)
      (G.walkEntries rootId entries folderIds work) := by
  induction entries generalizing folderIds work with
  | nil => exact .pure rfl
  | cons entry rest ih =>
    obtain ⟨hec, hrest⟩ := List.forall_mem_cons.1 h
    obtain ⟨ec, path, rel, kind⟩ := entry
    cases hec
    refine .ask_bind fun stopped _ => ?_
    cases stopped with
    | true => exact .pure rfl
    | false =>
      cases rel with
      | error what => exact .pure rfl
      | ok rel =>
        cases kind with
        | directory =>
          refine (Prog.Erases.refl _).bind fun created => ?_
          cases created with
          | error err => exact .pure rfl
          | ok id => exact ih hrest _ work
        | file => exact ih hrest folderIds _
        | other => exact ih hrest folderIds work

theorem erase_prepareEc (path : Path) (config : UploadConfig) :
    Prog.Erases WalkClean (Except.map Prod.fst) (G.prepareEc failure path config) (G.prepare path config) := by
  unfold GoogleDriveUploader.prepareEc GoogleDriveUploader.prepare
  split
  · refine .ask_bind fun present _ => ?_
    split
    · dsimp only
      split
      · exact .pure rfl
      · refine (Prog.Erases.refl _).bind fun root => ?_
        cases root with
        | error err => exact .pure rfl
        | ok rootId => exact .ask_bind fun entries hclean => erase_walkEntriesEc rootId hclean _ _
    · exact .pure rfl
  · exact .pure rfl

def DirClean : (Σ c, Sum.elim DriveCall.Answer (JoinFiles.Answer G) c) → Prop
  | ⟨.inl c, r⟩ => WalkClean ⟨c, r⟩
  | ⟨.inr _, _⟩ => True

/-- The runs of `upload_directory` are those with its variable left out. -/
theorem erase_uploadDirectoryEc (path : Path) (config : UploadConfig) :
    Prog.Erases DirClean Prod.snd (G.uploadDirectoryEc failure path config)
      (G.uploadDirectory path config) := by
  refine ((erase_prepareEc path config).embed fun _ _ h => h).bind fun work => ?_
  cases work with
  | error err => exact .pure rfl
  | ok found => exact .ask_bind fun j _ => .pure rfl

end Erase

/-- A walk that fails is not reported: what was found is handed to the workers. -/
theorem not_reported_of_failed_walk {G : GoogleDriveUploader} {failure : Option String} {path : Path}
    {config : UploadConfig} {log : DirLog G} {what : String} {r : Result (List UploadResult)}
    (h : (G.uploadDirectoryEc failure path config).Dialog log (some what, r)) : ¬Reported log r := by
  rintro ⟨-, hnone⟩
  obtain ⟨log₁, log₂, work, rfl, -, h₂⟩ := h.bind_inv
  cases work with
  | error err => cases h₂.pure_inv.2
  | ok found =>
    obtain ⟨j, log₃, rfl, -⟩ := h₂.ask_bind_inv
    exact hnone _ j (List.mem_append_right _ List.mem_cons_self)

end GoogleDrive

namespace Telegram

/-- The loop over the entries with its variable `ec`, which is returned as the loop leaves it. -/
def collectFilesEc (failure : Option String) :
    Option String → List ListedEntry → List Path → Result (List Path × Option String)
  | ec, [], files => .ok (files, ec)
  | ec, entry :: rest, files =>
    match ec with
    | some what => .error ⟨.fileSystem, "telegram_uploader: directory walk failed: " ++ what⟩
    | none =>
      collectFilesEc failure (ecAt failure rest) rest
        (if entry.isRegularFile then files ++ [entry.path] else files)

namespace TelegramUploader

def listFilesEc (failure : Option String) (path : Path) : Action (Result (List Path × Option String)) := do
  let present : Bool ← Prog.ask (TelegramCall.isDirectory path)
  if present then
    let entries : List ListedEntry ← Prog.ask (TelegramCall.walk path)
    orReturn (collectFilesEc failure (ecAt failure entries) entries []) fun found =>
      pure (.ok (sortPaths found.1, found.2))
  else pure (.error ⟨.invalidArgument, "telegram_uploader: not a directory: " ++ path⟩)

/-- `upload_directory`, with `ec` as its loop leaves it. -/
def uploadDirectoryEc (T : TelegramUploader) (failure : Option String) (path : Path)
    (config : UploadConfig) : DirAction T (Option String × Result (List UploadResult)) := do
  let found ← (listFilesEc failure path).embed
  match found with
  | .error err => pure (none, .error err)
  | .ok (files, ec) =>
    if files = [] then pure (ec, .ok [])
    else do
      let j : JoinFiles.Answer T ⟨files, config⟩ ← Prog.ask (Sum.inr (JoinFiles.mk files config))
      pure (ec, j.result)

end TelegramUploader

abbrev DirLog (T : TelegramUploader) :=
  List (Σ c, Sum.elim TelegramCall.Answer (JoinFiles.Answer T) c)

/-- An error is returned before any files are handed to the workers. -/
def Reported {T : TelegramUploader} (log : DirLog T) (r : Result (List UploadResult)) : Prop :=
  (∃ err, r = .error err) ∧
    ∀ c j, (⟨.inr c, j⟩ : Σ c, Sum.elim TelegramCall.Answer (JoinFiles.Answer T) c) ∉ log

section Erase

variable {T : TelegramUploader} {failure : Option String}

/-- In the answer of a walk no entry has an error code. -/
def WalkClean : (Σ c, TelegramCall.Answer c) → Prop
  | ⟨.walk _, entries⟩ => ∀ e ∈ entries, e.ec = none
  | _ => True

/-- Where only the iterator sets `ec`, the variable makes no difference to the loop. -/
theorem erase_collectFilesEc {entries : List ListedEntry} (h : ∀ e ∈ entries, e.ec = none)
    (files : List Path) :
    collectFilesEc failure (ecAt failure entries) entries files =
      (collectFiles entries files).map fun files => (files, failure) := by
  induction entries generalizing files with
  | nil => rfl
  | cons entry rest ih =>
    obtain ⟨hec, hrest⟩ := List.forall_mem_cons.1 h
    unfold collectFiles
    rw [hec]
    exact ih hrest _

theorem erase_listFilesEc (path : Path) :
    Prog.Erases WalkClean (Except.map Prod.fst) (TelegramUploader.listFilesEc failure path)
      (TelegramUploader.listFiles path) := by
  refine .ask_bind fun present _ => ?_
  split
  · refine .ask_bind fun entries hclean => ?_
    rw [erase_collectFilesEc hclean]
    cases collectFiles entries [] with
    | error err => exact .pure rfl
    | ok files => exact .pure rfl
  · exact .pure rfl

def DirClean : (Σ c, Sum.elim TelegramCall.Answer (JoinFiles.Answer T) c) → Prop
  | ⟨.inl c, r⟩ => WalkClean ⟨c, r⟩
  | ⟨.inr _, _⟩ => True

/-- The runs of `upload_directory` are those with its variable left out. -/
theorem erase_uploadDirectoryEc (path : Path) (config : UploadConfig) :
    Prog.Erases DirClean Prod.snd (T.uploadDirectoryEc failure path config)
      (T.uploadDirectory path config) := by
  refine ((erase_listFilesEc path).embed fun _ _ h => h).bind fun found => ?_
  cases found with
  | error err => exact .pure rfl
  | ok found =>
    show Prog.Erases _ _ (if _ then _ else _) (if _ then _ else _)
    split
    · exact .pure rfl
    · exact .ask_bind fun j _ => .pure rfl

end Erase

/-- A walk that fails is not reported: what was found is handed to the workers, and nothing is returned
where nothing was found. -/
theorem not_reported_of_failed_walk {T : TelegramUploader} {failure : Option String} {path : Path}
    {config : UploadConfig} {log : DirLog T} {what : String} {r : Result (List UploadResult)}
    (h : (T.uploadDirectoryEc failure path config).Dialog log (some what, r)) : ¬Reported log r := by
  rintro ⟨⟨err, rfl⟩, hnone⟩
  obtain ⟨log₁, log₂, found, rfl, -, h₂⟩ := h.bind_inv
  cases found with
  | error err => cases h₂.pure_inv.2
  | ok found =>
    dsimp only at h₂
    split at h₂
    · have heq := congrArg Prod.snd h₂.pure_inv.2
      cases heq
    · obtain ⟨j, log₃, rfl, -⟩ := h₂.ask_bind_inv
      exact hnone _ j (List.mem_append_right _ List.mem_cons_self)

end Telegram

/-- For every tree, and wherever opening or advancing the iterator fails, neither uploader reports it. -/
theorem failed_walk_unreported (G : GoogleDrive.GoogleDriveUploader) (T : Telegram.TelegramUploader)
    (failure : Option String) (path : Path) (config : UploadConfig) (what : String)
    (r : Result (List UploadResult)) :
    (∀ log, (G.uploadDirectoryEc failure path config).Dialog log (some what, r) →
      ¬GoogleDrive.Reported log r) ∧
    (∀ log, (T.uploadDirectoryEc failure path config).Dialog log (some what, r) →
      ¬Telegram.Reported log r) :=
  ⟨fun _ h => GoogleDrive.not_reported_of_failed_walk h, fun _ h => Telegram.not_reported_of_failed_walk h⟩

/-! ### A directory that cannot be opened -/

def tooMany : Option String := some "Too many open files"

/-- The one worker finds nothing to do. -/
def findsNothing (i : Fin (GoogleDrive.fileParallelism 1 0)) :
    List (PoolEvent (GoogleDrive.fileParallelism 1 0) DirEvent) :=
  [.env .spawn, .env .startWait, .act i .start, .act i (.run .run), .act i (.run (.cancelState false)),
    .act i (.run .run), .act i .exit, .act i .cancel]

theorem exists_empty_join :
    ∃ j : GoogleDrive.JoinFiles.Answer GoogleDrive.echoing ⟨[], {}⟩, j.result = .ok [] := by
  have hrun : ∃ s, (GoogleDrive.dirPool 1 0).Runs (GoogleDrive.dirStart 1 0)
      (findsNothing ⟨0, by decide⟩) s ∧ s.shared.parent = .woken ∧ s.shared.body.calls = [] ∧
        dirVerdict s.shared.body = .ok [] :=
    ⟨_, .cons trivial rfl (.cons trivial rfl (.cons trivial rfl (.cons trivial rfl (.cons trivial rfl
      (.cons trivial rfl (.cons trivial rfl (.cons trivial rfl (.nil _)))))))), rfl, rfl, rfl⟩
  obtain ⟨s, hs, hwoken, hcalls, hverdict⟩ := hrun
  refine ⟨⟨⟨_, s, hs, hwoken⟩, fun _ => [], ?_⟩, hverdict⟩
  intro m idx r hm
  rw [hcalls] at hm
  cases hm

/-- The root folder is created, and the directory is not opened. -/
def opensNothing : List (Σ c, GoogleDrive.DriveCall.Answer c) :=
  [⟨.isDirectory "/d", true⟩, ⟨.cachedBearer, some "Bearer t"⟩,
    ⟨.request (.createFolder "Bearer t" "d" "parent"), .ok ⟨200, "1", []⟩⟩, ⟨.walk "/d", []⟩]

theorem exists_drive_run : ∃ log : GoogleDrive.DirLog GoogleDrive.echoing,
    (GoogleDrive.echoing.uploadDirectoryEc tooMany "/d" {}).Dialog log (tooMany, .ok []) := by
  obtain ⟨j, hj⟩ := exists_empty_join
  have hprepare : (GoogleDrive.echoing.prepareEc tooMany "/d" {}).Dialog opensNothing (.ok ([], tooMany)) :=
    .call _ (.call _ (.call _ (.call _ (.pure _))))
  have hjoin : ((Prog.ask (Sum.inr (GoogleDrive.JoinFiles.mk [] {})) :
      GoogleDrive.DirAction GoogleDrive.echoing _) >>= fun j => pure (tooMany, j.result)).Dialog
        [⟨.inr ⟨[], {}⟩, j⟩] (tooMany, j.result) := by
    refine Prog.Dialog.ask_bind ?_ ?_
    exact .pure _
  rw [hj] at hjoin
  exact ⟨_, hprepare.embed.bind hjoin⟩

def telegramUploader : Telegram.TelegramUploader := ⟨1, 1⟩

theorem exists_telegram_run : ∃ log : Telegram.DirLog telegramUploader,
    (telegramUploader.uploadDirectoryEc tooMany "/d" {}).Dialog log (tooMany, .ok []) := by
  have hlist : (Telegram.TelegramUploader.listFilesEc tooMany "/d").Dialog
      [⟨.isDirectory "/d", true⟩, ⟨.walk "/d", []⟩] (.ok ([], tooMany)) := by
    have hsorted : Telegram.sortPaths [] = [] := by simp [Telegram.sortPaths]
    rw [← hsorted]
    exact .call _ (.call _ (.pure _))
  exact ⟨_, hlist.embed.bind (.pure _)⟩

/-- Neither upload of a directory that cannot be opened is reported as failed. -/
theorem failed_walk_unreported_unopened :
    (∃ log : GoogleDrive.DirLog GoogleDrive.echoing, ¬GoogleDrive.Reported log (.ok [])) ∧
      ∃ log : Telegram.DirLog telegramUploader, ¬Telegram.Reported log (.ok []) := by
  obtain ⟨log, hlog⟩ := exists_drive_run
  obtain ⟨log', hlog'⟩ := exists_telegram_run
  have hunreported := failed_walk_unreported GoogleDrive.echoing telegramUploader tooMany "/d" {}
    "Too many open files" (.ok [])
  exact ⟨⟨log, hunreported.1 log hlog⟩, ⟨log', hunreported.2 log' hlog'⟩⟩

/-- Both uploaders return an empty vector for a directory that cannot be opened. -/
theorem unopened_directory_returned :
    (∃ log : GoogleDrive.DirLog GoogleDrive.echoing,
      (GoogleDrive.echoing.uploadDirectoryEc tooMany "/d" {}).Dialog log (tooMany, .ok []) ∧
        ¬GoogleDrive.Reported log (.ok [])) ∧
    ∃ log : Telegram.DirLog telegramUploader,
      (telegramUploader.uploadDirectoryEc tooMany "/d" {}).Dialog log (tooMany, .ok []) ∧
        ¬Telegram.Reported log (.ok []) := by
  obtain ⟨log, hlog⟩ := exists_drive_run
  obtain ⟨log', hlog'⟩ := exists_telegram_run
  refine ⟨⟨log, hlog, ?_⟩, ⟨log', hlog', ?_⟩⟩
  · rintro ⟨⟨err, herr⟩, -⟩
    cases herr
  · rintro ⟨⟨err, herr⟩, -⟩
    cases herr

end Cmlb.Upload
