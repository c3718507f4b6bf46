import Cmlb.Upload.GoogleDrive
import Cmlb.Upload.Telegram
import Cmlb.Upload.Rclone

/-!
# Cancelled uploads

The ways in which a cancellation reaches an upload that is under way: the cancellation state that the
call or one of its workers reads, an HTTP request that is aborted, the end of the wait for the workers,
and an rclone child that was terminated. An upload that is cancelled returns `Cancelled` exactly if one
of these is a way that its uploader heeds (`cancelled_kept_iff`).
-/

namespace Cmlb.Upload

open WorkerPool

namespace GoogleDrive

def ChunkCancels {n : Nat} : PoolEvent n ChunkEvent → Prop
  | .env .interrupt => True
  | .act _ (.run (.cancelState c)) => c = true
  | .act _ (.run (.bearer res)) => IsCancelled res
  | .act _ (.run (.answer res)) => IsCancelled res
  | _ => False

/-- The cancellations of `upload_file`. -/
def Cancels : (Σ c, DriveCall.Answer c) → Prop
  | ⟨.cancellationState, stopped⟩ => stopped = true
  | ⟨.request _, res⟩ => IsCancelled res
  | ⟨.abortSession _, res⟩ => IsCancelled res
  | ⟨.joinChunks _, j⟩ => ∃ e ∈ j.events, ChunkCancels e
  | _ => False

end GoogleDrive

/-- The wait for the workers of a directory is ended, or one of them finds itself cancelled. -/
def FileCancels {n : Nat} : PoolEvent n DirEvent → Prop
  | .env .interrupt => True
  | .act _ (.run (.cancelState c)) => c = true
  | _ => False

/-- The workers of a directory are cancelled, or an `upload_file` call of theirs is. -/
def FilesJoin.Cancelled {γ : Type} {ρ : γ → Type} {n : Nat}
    {B : WorkerBody DirShared DirPc DirEvent (Result (List UploadResult))}
    {uploadFile : Nat → Prog γ ρ (Result UploadResult)} (cancels : (Σ c, ρ c) → Prop)
    (j : FilesJoin B n uploadFile) : Prop :=
  (∃ e ∈ j.events, FileCancels e) ∨
    ∃ m idx r, j.state.shared.body.calls[m]? = some (idx, some r) ∧ ∃ x ∈ j.logs m, cancels x

/-- The cancellations of `upload_directory`. -/
def GoogleDrive.DirCancels (G : GoogleDriveUploader) :
    (Σ c, Sum.elim DriveCall.Answer (JoinFiles.Answer G) c) → Prop
  | ⟨.inl c, r⟩ => Cancels ⟨c, r⟩
  | ⟨.inr _, j⟩ => FilesJoin.Cancelled Cancels j

namespace Telegram

def PartCancels {n : Nat} : PoolEvent n PartEvent → Prop
  | .env .interrupt => True
  | .act _ (.run (.cancelState c)) => c = true
  | .act _ (.run (.sent res)) => IsCancelled res
  | _ => False

/-- The cancellations of `upload_file`. -/
def Cancels : (Σ c, TelegramCall.Answer c) → Prop
  | ⟨.cancellationState, stopped⟩ => stopped = true
  | ⟨.sendFile _ _ _ _, sent⟩ => IsCancelled sent
  | ⟨.joinParts _ _, j⟩ => ∃ e ∈ j.events, PartCancels e
  | _ => False

/-- The cancellations of `upload_directory`. -/
def DirCancels (T : TelegramUploader) :
    (Σ c, Sum.elim TelegramCall.Answer (JoinFiles.Answer T) c) → Prop
  | ⟨.inl c, r⟩ => Cancels ⟨c, r⟩
  | ⟨.inr _, j⟩ => FilesJoin.Cancelled Cancels j

end Telegram

section

variable {γ : Type} {ρ : γ → Type} {α : Type}

/-- An upload that is cancelled returns `Cancelled`. -/
def KeepsCancelled (cancels : (Σ c, ρ c) → Prop) (log : List (Σ c, ρ c)) (r : Result α) : Prop :=
  (∃ x ∈ log, cancels x) → IsCancelled r

/-- If the upload is cancelled, it is so in a way that is heeded. -/
def Heeded (cancels heeds : (Σ c, ρ c) → Prop) (log : List (Σ c, ρ c)) : Prop :=
  (∃ x ∈ log, cancels x) → ∃ x ∈ log, heeds x

theorem keepsCancelled_iff {cancels heeds : (Σ c, ρ c) → Prop} {p : Prog γ ρ (Result α)}
    {log : List (Σ c, ρ c)} {r : Result α} (hp : p.Decided heeds IsCancelled) (h : p.Dialog log r) :
    KeepsCancelled cancels log r ↔ Heeded cancels heeds log :=
  imp_congr_right fun _ => hp log r h

end

/-- For each uploader and each of its two functions: a call that is cancelled while it is in progress
returns `Cancelled` exactly if one of the cancellations reaches it in a way that it heeds. -/
theorem cancelled_kept_iff (G : GoogleDrive.GoogleDriveUploader) (T : Telegram.TelegramUploader)
    (U : Rclone.RcloneUploader) (path : Path) (config : UploadConfig) :
    (∀ log r, (G.uploadFile path config).Dialog log r →
      (KeepsCancelled GoogleDrive.Cancels log r ↔ Heeded GoogleDrive.Cancels GoogleDrive.Heeds log)) ∧
    (∀ log r, (G.uploadDirectory path config).Dialog log r →
      (KeepsCancelled (GoogleDrive.DirCancels G) log r ↔
        Heeded (GoogleDrive.DirCancels G) (GoogleDrive.DirHeeds G) log)) ∧
    (∀ log r, (T.uploadFile path config).Dialog log r →
      (KeepsCancelled Telegram.Cancels log r ↔ Heeded Telegram.Cancels Telegram.Heeds log)) ∧
    (∀ log r, (T.uploadDirectory path config).Dialog log r →
      (KeepsCancelled (Telegram.DirCancels T) log r ↔
        Heeded (Telegram.DirCancels T) (Telegram.DirHeeds T) log)) ∧
    (∀ log r, (U.uploadFile path config).Dialog log r →
      (KeepsCancelled Rclone.Cancels log r ↔ Heeded Rclone.Cancels Rclone.Heeds log)) ∧
    (∀ log r, (U.uploadDirectory path config).Dialog log r →
      (KeepsCancelled Rclone.Cancels log r ↔ Heeded Rclone.Cancels Rclone.Heeds log)) := by
  refine ⟨fun log r h => ?_, fun log r h => ?_, fun log r h => ?_, fun log r h => ?_, fun log r h => ?_,
    fun log r h => ?_⟩
  · exact keepsCancelled_iff (GoogleDrive.decided_uploadFile path config) h
  · exact keepsCancelled_iff (GoogleDrive.decided_uploadDirectory path config) h
  · exact keepsCancelled_iff (Telegram.decided_uploadFile path config) h
  · exact keepsCancelled_iff (Telegram.decided_uploadDirectory path config) h
  · exact keepsCancelled_iff (Rclone.decided_uploadFile path config) h
  · exact keepsCancelled_iff (Rclone.decided_uploadDirectory path config) h

def rcloneUploader : Rclone.RcloneUploader := ⟨{}, fun _ => none⟩

def toRemote : UploadConfig := { rclonePath := some "remote:" }

/-- The cancellation terminates the child that copies. -/
def whileCopying (c : Rclone.RcloneCall) : Rclone.RcloneCall.Answer c :=
  match c with
  | .fileExists _ | .isDirectory _ => true
  | .readiness => (1 : Int)
  | .setReadiness _ => ()
  | .cancellationState => false
  | .run _ _ => .ok ⟨143, [], "", false, true⟩

/-- The cancellation comes while the binary is probed. -/
def whileProbing (c : Rclone.RcloneCall) : Rclone.RcloneCall.Answer c :=
  match c with
  | .cancellationState => true
  | c => whileCopying c

theorem cancelled_kept_whileProbing : ∃ log r,
    (rcloneUploader.uploadFile "/data/a" toRemote).Dialog log r ∧ (∃ x ∈ log, Rclone.Cancels x) ∧
    KeepsCancelled Rclone.Cancels log r := by
  have hd := Prog.dialog_converse whileProbing (rcloneUploader.uploadFile "/data/a" toRemote)
  have hmem : (⟨.cancellationState, true⟩ : Σ c, Rclone.RcloneCall.Answer c) ∈
      ((rcloneUploader.uploadFile "/data/a" toRemote).converse whileProbing).1 :=
    List.mem_cons_of_mem _ (List.mem_cons_of_mem _ List.mem_cons_self)
  have hall := cancelled_kept_iff ⟨true, ⟨.error, fun _ => 0⟩, "", 0, 0, 0, 0⟩ ⟨0, 0⟩ rcloneUploader
    "/data/a" toRemote
  refine ⟨_, _, hd, ⟨_, hmem, rfl⟩, (hall.2.2.2.2.1 _ _ hd).2 ?_⟩
  exact fun _ => ⟨_, hmem, rfl⟩

/-- Every answer of Google Drive has the id `folder`. -/
def driveUploader : GoogleDrive.GoogleDriveUploader :=
  ⟨true, ⟨fun _ => .ok (.object [("id", .string "folder")]), fun _ => 0⟩, "parent", 0, 1, 1, 0⟩

def oneFile : List GoogleDrive.FileWork := [⟨"/data/d/f", "folder"⟩]

/-- The caller is cancelled at the join, while the worker uploads the one file. -/
def cancelledJoin : List (PoolEvent 1 DirEvent) :=
  [.env .spawn, .env .startWait, .act 0 .start, .act 0 (.run .run), .act 0 (.run (.cancelState false)),
    .act 0 (.run .run), .env .interrupt]

theorem exists_cancelledJoin : ∃ j : GoogleDrive.JoinFiles.Answer driveUploader ⟨oneFile, {}⟩,
    j.events = cancelledJoin ∧ j.result = .ok [] := by
  have hrun : ∃ s, (GoogleDrive.dirPool 1 1).Runs (GoogleDrive.dirStart 1 1) cancelledJoin s ∧
      s.shared.parent = .woken ∧ s.shared.body.calls = [] ∧ dirVerdict s.shared.body = .ok [] :=
    ⟨_, .cons trivial rfl (.cons trivial rfl (.cons trivial rfl (.cons trivial rfl (.cons trivial rfl
      (.cons trivial rfl (.cons trivial rfl (.nil _))))))), rfl, rfl, rfl⟩
  obtain ⟨s, hs, hwoken, hcalls, hresult⟩ := hrun
  refine ⟨⟨⟨cancelledJoin, s, hs, hwoken⟩, fun _ => [], ?_⟩, rfl, hresult⟩
  intro m idx r hm
  rw [hcalls] at hm
  cases hm

/-- The folder of the directory is created, and its one file is found. -/
def listing : List (Σ c, GoogleDrive.DriveCall.Answer c) :=
  [⟨.isDirectory "/data/d", true⟩, ⟨.cachedBearer, some "Bearer token"⟩,
    ⟨.request (.createFolder "Bearer token" "d" "parent"), .ok ⟨200, "", []⟩⟩,
    ⟨.walk "/data/d", [⟨none, "/data/d/f", .ok ["f"], .file⟩]⟩, ⟨.cancellationState, false⟩]

theorem prepare_listing : (driveUploader.prepare "/data/d" {}).Dialog listing (.ok oneFile) :=
  .call _ (.call _ (.call _ (.call _ (.call _ (.pure _)))))

theorem cancellation_lost :
    (∃ log r, (rcloneUploader.uploadFile "/data/a" toRemote).Dialog log r ∧
      (∃ x ∈ log, Rclone.Cancels x) ∧ ¬ IsCancelled r) ∧
    ∃ log, (driveUploader.uploadDirectory "/data/d" {}).Dialog log (.ok []) ∧
      ∃ x ∈ log, GoogleDrive.DirCancels driveUploader x := by
  constructor
  · refine ⟨_, _, Prog.dialog_converse whileCopying _, ?_, ?_⟩
    · exact ⟨⟨.run "rclone" _, .ok ⟨143, [], "", false, true⟩⟩,
        List.mem_cons_of_mem _ (List.mem_cons_of_mem _ (List.mem_cons_of_mem _ List.mem_cons_self)), rfl⟩
    · rintro ⟨err, hr, hcode⟩
      cases hr
      cases hcode
  · obtain ⟨j, hevents, hresult⟩ := exists_cancelledJoin
    have hjoin : ((Prog.ask (Sum.inr (GoogleDrive.JoinFiles.mk oneFile {})) :
        GoogleDrive.DirAction driveUploader _) >>= fun j => pure j.result).Dialog
          [⟨.inr ⟨oneFile, {}⟩, j⟩] j.result := by
      refine Prog.Dialog.ask_bind ?_ ?_
      exact .pure _
    rw [hresult] at hjoin
    refine ⟨_, prepare_listing.embed.bind hjoin, ⟨.inr ⟨oneFile, {}⟩, j⟩, ?_, ?_⟩
    · exact List.mem_append_right _ List.mem_cons_self
    · refine .inl ⟨.env .interrupt, ?_, trivial⟩
      rw [hevents]
      exact List.getLast_mem (List.cons_ne_nil _ _)

end Cmlb.Upload
