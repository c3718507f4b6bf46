import Cmlb.Domain.Task

/-!
# What crosses the ports

The values the use cases exchange with the downloader, uploader and settings ports. A
`std::filesystem::path` is its native string. The torrent seed ratio (a `float` nothing reads) is
left out of `DownloadStatus`.
-/

namespace Cmlb

abbrev Path := String

inductive DownloadState
  | queued | downloading | paused | complete | error | seeding | removed
deriving DecidableEq, Repr

def DownloadState.toString : DownloadState → String
  | queued => "queued"
  | downloading => "downloading"
  | paused => "paused"
  | complete => "complete"
  | error => "error"
  | seeding => "seeding"
  | removed => "removed"

/-- `download::DownloadStatus`, with the defaults of its member initialisers. -/
structure DownloadStatus where
  id : Gid := ⟨""⟩
  name : String := ""
  state : DownloadState := .queued
  totalBytes : Int := 0
  downloadedBytes : Int := 0
  uploadedBytes : Int := 0
  downloadSpeedBps : Int := 0
  uploadSpeedBps : Int := 0
  eta : Int := 0
  errorMessage : Option String := none
  savePath : Option Path := none
  files : List Path := []
  numSeeders : Option Int := none
  numLeechers : Option Int := none
deriving DecidableEq, Repr

inductive UploadDestination
  | telegram | googleDrive | rclone
deriving DecidableEq, Repr

def UploadDestination.toString : UploadDestination → String
  | telegram => "telegram"
  | googleDrive => "gdrive"
  | rclone => "rclone"

structure UploadConfig where
  chatId : Option ChatId := none
  folderId : Option String := none
  rclonePath : Option String := none
  asDocument : Bool := false
  thumbnailPath : Option Path := none
  caption : Option String := none
  splitSize : Int := 2000000000
deriving DecidableEq, Repr

structure UploadResult where
  fileId : String
  link : String
  size : Int := 0
  duration : Int := 0
deriving DecidableEq, Repr

structure UserSettingsRecord where
  userId : UserId
  leechDestination : UploadDestination := .telegram
  mirrorDestination : UploadDestination := .googleDrive
  defaultThumbPath : Option String := none
  rcloneRemote : Option String := none
  gdriveFolderId : Option String := none
  uploadAsDocument : Bool := false
  createdAt : Time := 0
  updatedAt : Time := 0
deriving DecidableEq, Repr

/-- `system::SystemSnapshot`, without its own `bot_uptime`, which nothing reads. -/
structure SystemSnapshot where
  cpuUsagePercent : Float := 0.0
  ramUsedBytes : Int := 0
  ramTotalBytes : Int := 0
  diskUsedBytes : Int := 0
  diskTotalBytes : Int := 0
  systemUptime : Int := 0
  loadAverage1m : Float := 0.0
  loadAverage5m : Float := 0.0
  loadAverage15m : Float := 0.0

end Cmlb
