import Cmlb.Core.Json
import Cmlb.Core.Text
import Cmlb.Application.Ports

/-!
# aria2 status payloads (`aria2_downloader.cpp`)

`to_status` turns a `tellStatus` object into a `DownloadStatus`. Numbers come as JSON strings. The
seed ratio is not part of `DownloadStatus` here.
-/

namespace Cmlb

namespace Aria2

def parseState (text : String) : DownloadState :=
  if text = "active" then .downloading
  else if text = "waiting" then .queued
  else if text = "paused" then .paused
  else if text = "complete" then .complete
  else if text = "error" then .error
  else if text = "removed" then .removed
  else .queued

def toInt64 (n : Int) : Int := n.bmod 18446744073709551616

def toInt32 (n : Int) : Int := n.bmod 4294967296

/-- `json_str_int64` with its default fallback 0; an unsigned number wraps into `int64_t`. -/
def jsonStrInt64 : Json → Int
  | .string s => (stoll s).getD 0
  | .number n => toInt64 n
  | _ => 0

def int64Member (key : String) (j : Json) : Int := jsonStrInt64 ((j.member key).getD .null)

def filename (path : Path) : String :=
  String.ofList (path.toList.reverse.takeWhile (· != '/')).reverse

def paths (j : Json) : List Path := (j.arrayMember "files").filterMap (·.stringMember "path")

def state (j : Json) : DownloadState :=
  match j.stringMember "status" with
  | some text => parseState text
  | none => .queued

def eta (total downloaded speed : Int) : Int :=
  if speed > 0 ∧ total > 0 then
    let remaining := total - downloaded
    if remaining > 0 then remaining / speed else 0
  else 0

/-- The members that only torrents have: the name, seeders and leechers. -/
def withTorrent (j bt : Json) (s : DownloadStatus) : DownloadStatus :=
  { s with
    name := (((bt.member "info").filter Json.isObject).bind (Json.stringMember "name")).getD s.name
    numSeeders := (j.member "numSeeders").map fun v => toInt32 (jsonStrInt64 v)
    numLeechers := (j.member "connections").map fun v => toInt32 (jsonStrInt64 v) }

def toStatus (j : Json) : DownloadStatus :=
  let total := int64Member "totalLength" j
  let downloaded := int64Member "completedLength" j
  let speed := int64Member "downloadSpeed" j
  let files := paths j
  let s : DownloadStatus :=
    { id := ⟨(j.stringMember "gid").getD ""⟩
      name := (files.head?.map filename).getD ""
      state := state j
      totalBytes := total
      downloadedBytes := downloaded
      uploadedBytes := int64Member "uploadLength" j
      downloadSpeedBps := speed
      uploadSpeedBps := int64Member "uploadSpeed" j
      eta := eta total downloaded speed
      errorMessage := j.stringMember "errorMessage"
      savePath := j.stringMember "dir"
      files := files }
  match (j.member "bittorrent").filter Json.isObject with
  | some bt => withTorrent j bt s
  | none => s

/-- `Aria2Downloader::status`, on the answer of the `aria2.tellStatus` call. -/
def status (res : Result Json) : Result DownloadStatus :=
  match res with
  | .error err => .error err
  | .ok j =>
    if j.isObject then .ok (toStatus j)
    else .error ⟨.aria2Rpc, "aria2.tellStatus returned non-object"⟩

/-- The payload reports the entry of `file` as finished: as many bytes are there as it is long. -/
def reportsFinished (j : Json) (file : Path) : Bool :=
  (j.arrayMember "files").any fun entry =>
    entry.stringMember "path" == some file &&
      match entry.member "length", entry.member "completedLength" with
      | some length, some completed => jsonStrInt64 completed == jsonStrInt64 length
      | _, _ => false

/-- Every entry of `files` carries a path, a length and a completed length. -/
def describesFiles (j : Json) : Bool :=
  (j.arrayMember "files").all fun entry =>
    (entry.stringMember "path").isSome && (entry.member "length").isSome &&
      (entry.member "completedLength").isSome

variable {res : Result Json} {st : DownloadStatus}

/-- A torrent's members change neither the state nor the files. -/
theorem toStatus_files (j : Json) : (toStatus j).files = paths j ∧ (toStatus j).state = state j := by
  unfold toStatus
  dsimp only
  split
  · exact ⟨rfl, rfl⟩
  · exact ⟨rfl, rfl⟩

theorem status_eq_ok (h : status res = .ok st) : ∃ j, res = .ok j ∧ st = toStatus j := by
  cases res with
  | error err => cases h
  | ok j =>
    unfold status at h
    dsimp only at h
    split at h
    · cases h
      exact ⟨j, rfl, rfl⟩
    · cases h

end Aria2

end Cmlb
