import Cmlb.Core.Http
import Cmlb.Core.Json
import Cmlb.Application.Outcome

/-!
# qBittorrent status payloads (`qbittorrent_downloader.cpp`)

`to_status` turns an element of the `torrents/info` array into a `DownloadStatus`. It never sets
`files`, and the use cases upload what `files` lists: `never_completes` says that no run on a
qBittorrent download returns a task id or persists a completed task. The seed ratio is not part of
`DownloadStatus` here.
-/

namespace Cmlb

namespace Qbittorrent

def parseState (text : String) : DownloadState :=
  if text = "downloading" ∨ text = "metaDL" ∨ text = "stalledDL" ∨ text = "checkingDL" ∨
    text = "forcedDL" then .downloading
  else if text = "queuedDL" ∨ text = "queuedUP" ∨ text = "allocating" then .queued
  else if text = "pausedDL" ∨ text = "pausedUP" then .paused
  else if text = "uploading" ∨ text = "stalledUP" ∨ text = "forcedUP" ∨ text = "checkingUP" then .seeding
  else if text = "error" ∨ text = "missingFiles" ∨ text = "unknown" then .error
  else if text = "moving" then .downloading
  else .queued

variable (L : JsonLib)

def optionalInt (key : String) (j : Json) : Except String (Option Int) :=
  match j.member key with
  | none => .ok none
  | some v => (v.getInt L.trunc).map some

def toStatus (j : Json) : Except String DownloadStatus := do
  let state := match j.stringMember "state" with
    | some text => parseState text
    | none => .queued
  let totalBytes ← j.value (Json.getInt64 L.trunc) "size" 0
  let downloadedBytes ← j.value (Json.getInt64 L.trunc) "completed" 0
  let uploadedBytes ← j.value (Json.getInt64 L.trunc) "uploaded" 0
  let downloadSpeedBps ← j.value (Json.getInt64 L.trunc) "dlspeed" 0
  let uploadSpeedBps ← j.value (Json.getInt64 L.trunc) "upspeed" 0
  let eta ← j.value (Json.getInt64 L.trunc) "eta" 0
  let numSeeders ← optionalInt L "num_seeds" j
  let numLeechers ← optionalInt L "num_leechs" j
  return {
    id := ⟨(j.stringMember "hash").getD ""⟩
    name := (j.stringMember "name").getD ""
    state
    totalBytes
    downloadedBytes
    uploadedBytes
    downloadSpeedBps
    uploadSpeedBps
    eta
    savePath := j.stringMember "save_path"
    numSeeders
    numLeechers }

/-- The array of `torrents/info`: its first element, or "torrent not found". -/
def firstTorrent (id : Gid) (j : Json) : Result DownloadStatus :=
  match j.asArray with
  | none | some [] => .error ⟨.notFound, "qBittorrent torrent not found: " ++ id.value⟩
  | some (torrent :: _) =>
    match toStatus L torrent with
    | .error what => .error ⟨.jsonParse, what⟩
    | .ok st => .ok st

/-- `QbittorrentDownloader::status`, on the answer of `authed_request`. -/
def status (id : Gid) (resp : Result HttpResponse) : Result DownloadStatus :=
  match resp with
  | .error err => .error err
  | .ok resp =>
    if resp.statusCode ≠ 200 then
      .error ⟨.qbittorrentApi, "torrents/info HTTP " ++ toString resp.statusCode⟩
    else
      match L.parse resp.body with
      | .error what => .error ⟨.jsonParse, what⟩
      | .ok j => firstTorrent L id j

variable {L} {st : DownloadStatus}

theorem toStatus_files {j : Json} (h : toStatus L j = .ok st) : st.files = [] := by
  simp only [toStatus, bind, Except.bind, pure, Except.pure] at h
  repeat' split at h
  all_goals cases h
  all_goals rfl

theorem status_files {id : Gid} {resp : Result HttpResponse} (h : status L id resp = .ok st) :
    st.files = [] := by
  unfold status at h
  split at h
  · cases h
  split at h
  · cases h
  split at h
  · cases h
  unfold firstTorrent at h
  split at h
  · cases h
  · cases h
  split at h
  · cases h
  · cases h
    exact toStatus_files ‹_›

/-- A poll that succeeds is answered by `QbittorrentDownloader::status`. -/
def Answers (L : JsonLib) (r : Run) (e : Event) : Prop :=
  ∀ st, e = .status (.ok st) → ∃ resp, status L r.gid resp = .ok st

end Qbittorrent

/-! ### A run whose polls list no files -/

/-- A run to which no file is ever listed can be here. -/
def Pc.fileless : Pc → Bool
  | .spawnNext files => files.isEmpty
  | .checkQueued _ _ | .spawning _ _ | .uploadingDirectory _ | .uploadingFile _
  | .saving (.beginUpload _ _) | .saved (.beginUpload _ _)
  | .saving .markCompleted | .saved .markCompleted | .removing .completed | .editing .completed
  | .leaving .completed | .returned .completed => false
  | _ => true

namespace Run

variable {S : Setup} {r r' : Run} {e : Event}

/-- No file was listed to the run, so it has uploaded nothing and has not completed. -/
structure Fileless (r : Run) : Prop where
  pc : r.pc.fileless = true
  files : r.finalStatus.files = []
  pipe : r.pipe = {}
  persisted : ∀ task ∈ r.persisted, task.state ≠ .completed

theorem fileless_init (S : Setup) : S.init.Fileless where
  pc := rfl
  files := rfl
  pipe := rfl
  persisted task hmem := by cases hmem

theorem fileless_onStatus (x : Result DownloadStatus) (hx : ∀ st, x = .ok st → st.files = []) :
    (r.onStatus S x).pc.fileless = true := by
  rcases onStatus_cases S x r with ⟨st, err, h⟩ | ⟨st, hst, -, -, h⟩
  · rw [h]
    rfl
  · rw [h, hx st hst]
    dsimp only
    split <;> rfl

theorem fileless_fallback (hfiles : r.finalStatus.files = []) : r.fallback.pc.fileless = true := by
  unfold fallback
  rw [hfiles]
  rfl

theorem fileless_afterLoop (hpipe : r.pipe = {}) : r.afterLoop.pc.fileless = true := by
  unfold afterLoop
  rw [hpipe]
  dsimp only
  split
  · cases ‹_›
  · split <;> rfl

theorem Fileless.pc_step (h : r.Fileless) (hs : Step S r e r')
    (hx : ∀ st, e = .status (.ok st) → st.files = []) : r'.pc.fileless = true := by
  have hpc := h.pc
  cases hs with
  | clock now => exact hpc
  | uploadStarted hu hp => exact hpc
  | uploadOk hu hp => exact hpc
  | uploadError hp => exact hpc
  | uploadThrew hp => exact hpc
  | emptyUrl => rfl
  | start => rfl
  | settings _ x => cases x <;> rfl
  | sent _ x => cases x <;> rfl
  | created _ x => cases x <;> rfl
  | startDownload => unfold startDownload; split <;> rfl
  | @commit k hk x => rw [hk] at hpc; cases k <;> exact hpc
  | @afterSave k hk => rw [hk] at hpc; cases k <;> first | rfl | cases hpc
  | gid _ x => cases x <;> rfl
  | head => unfold onHead; split; rfl; split <;> rfl
  | status _ x => exact fileless_onStatus x fun st hst => hx st (by rw [hst])
  | @spawnNext files hk =>
    rw [hk] at hpc
    cases files with
    | nil => rfl
    | cons file rest => cases hpc
  | checkQueued hk => rw [hk] at hpc; cases hpc
  | spawnUpload hk => rw [hk] at hpc; cases hpc
  | rendered => rfl
  | check => unfold check; split; rfl; split <;> rfl
  | waited => rfl
  | @drain k hk =>
    unfold drain
    split
    · cases k <;> rfl
    · exact hpc
  | @removed k hk x => rw [hk] at hpc; cases k <;> first | rfl | cases hpc
  | afterLoop => exact fileless_afterLoop h.pipe
  | @edited k hk x =>
    rw [hk] at hpc
    cases k with
    | uploading => exact fileless_fallback h.files
    | completed => cases hpc
    | _ => rfl
  | directory hk => rw [hk] at hpc; cases hpc
  | file hk => rw [hk] at hpc; cases hpc
  | @left exit hk => rw [hk] at hpc; cases exit <;> first | rfl | cases hpc
  | unwound => rfl
  | threw => unfold unwind; dsimp only; split <;> rfl

theorem Fileless.pipe_step (h : r.Fileless) (hs : Step S r e r') : r'.pipe = {} := by
  have hpipe := hs.pipe
  rw [h.pipe] at hpipe
  generalize r'.pipe = p at hpipe
  cases hpipe with
  | same => rfl
  | @spawn file rest hpc =>
    have hpc' := h.pc
    rw [hpc] at hpc'
    cases hpc'
  | started hp => cases hp
  | returned hp => cases hp
  | threw hp => cases hp

theorem saved_not_completed {x : Result Unit} (hf : r.pc.fileless = true) (hi : r.Inv S)
    (hs : Step S r (.commit x) r') : r.task.state ≠ .completed := by
  cases hs with
  | created hpc =>
    obtain ⟨-, hstate⟩ : r.Idle ∧ r.task.state = .queued := hi.pc hpc
    rw [hstate]
    decide
  | @commit k hpc =>
    have ha := hi.pc hpc
    rw [hpc] at hf
    cases k with
    | startDownload | attachDownloader | beginUploadFallback =>
      obtain ⟨-, hstate⟩ := ha
      rw [hstate]
      decide
    | beginUpload file rest => cases hf
    | markFailed stage err =>
      rw [Failed.state ha]
      decide
    | markCancelled =>
      obtain ⟨-, hstate⟩ := ha
      rw [hstate]
      decide
    | markCompleted => cases hf

/-- Off the completed branch no task in state `Completed` is saved. -/
theorem Fileless.save_step (h : r.Fileless) (hi : r.Inv S) (hs : Step S r e r') :
    ∀ task ∈ r'.persisted, task.state ≠ .completed := by
  intro task hmem
  unfold Run.persisted at hmem
  rcases hs.calls with hc | ⟨c, hc, hl⟩
  · rw [hc] at hmem
    exact h.persisted task hmem
  rw [hc, List.filterMap_cons] at hmem
  cases hl with
  | save x =>
    cases x with
    | error err => exact h.persisted task hmem
    | ok u =>
      rcases List.mem_cons.1 hmem with rfl | hmem
      · exact saved_not_completed h.pc hi hs
      · exact h.persisted task hmem
  | _ => exact h.persisted task hmem

theorem Fileless.step (h : r.Fileless) (hi : r.Inv S) (hs : Step S r e r')
    (hx : ∀ st, e = .status (.ok st) → st.files = []) : r'.Fileless where
  pc := h.pc_step hs hx
  files := by
    cases hpoll : e.isPoll with
    | true =>
      cases hs with
      | status hpc x =>
        cases x with
        | error err => exact h.files
        | ok st =>
          have hst := hx st rfl
          unfold onStatus
          dsimp only
          split_ifs <;> exact hst
      | _ => cases hpoll
    | false => rw [hs.finalStatus_eq hpoll]; exact h.files
  pipe := h.pipe_step hs
  persisted := h.save_step hi hs

end Run

namespace Qbittorrent

/-- No run on a qBittorrent download returns a task id or persists a completed task, whatever
`torrents/info` answers. -/
theorem never_completes (L : JsonLib) (S : Setup) {t : List Event} {r : Run}
    (h : S.machine.Steps (Answers L) S.init t r) :
    (∀ exit, r.pc = .returned exit → ∀ id, exit.result S ≠ .ok id) ∧
      ∀ task ∈ r.persisted, task.state ≠ .completed := by
  have hok : r.Inv S ∧ r.Fileless := by
    refine h.invariant (I := fun r => r.Inv S ∧ r.Fileless) ⟨Run.inv_init S, Run.fileless_init S⟩ ?_
    rintro r e r' hans ⟨hi, hf⟩ hs
    have hst := Run.step_inv hs
    refine ⟨hi.step hst, hf.step hi hst ?_⟩
    intro st he
    obtain ⟨resp, hresp⟩ := hans st he
    exact status_files hresp
  refine ⟨fun exit hpc id => ?_, hok.2.persisted⟩
  have hpc' := hok.2.pc
  rw [hpc] at hpc'
  cases exit with
  | completed => cases hpc'
  | _ => exact fun hid => by cases hid

/-- Nothing goes wrong at this step: no cancellation, every port call succeeds, uploads return
something, and a poll gets a torrent with a `save_path`. -/
def Undisturbed (L : JsonLib) : Event → Prop
  | .settings x => ∃ v, x = .ok v
  | .sent x => ∃ v, x = .ok v
  | .commit x => ∃ v, x = .ok v
  | .gid x => ∃ v, x = .ok v
  | .head coroutineCancelled registryCancelled => coroutineCancelled = false ∧ registryCancelled = false
  | .status x => ∃ body torrent dir st, L.parse body = .ok (.array [torrent]) ∧
      torrent.stringMember "save_path" = some dir ∧ toStatus L torrent = .ok st ∧ x = .ok st
  | .directory x => ∃ y ys, x = .ok (y :: ys)
  | .file x => ∃ y, x = .ok y
  | .uploadReturned _ x => ∃ y, x = .ok y
  | .uploadThrew _ | .threw => False
  | _ => True

theorem answers_of_undisturbed {L : JsonLib} {e : Event} (h : Undisturbed L e) (r : Run) :
    Answers L r e := by
  rintro st rfl
  obtain ⟨body, torrent, dir, st', hparse, -, hst, heq⟩ := h
  cases heq
  refine ⟨.ok ⟨200, body, []⟩, ?_⟩
  simp [status, hparse, firstTorrent, Json.asArray, hst]

/-! A torrent that seeds at the first poll -/

def seedingBody : String := "[\x7b\"save_path\":\"/d\",\"state\":\"uploading\"\x7d]"

def seedingTorrent : Json := .object [("save_path", .string "/d"), ("state", .string "uploading")]

/-- A parser that knows one text. -/
def seedingLib : JsonLib where
  parse body := if body = seedingBody then .ok (.array [seedingTorrent]) else .error "parse error"
  trunc _ := 0

def seedingStatus : DownloadStatus := { state := .seeding, savePath := some "/d" }

def seedingSetup (useCase : UseCase) : Setup :=
  { Setup.sample useCase 2 false with
    request := { url := "magnet:?xt=1", user := ⟨1⟩, chat := ⟨2⟩, useQbittorrent := true } }

def seedingTrace : List Event :=
  Event.toLoop ++ [.head false false, .status (.ok seedingStatus), .rendered, .run, .run,
    .commit (.ok ()), .run, .edited (.ok ()), .commit (.ok ()), .run, .edited (.ok ()), .run]

theorem undisturbed_seeding : ∀ e ∈ seedingTrace, Undisturbed seedingLib e := by
  have hpoll : Undisturbed seedingLib (.status (.ok seedingStatus)) :=
    ⟨seedingBody, seedingTorrent, "/d", seedingStatus, rfl, rfl, rfl, rfl⟩
  intro e he
  simp only [seedingTrace, Event.toLoop, List.cons_append, List.nil_append, List.mem_cons,
    List.not_mem_nil, or_false] at he
  rcases he with rfl | rfl | rfl | rfl | rfl | rfl | rfl | rfl | rfl | rfl | rfl | rfl | rfl | rfl |
    rfl | rfl | rfl | rfl | rfl | rfl | rfl | rfl
  all_goals first
    | exact hpoll
    | exact ⟨_, rfl⟩
    | exact ⟨rfl, rfl⟩
    | trivial

set_option maxRecDepth 4000 in
/-- The torrent seeds, and both use cases report that it produced no files. -/
theorem seeding_run (useCase : UseCase) (huc : useCase = MirrorUrl.useCase ∨ useCase = LeechUrl.useCase) :
    ∃ r, (seedingSetup useCase).machine.Runs (seedingSetup useCase).init seedingTrace r ∧
      r.finalStatus.state = .seeding ∧
      r.pc = .returned (.failed .download ⟨.internal, "downloader reported no produced files"⟩) := by
  have hobs : ((seedingSetup useCase).machine.run (seedingSetup useCase).init seedingTrace).map
      (fun r => (r.finalStatus.state, r.pc)) = some (.seeding,
        .returned (.failed .download ⟨.internal, "downloader reported no produced files"⟩)) := by
    rcases huc with rfl | rfl
    · decide
    · decide
  obtain ⟨r, hr, ho⟩ := Machine.exists_runs hobs
  exact ⟨r, hr, (Prod.mk.inj ho).1, (Prod.mk.inj ho).2⟩

theorem never_completes_seeding : ∃ r,
    (seedingSetup MirrorUrl.useCase).machine.Steps (Answers seedingLib)
      (seedingSetup MirrorUrl.useCase).init seedingTrace r ∧ r.finalStatus.state = .seeding ∧
      ∀ task ∈ r.persisted, task.state ≠ .completed := by
  obtain ⟨r, hr, hseeding, -⟩ := seeding_run _ (.inl rfl)
  have hs := hr.of_forall_mem fun r e he => answers_of_undisturbed (undisturbed_seeding e he) r
  exact ⟨r, hs, hseeding, (never_completes _ _ hs).2⟩

/-- An undisturbed run of a torrent that ends up seeding does not return its task id. -/
theorem seeding_download_fails : ¬ ∀ (L : JsonLib) (S : Setup) (t : List Event) (r : Run) (exit : Exit),
    S.useCase = MirrorUrl.useCase ∨ S.useCase = LeechUrl.useCase → S.request.useQbittorrent = true →
    S.machine.Steps (fun _ e => Undisturbed L e) S.init t r → r.finalStatus.state = .seeding →
    r.pc = .returned exit →
      exit.result S = .ok S.taskId ∧ ∃ task ∈ r.persisted, task.state = .completed := by
  intro hall
  obtain ⟨r, hr, hseeding, hpc⟩ := seeding_run MirrorUrl.useCase (.inl rfl)
  obtain ⟨hid, -⟩ := hall seedingLib _ _ r _ (.inl rfl) rfl
    (hr.of_forall_mem fun _ e he => undisturbed_seeding e he) hseeding hpc
  cases hid

end Qbittorrent

end Cmlb
