import Cmlb.Application.Execute

/-!
# What one step of a run can do

`Run.Step` is the inversion of `Run.step`: one constructor for each program point and event. Two
coarser views come from it. `Flow` is the control-flow graph, for what depends on the program point
only; `Effect` groups the steps by the fields they change, for what depends on the calls, the pipeline
or the last status. An invariant is proved by cases on the coarsest of the three that decides it.
-/

namespace Cmlb

/-- The upload of the fallback. -/
def Pc.isUpload : Pc → Bool
  | .uploadingDirectory _ | .uploadingFile _ => true
  | _ => false

/-- A poll of the downloader is answered. -/
def Event.isPoll : Event → Bool
  | .status _ => true
  | _ => false

def Event.isEdit : Event → Bool
  | .edited _ => true
  | _ => false

namespace Run

variable {S : Setup} {r r' : Run} {e : Event}

inductive Step (S : Setup) (r : Run) : Event → Run → Prop
  | clock (now : Time) : Step S r (.clock now) { r with now := now }
  | uploadStarted {i : Nat} {u : Upload} {p : PipelineState} (hu : r.pipe.uploads[i]? = some u)
      (hp : r.pipe.uploadStarted i = some p) :
      Step S r (.uploadStarted i) { r with pipe := p, calls := .uploadFile u.file :: r.calls }
  | uploadOk {i : Nat} {u : Upload} {p : PipelineState} {x : UploadResult}
      (hu : r.pipe.uploads[i]? = some u) (hp : r.pipe.uploadReturned i (.ok x) = some p) :
      Step S r (.uploadReturned i (.ok x))
        { r with pipe := p, calls := .uploadedFile u.file x :: r.calls }
  | uploadError {i : Nat} {p : PipelineState} {err : AppError}
      (hp : r.pipe.uploadReturned i (.error err) = some p) :
      Step S r (.uploadReturned i (.error err)) { r with pipe := p }
  | uploadThrew {i : Nat} {p : PipelineState} (hp : r.pipe.uploadThrew i = some p) :
      Step S r (.uploadThrew i) { r with pipe := p }
  | emptyUrl (hpc : r.pc = .start) : Step S r .run { r with pc := .returned .emptyUrl }
  | start (hpc : r.pc = .start) : Step S r .run { r with pc := .gettingSettings }
  | settings (hpc : r.pc = .gettingSettings) (x) : Step S r (.settings x) (r.onSettings x)
  | sent (hpc : r.pc = .sendingStatus) (x) : Step S r (.sent x) (r.onSent S x)
  | created (hpc : r.pc = .creating) (x) : Step S r (.commit x) (r.onCreated x)
  | startDownload (hpc : r.pc = .created) : Step S r .run r.startDownload
  | commit {k : AfterSave} (hpc : r.pc = .saving k) (x) : Step S r (.commit x) (r.onCommit k x)
  | afterSave {k : AfterSave} (hpc : r.pc = .saved k) : Step S r .run (r.afterSave k)
  | gid (hpc : r.pc = .addingUri) (x) : Step S r (.gid x) (r.onGid S x)
  | head (hpc : r.pc = .loopHead) (c reg) : Step S r (.head c reg) (r.onHead c reg)
  | status (hpc : r.pc = .polling) (x) : Step S r (.status x) (r.onStatus S x)
  | spawnNext {files : List Path} (hpc : r.pc = .spawnNext files) :
      Step S r .run (r.spawnNext S files)
  | checkQueued {file : Path} {rest : List Path} (hpc : r.pc = .checkQueued file rest) :
      Step S r .run (r.checkQueued file rest)
  | spawnUpload {file : Path} {rest : List Path} (hpc : r.pc = .spawning file rest) :
      Step S r .run (r.spawnUpload file rest)
  | rendered (hpc : r.pc = .rendering) : Step S r .rendered { r with pc := .checking }
  | check (hpc : r.pc = .checking) : Step S r .run r.check
  | waited (hpc : r.pc = .waiting) : Step S r .tick { r with pc := .loopHead }
  | drain {k : AfterDrain} (hpc : r.pc = .draining k) : Step S r .tick (r.drain k)
  | removed {k : AfterRemove} (hpc : r.pc = .removing k) (x) :
      Step S r (.removed x) (r.afterRemove k)
  | afterLoop (hpc : r.pc = .afterLoop) : Step S r .run r.afterLoop
  | edited {k : AfterEdit} (hpc : r.pc = .editing k) (x) : Step S r (.edited x) (r.afterEdit k)
  | directory {path : Path} (hpc : r.pc = .uploadingDirectory path) (x) :
      Step S r (.directory x) (r.onDirectory S path x)
  | file {file : Path} (hpc : r.pc = .uploadingFile file) (x) : Step S r (.file x) (r.onFile file x)
  | left {exit : Exit} (hpc : r.pc = .leaving exit) : Step S r .run { r with pc := .returned exit }
  | unwound (hpc : r.pc = .unwinding) : Step S r .run { r with pc := .threw }
  | threw (hpc : r.pc.over = false) : Step S r .threw r.unwind

theorem uploadStarted_inv {i : Nat} (h : r.uploadStarted i = some r') :
    Step S r (.uploadStarted i) r' := by
  unfold Run.uploadStarted at h
  split at h
  · cases h; exact .uploadStarted ‹_› ‹_›
  · cases h

theorem uploadReturned_inv {i : Nat} {x : Result UploadResult} (h : r.uploadReturned i x = some r') :
    Step S r (.uploadReturned i x) r' := by
  unfold Run.uploadReturned at h
  split at h
  · cases x with
    | error err => cases h; exact .uploadError ‹_›
    | ok y => cases h; exact .uploadOk ‹_› ‹_›
  · cases h

theorem uploadThrew_inv {i : Nat} (h : r.uploadThrew i = some r') :
    Step S r (.uploadThrew i) r' := by
  obtain ⟨p, hp, rfl⟩ := Option.map_eq_some_iff.1 h
  exact .uploadThrew hp

theorem step_inv (h : Run.step S r e = some r') : Step S r e r' := by
  unfold Run.step at h
  split at h
  all_goals try split at h
  all_goals first
    | exact uploadStarted_inv h
    | exact uploadReturned_inv h
    | exact uploadThrew_inv h
    | cases h
  all_goals first
    | exact .clock _
    | exact .emptyUrl ‹_› | exact .start ‹_› | exact .settings ‹_› _ | exact .sent ‹_› _
    | exact .created ‹_› _ | exact .startDownload ‹_› | exact .commit ‹_› _ | exact .afterSave ‹_›
    | exact .gid ‹_› _ | exact .head ‹_› _ _ | exact .status ‹_› _
    | exact .spawnNext ‹_› | exact .checkQueued ‹_› | exact .spawnUpload ‹_›
    | exact .rendered ‹_› | exact .check ‹_› | exact .waited ‹_› | exact .drain ‹_›
    | exact .removed ‹_› _ | exact .afterLoop ‹_› | exact .edited ‹_› _
    | exact .directory ‹_› _ | exact .file ‹_› _ | exact .left ‹_› | exact .unwound ‹_›
    | exact .threw (by cases hpc : r.pc <;> simp_all [Pc.over])

/-- A poll fails the run, or it is one of a download that goes on. -/
theorem onStatus_cases (S : Setup) (x : Result DownloadStatus) (r : Run) :
    (∃ st err, r.onStatus S x = { r with finalStatus := st, pc := .draining (.failTask .download err) }) ∨
    ∃ st, x = .ok st ∧ st.state ≠ .error ∧ st.state ≠ .removed ∧ r.onStatus S x =
      { r with
        finalStatus := st
        downloadComplete := r.downloadComplete || st.state == .complete || st.state == .seeding
        pc := if S.supportsPipelining then .spawnNext st.files else .rendering } := by
  unfold onStatus
  split
  · exact .inl ⟨r.finalStatus, _, rfl⟩
  rename_i st
  dsimp only
  split
  · exact .inl ⟨st, _, rfl⟩
  rename_i herr
  split
  · exact .inl ⟨st, _, rfl⟩
  · rename_i hrem
    exact .inr ⟨st, rfl, herr, hrem, rfl⟩

/-- The tail changes the task and saves it, as `Completed` or as `Failed`. -/
theorem complete_eq (r : Run) : ∃ task pc, r.complete = { r with task := task, pc := pc } ∧
    (pc = .saving .markCompleted ∨ ∃ err, pc = .saving (.markFailed .state err)) := by
  have hfinish : ∀ r : Run, ∃ task pc, r.finish = { r with task := task, pc := pc } ∧
      (pc = .saving .markCompleted ∨ ∃ err, pc = .saving (.markFailed .state err)) := by
    intro r
    unfold finish
    split
    · exact ⟨_, _, rfl, .inr ⟨_, rfl⟩⟩
    · exact ⟨_, _, rfl, .inl rfl⟩
  unfold complete
  split
  · exact hfinish r
  · exact hfinish { r with task := r.task.orSelf (r.task.beginUpload r.now) }

theorem complete_pipe (r : Run) : r.complete.pipe = r.pipe := by
  obtain ⟨task, pc, h, _⟩ := complete_eq r
  rw [h]

theorem complete_calls (r : Run) : r.complete.calls = r.calls := by
  obtain ⟨task, pc, h, _⟩ := complete_eq r
  rw [h]

theorem complete_finalStatus (r : Run) : r.complete.finalStatus = r.finalStatus := by
  obtain ⟨task, pc, h, _⟩ := complete_eq r
  rw [h]

theorem complete_downloadComplete (r : Run) : r.complete.downloadComplete = r.downloadComplete := by
  obtain ⟨task, pc, h, _⟩ := complete_eq r
  rw [h]

theorem complete_pc (r : Run) : r.complete.pc = .saving .markCompleted ∨
    ∃ err, r.complete.pc = .saving (.markFailed .state err) := by
  obtain ⟨task, pc, h, hpc⟩ := complete_eq r
  rw [h]
  exact hpc

/-! ### Control flow and effects -/

/-- The control flow of `execute`: from where to where an event takes the coroutine. The events of the
upload coroutines and of the clock do not move it. -/
inductive Flow : Pc → Event → Pc → Prop
  | emptyUrl : Flow .start .run (.returned .emptyUrl)
  | start : Flow .start .run .gettingSettings
  | noSettings (err) : Flow .gettingSettings (.settings (.error err)) (.returned (.rejected err))
  | settings (s) : Flow .gettingSettings (.settings (.ok s)) .sendingStatus
  | notSent (err) : Flow .sendingStatus (.sent (.error err)) (.returned (.rejected err))
  | sent (m) : Flow .sendingStatus (.sent (.ok m)) .creating
  | notCreated (err) : Flow .creating (.commit (.error err)) (.returned (.rejected err))
  | created (u) : Flow .creating (.commit (.ok u)) .created
  | startDownload : Flow .created .run (.saving .startDownload)
  | startRejected (err) : Flow .created .run (.saving (.markFailed .state err))
  | commit (k x) : Flow (.saving k) (.commit x) (.saved k)
  | addUri : Flow (.saved .startDownload) .run .addingUri
  | loop : Flow (.saved .attachDownloader) .run .loopHead
  | uploadBegun (file rest) : Flow (.saved (.beginUpload file rest)) .run (.spawning file rest)
  | fallbackBegun : Flow (.saved .beginUploadFallback) .run (.editing .uploading)
  | failed (stage err) : Flow (.saved (.markFailed stage err)) .run (.editing (.failed stage err))
  | cancelled : Flow (.saved .markCancelled) .run (.editing .cancelled)
  | completed : Flow (.saved .markCompleted) .run (.removing .completed)
  | notAdded (err) : Flow .addingUri (.gid (.error err)) (.saving (.markFailed .download err))
  | added (g) : Flow .addingUri (.gid (.ok g)) (.saving .attachDownloader)
  | headCancel (c reg) : Flow .loopHead (.head c reg) (.draining .cancel)
  | headCheck (c reg) : Flow .loopHead (.head c reg) .checking
  | headPoll (c reg) : Flow .loopHead (.head c reg) .polling
  | pollFailed (x err) : Flow .polling (.status x) (.draining (.failTask .download err))
  | pollSpawn (st) : Flow .polling (.status (.ok st)) (.spawnNext st.files)
  | pollRender (st) : Flow .polling (.status (.ok st)) .rendering
  | spawnDone (files) : Flow (.spawnNext files) .run .rendering
  | spawnFile (file rest) : Flow (.spawnNext (file :: rest)) .run (.checkQueued file rest)
  | known (file rest) : Flow (.checkQueued file rest) .run (.spawnNext rest)
  | queue (file rest) : Flow (.checkQueued file rest) .run (.spawning file rest)
  | beginUpload (file rest) : Flow (.checkQueued file rest) .run (.saving (.beginUpload file rest))
  | spawned (file rest) : Flow (.spawning file rest) .run (.spawnNext rest)
  | rendered : Flow .rendering .rendered .checking
  | checkFailed : Flow .checking .run (.draining .uploadFailed)
  | checkDone : Flow .checking .run .afterLoop
  | checkWait : Flow .checking .run .waiting
  | waited : Flow .waiting .tick .loopHead
  | drainWait (k) : Flow (.draining k) .tick (.draining k)
  | drainCancel : Flow (.draining .cancel) .tick (.removing .cancel)
  | drainFail (stage err) :
      Flow (.draining (.failTask stage err)) .tick (.saving (.markFailed stage err))
  | drainUpload (err) : Flow (.draining .uploadFailed) .tick (.removing (.failUpload err))
  | removeCancel (x) : Flow (.removing .cancel) (.removed x) (.saving .markCancelled)
  | removeFail (err x) :
      Flow (.removing (.failUpload err)) (.removed x) (.saving (.markFailed .upload err))
  | removeCompleted (x) : Flow (.removing .completed) (.removed x) (.editing .completed)
  | complete : Flow .afterLoop .run (.saving .markCompleted)
  | completeRejected (err) : Flow .afterLoop .run (.saving (.markFailed .state err))
  | fallback : Flow .afterLoop .run (.saving .beginUploadFallback)
  | editFailed (stage err x) :
      Flow (.editing (.failed stage err)) (.edited x) (.leaving (.failed stage err))
  | editCancelled (x) : Flow (.editing .cancelled) (.edited x) (.leaving .cancelled)
  | editCompleted (x) : Flow (.editing .completed) (.edited x) (.leaving .completed)
  | noFiles (err x) : Flow (.editing .uploading) (.edited x) (.saving (.markFailed .download err))
  | uploadDirectory (dir x) : Flow (.editing .uploading) (.edited x) (.uploadingDirectory dir)
  | uploadFile (file x) : Flow (.editing .uploading) (.edited x) (.uploadingFile file)
  | directoryFailed (path x err) :
      Flow (.uploadingDirectory path) (.directory x) (.saving (.markFailed .upload err))
  | directoryDone (path x) : Flow (.uploadingDirectory path) (.directory x) (.saving .markCompleted)
  | directoryRejected (path x err) :
      Flow (.uploadingDirectory path) (.directory x) (.saving (.markFailed .state err))
  | fileFailed (file x err) : Flow (.uploadingFile file) (.file x) (.saving (.markFailed .upload err))
  | fileDone (file x) : Flow (.uploadingFile file) (.file x) (.saving .markCompleted)
  | fileRejected (file x err) : Flow (.uploadingFile file) (.file x) (.saving (.markFailed .state err))
  | left (exit) : Flow (.leaving exit) .run (.returned exit)
  | unwound : Flow .unwinding .run .threw
  | unwind {pc : Pc} (hover : pc.over = false) (hg : pc.guarded = true) : Flow pc .threw .unwinding
  | threw {pc : Pc} (hover : pc.over = false) (hg : pc.guarded = false) : Flow pc .threw .threw

/-- What a step changes of the frame. `move` is a step that makes no call and leaves the pipeline, the
gid and the last status alone. -/
inductive Effect (r : Run) : Event → Run → Prop
  | clock (now : Time) : Effect r (.clock now) { r with now := now }
  | uploadStarted {i : Nat} {u : Upload} {p : PipelineState} (hu : r.pipe.uploads[i]? = some u)
      (hp : r.pipe.uploadStarted i = some p) :
      Effect r (.uploadStarted i) { r with pipe := p, calls := .uploadFile u.file :: r.calls }
  | uploadOk {i : Nat} {u : Upload} {p : PipelineState} {x : UploadResult}
      (hu : r.pipe.uploads[i]? = some u) (hp : r.pipe.uploadReturned i (.ok x) = some p) :
      Effect r (.uploadReturned i (.ok x))
        { r with pipe := p, calls := .uploadedFile u.file x :: r.calls }
  | uploadError {i : Nat} {p : PipelineState} {err : AppError}
      (hp : r.pipe.uploadReturned i (.error err) = some p) :
      Effect r (.uploadReturned i (.error err)) { r with pipe := p }
  | uploadThrew {i : Nat} {p : PipelineState} (hp : r.pipe.uploadThrew i = some p) :
      Effect r (.uploadThrew i) { r with pipe := p }
  | move {e : Event} {pc : Pc} {task : Task} {settings : Option UserSettingsRecord} {uploading : Bool}
      (h : Flow r.pc e pc) (hup : pc.isUpload = false) (hne : e.isPoll = false) :
      Effect r e { r with pc := pc, task := task, settings := settings
                          transitionedToUploading := uploading }
  | save {pc : Pc} {x : Result Unit} (h : Flow r.pc (.commit x) pc) :
      Effect r (.commit x) { r with pc := pc, calls := .save r.task x :: r.calls }
  | addUri {pc : Pc} {task : Task} {gid : Gid} {target : UploadTarget} {x : Result Gid}
      (h : Flow r.pc (.gid x) pc) :
      Effect r (.gid x) { r with pc := pc, task := task, gid := gid, target := target
                                 calls := .addUri x :: r.calls }
  | status {pc : Pc} {st : DownloadStatus} {complete : Bool} {x : Result DownloadStatus}
      (h : Flow r.pc (.status x) pc) :
      Effect r (.status x) { r with pc := pc, finalStatus := st, downloadComplete := complete }
  | spawn {file : Path} {rest : List Path} (hpc : r.pc = .spawning file rest) :
      Effect r .run { r with pipe := r.pipe.spawnUpload file, pc := .spawnNext rest }
  | remove {e : Event} {k : AfterRemove} (deleteFiles : Bool) (h : Flow r.pc e (.removing k))
      (hne : e.isPoll = false) :
      Effect r e { r with pc := .removing k, calls := .remove r.gid deleteFiles :: r.calls }
  | uploadDirectory {dir : Path} {x : Result Unit} (hpc : r.pc = .editing .uploading)
      (hdir : r.finalStatus.savePath = some dir) :
      Effect r (.edited x) { r with pc := .uploadingDirectory dir, calls := .uploadDirectory dir :: r.calls }
  | uploadFile {file : Path} {x : Result Unit} (hpc : r.pc = .editing .uploading)
      (hdir : r.finalStatus.savePath = none) (hf : r.finalStatus.files.head? = some file) :
      Effect r (.edited x) { r with pc := .uploadingFile file, calls := .uploadFile file :: r.calls }
  | uploadedDirectory {pc : Pc} {task : Task} {path : Path} {xs : List UploadResult}
      (hpc : r.pc = .uploadingDirectory path) (h : Flow r.pc (.directory (.ok xs)) pc) :
      Effect r (.directory (.ok xs))
        { r with pc := pc, task := task, calls := .uploadedDirectory path xs :: r.calls }
  | uploadedFile {pc : Pc} {task : Task} {file : Path} {x : UploadResult}
      (hpc : r.pc = .uploadingFile file) (h : Flow r.pc (.file (.ok x)) pc) :
      Effect r (.file (.ok x)) { r with pc := pc, task := task, calls := .uploadedFile file x :: r.calls }

theorem complete_effect {xs : List Call} (hcalls : ∀ task pc, Flow r.pc e pc → pc.isUpload = false →
      Effect r e { r with pc := pc, task := task, calls := xs })
    (hdone : Flow r.pc e (.saving .markCompleted))
    (hrej : ∀ err, Flow r.pc e (.saving (.markFailed .state err))) :
    Effect r e (complete { r with calls := xs }) := by
  obtain ⟨task, pc, h, hpc⟩ := complete_eq { r with calls := xs }
  rw [h]
  rcases hpc with rfl | ⟨err, rfl⟩
  · exact hcalls _ _ hdone rfl
  · exact hcalls _ _ (hrej err) rfl

theorem onStatus_effect (hpc : r.pc = .polling) (x : Result DownloadStatus) :
    Effect r (.status x) (r.onStatus S x) := by
  have hfail : ∀ err, Flow r.pc (.status x) (.draining (.failTask .download err)) := by
    intro err
    rw [hpc]
    exact .pollFailed x err
  rcases onStatus_cases S x r with ⟨st, err, h⟩ | ⟨st, rfl, -, -, h⟩
  · rw [h]
    exact .status (hfail err)
  · rw [h]
    refine .status ?_
    rw [hpc]
    split
    · exact .pollSpawn _
    · exact .pollRender _

/-- Every step is one of these. -/
theorem Step.effect (hs : Step S r e r') : Effect r e r' := by
  have flow : ∀ {pc pc' e}, r.pc = pc → Flow pc e pc' → Flow r.pc e pc' := fun h hf => h ▸ hf
  cases hs with
  | clock now => exact .clock now
  | uploadStarted hu hp => exact .uploadStarted hu hp
  | uploadOk hu hp => exact .uploadOk hu hp
  | uploadError hp => exact .uploadError hp
  | uploadThrew hp => exact .uploadThrew hp
  | emptyUrl hpc => exact .move (flow hpc .emptyUrl) rfl rfl
  | start hpc => exact .move (flow hpc .start) rfl rfl
  | settings hpc x =>
    cases x with
    | error err => exact .move (flow hpc (.noSettings err)) rfl rfl
    | ok s => exact .move (flow hpc (.settings s)) rfl rfl
  | sent hpc x =>
    cases x with
    | error err => exact .move (flow hpc (.notSent err)) rfl rfl
    | ok m => exact .move (flow hpc (.sent m)) rfl rfl
  | created hpc x =>
    cases x with
    | error err => exact .save (flow hpc (.notCreated err))
    | ok u => exact .save (flow hpc (.created u))
  | startDownload hpc =>
    unfold Run.startDownload
    split
    · exact .move (flow hpc (.startRejected _)) rfl rfl
    · exact .move (flow hpc .startDownload) rfl rfl
  | @commit k hpc x => exact .save (flow hpc (.commit k x))
  | @afterSave k hpc =>
    cases k with
    | startDownload => exact .move (flow hpc .addUri) rfl rfl
    | attachDownloader => exact .move (flow hpc .loop) rfl rfl
    | beginUpload file rest => exact .move (flow hpc (.uploadBegun file rest)) rfl rfl
    | beginUploadFallback => exact .move (flow hpc .fallbackBegun) rfl rfl
    | markFailed stage err => exact .move (flow hpc (.failed stage err)) rfl rfl
    | markCancelled => exact .move (flow hpc .cancelled) rfl rfl
    | markCompleted => exact .remove false (flow hpc .completed) rfl
  | gid hpc x =>
    cases x with
    | error err => exact .addUri (flow hpc (.notAdded err))
    | ok g => exact .addUri (flow hpc (.added g))
  | head hpc c reg =>
    unfold onHead
    split
    · exact .move (flow hpc (.headCancel c reg)) rfl rfl
    · split
      · exact .move (flow hpc (.headCheck c reg)) rfl rfl
      · exact .move (flow hpc (.headPoll c reg)) rfl rfl
  | status hpc x => exact onStatus_effect hpc x
  | @spawnNext files hpc =>
    cases files with
    | nil => exact .move (flow hpc (.spawnDone [])) rfl rfl
    | cons file rest =>
      unfold Run.spawnNext
      dsimp only
      split
      · exact .move (flow hpc (.spawnFile file rest)) rfl rfl
      · exact .move (flow hpc (.spawnDone _)) rfl rfl
  | @checkQueued file rest hpc =>
    unfold Run.checkQueued
    split
    · exact .move (flow hpc (.known file rest)) rfl rfl
    split
    · exact .move (flow hpc (.queue file rest)) rfl rfl
    · split
      · exact .move (flow hpc (.beginUpload file rest)) rfl rfl
      · exact .move (flow hpc (.queue file rest)) rfl rfl
  | spawnUpload hpc => exact .spawn hpc
  | rendered hpc => exact .move (flow hpc .rendered) rfl rfl
  | check hpc =>
    unfold Run.check
    split
    · exact .move (flow hpc .checkFailed) rfl rfl
    · split
      · exact .move (flow hpc .checkDone) rfl rfl
      · exact .move (flow hpc .checkWait) rfl rfl
  | waited hpc => exact .move (flow hpc .waited) rfl rfl
  | @drain k hpc =>
    unfold Run.drain
    split
    · cases k with
      | cancel => exact .remove true (flow hpc .drainCancel) rfl
      | failTask stage err => exact .move (flow hpc (.drainFail stage err)) rfl rfl
      | uploadFailed => exact .remove false (flow hpc (.drainUpload _)) rfl
    · have hstay : Flow r.pc .tick r.pc := by
        rw [hpc]
        exact .drainWait k
      exact .move hstay (by rw [hpc]; rfl) rfl
  | @removed k hpc x =>
    cases k with
    | cancel => exact .move (flow hpc (.removeCancel x)) rfl rfl
    | failUpload err => exact .move (flow hpc (.removeFail err x)) rfl rfl
    | completed => exact .move (flow hpc (.removeCompleted x)) rfl rfl
  | afterLoop hpc =>
    unfold Run.afterLoop
    split
    · exact complete_effect (fun task pc h hup => .move h hup rfl) (flow hpc .complete)
        fun err => flow hpc (.completeRejected err)
    · split
      · exact .move (flow hpc (.completeRejected _)) rfl rfl
      · exact .move (flow hpc .fallback) rfl rfl
  | @edited k hpc x =>
    cases k with
    | failed stage err => exact .move (flow hpc (.editFailed stage err x)) rfl rfl
    | cancelled => exact .move (flow hpc (.editCancelled x)) rfl rfl
    | uploading =>
      unfold afterEdit fallback
      dsimp only
      split
      · exact .move (flow hpc (.noFiles _ x)) rfl rfl
      · rename_i dir hfiles hdir
        exact .uploadDirectory hpc hdir
      · rename_i file rest hfiles hdir
        exact .uploadFile hpc hdir (by rw [hfiles]; rfl)
    | completed => exact .move (flow hpc (.editCompleted x)) rfl rfl
  | @directory path hpc x =>
    unfold onDirectory
    split
    · exact .move (flow hpc (.directoryFailed path _ _)) rfl rfl
    dsimp only
    split
    · exact .uploadedDirectory hpc (flow hpc (.directoryFailed path _ _))
    · exact complete_effect (fun task pc h _ => .uploadedDirectory hpc h) (flow hpc (.directoryDone path _))
        fun err => flow hpc (.directoryRejected path _ err)
  | @file file hpc x =>
    unfold onFile
    split
    · exact .move (flow hpc (.fileFailed file _ _)) rfl rfl
    · exact complete_effect (fun task pc h _ => .uploadedFile hpc h) (flow hpc (.fileDone file _))
        fun err => flow hpc (.fileRejected file _ err)
  | @left exit hpc => exact .move (flow hpc (.left exit)) rfl rfl
  | unwound hpc => exact .move (flow hpc .unwound) rfl rfl
  | threw hover =>
    unfold Run.unwind
    by_cases hg : r.pc.guarded = true
    · rw [if_pos hg]
      exact .move (.unwind hover hg) rfl rfl
    · rw [if_neg hg]
      exact .move (.threw hover (Bool.eq_false_iff.2 hg)) rfl rfl

/-- A step that moves the coroutine follows its control flow. -/
theorem Step.flow (hs : Step S r e r') : r'.pc = r.pc ∨ Flow r.pc e r'.pc := by
  cases hs.effect with
  | clock now => exact .inl rfl
  | uploadStarted hu hp => exact .inl rfl
  | uploadOk hu hp => exact .inl rfl
  | uploadError hp => exact .inl rfl
  | uploadThrew hp => exact .inl rfl
  | spawn hpc => exact .inr (hpc ▸ .spawned _ _)
  | uploadDirectory hpc hdir => exact .inr (hpc ▸ .uploadDirectory _ _)
  | uploadFile hpc hdir hf => exact .inr (hpc ▸ .uploadFile _ _)
  | move h | save h | addUri h | status h | remove _ h | uploadedDirectory _ h | uploadedFile _ h =>
    exact .inr h

theorem Flow.not_uploadThrew {pc pc' : Pc} (h : Flow pc e pc') (i : Nat) : e ≠ .uploadThrew i := by
  rintro rfl
  cases h

/-- Only a poll replaces the last status. -/
theorem Step.finalStatus_eq (hs : Step S r e r') (hne : e.isPoll = false) :
    r'.finalStatus = r.finalStatus := by
  cases hs.effect with
  | status h => cases hne
  | _ => rfl

theorem Flow.addingUri {pc pc' : Pc} {x : Result Gid} (h : Flow pc (.gid x) pc') : pc = .addingUri := by
  cases h <;> rfl

/-- Only `add_uri` sets the gid. -/
theorem Step.gid_eq (hs : Step S r e r') (hne : r.pc ≠ .addingUri) : r'.gid = r.gid := by
  cases hs.effect with
  | addUri h => exact absurd h.addingUri hne
  | _ => rfl

/-- What a step does to the pipeline. -/
inductive PipeStep (pc : Pc) (p : PipelineState) : Event → PipelineState → Prop
  | same {e : Event} (h : ∀ i, e ≠ .uploadThrew i) : PipeStep pc p e p
  | spawn {file : Path} {rest : List Path} (h : pc = .spawning file rest) :
      PipeStep pc p .run (p.spawnUpload file)
  | started {i : Nat} {p' : PipelineState} (h : p.uploadStarted i = some p') :
      PipeStep pc p (.uploadStarted i) p'
  | returned {i : Nat} {x : Result UploadResult} {p' : PipelineState}
      (h : p.uploadReturned i x = some p') : PipeStep pc p (.uploadReturned i x) p'
  | threw {i : Nat} {p' : PipelineState} (h : p.uploadThrew i = some p') :
      PipeStep pc p (.uploadThrew i) p'

theorem Step.pipe (hs : Step S r e r') : PipeStep r.pc r.pipe e r'.pipe := by
  cases hs.effect with
  | clock now => exact .same nofun
  | uploadStarted hu hp => exact .started hp
  | uploadOk hu hp => exact .returned hp
  | uploadError hp => exact .returned hp
  | uploadThrew hp => exact .threw hp
  | spawn hpc => exact .spawn hpc
  | uploadDirectory hpc hdir => exact .same nofun
  | uploadFile hpc hdir hf => exact .same nofun
  | move h | save h | addUri h | status h | remove _ h | uploadedDirectory _ h | uploadedFile _ h =>
    exact .same h.not_uploadThrew

/-- What a step can add to the calls. -/
inductive Logged (r : Run) : Event → Call → Prop
  | save (x : Result Unit) : Logged r (.commit x) (.save r.task x)
  | addUri (hpc : r.pc = .addingUri) (x : Result Gid) : Logged r (.gid x) (.addUri x)
  | remove {e : Event} (deleteFiles : Bool) : Logged r e (.remove r.gid deleteFiles)
  | uploadFile {i : Nat} {u : Upload} (hu : r.pipe.uploads[i]? = some u) :
      Logged r (.uploadStarted i) (.uploadFile u.file)
  | fallbackFile {x : Result Unit} {file : Path} (hpc : r.pc = .editing .uploading)
      (hf : r.finalStatus.files.head? = some file) : Logged r (.edited x) (.uploadFile file)
  | uploadedFile {e : Event} (file : Path) (x : UploadResult) : Logged r e (.uploadedFile file x)
  | uploadDirectory {e : Event} (path : Path) : Logged r e (.uploadDirectory path)
  | uploadedDirectory {e : Event} (path : Path) (xs : List UploadResult) :
      Logged r e (.uploadedDirectory path xs)

/-- A step makes at most one call. -/
theorem Step.calls (hs : Step S r e r') :
    r'.calls = r.calls ∨ ∃ c, r'.calls = c :: r.calls ∧ Logged r e c := by
  cases hs.effect with
  | uploadStarted hu hp => exact .inr ⟨_, rfl, .uploadFile hu⟩
  | uploadOk hu hp => exact .inr ⟨_, rfl, .uploadedFile _ _⟩
  | save h => exact .inr ⟨_, rfl, .save _⟩
  | addUri h => exact .inr ⟨_, rfl, .addUri h.addingUri _⟩
  | remove deleteFiles h => exact .inr ⟨_, rfl, .remove _⟩
  | uploadDirectory hpc hdir => exact .inr ⟨_, rfl, .uploadDirectory _⟩
  | uploadFile hpc hdir hf => exact .inr ⟨_, rfl, .fallbackFile hpc hf⟩
  | uploadedDirectory hpc h => exact .inr ⟨_, rfl, .uploadedDirectory _ _⟩
  | uploadedFile hpc h => exact .inr ⟨_, rfl, .uploadedFile _ _⟩
  | _ => exact .inl rfl

end Run

end Cmlb
