import Cmlb.Application.Steps

/-!
# The invariant of a run

`Run.Ann` annotates every program point with what is known there: the state of the task, whether
`begin_upload` has been called, and the pool. The two facts that carry the rest are at the ends of
the poll loop. A run is `transitionedToUploading` exactly when it has spawned an upload, so past the
`break`, where nothing is in flight and nothing has failed, `completed = 0` means that nothing was
ever spawned; the fallback then finds the task in `Downloading` and the pipeline untouched.

The upload coroutines move the pipeline under the run's feet: `Ann.move` says that no annotation
minds.
-/

namespace Cmlb

namespace Run

variable {S : Setup} {r r' : Run} {e : Event} {p : PipelineState}

/-- No upload has been spawned. -/
structure Idle (r : Run) : Prop where
  transitioned : r.transitionedToUploading = false
  pipe : r.pipe = {}

/-- Between two rounds of the spawn loop. -/
def InLoop (r : Run) : Prop :=
  (r.Idle ∧ r.task.state = .downloading) ∨
    (r.transitionedToUploading = true ∧ r.pipe.uploads ≠ [] ∧ r.task.state = .uploading)

/-- About to spawn `file`. -/
structure Spawning (S : Setup) (file : Path) (r : Run) : Prop where
  transitioned : r.transitionedToUploading = true
  state : r.task.state = .uploading
  room : r.pipe.inFlight < S.uploadPoolSize
  new : file ∉ r.pipe.queued

/-- `fail_task` has run. -/
structure Failed (stage : Stage) (err : AppError) (r : Run) : Prop where
  drained : r.pipe.inFlight = 0
  state : r.task.state = .failed
  message : r.task.errorMessage = some err.message
  stage : stage ≠ .state

/-- What is known of `r` at the program point `pc`. -/
def Ann (S : Setup) (pc : Pc) (r : Run) : Prop :=
  match pc with
  | .start | .gettingSettings | .sendingStatus => r.Idle
  | .creating | .created => r.Idle ∧ r.task.state = .queued
  | .saving .startDownload | .saved .startDownload | .addingUri
  | .saving .attachDownloader | .saved .attachDownloader => r.Idle ∧ r.task.state = .downloading
  | .loopHead | .polling | .spawnNext _ | .rendering | .checking | .waiting
  | .draining .cancel | .draining .uploadFailed => r.InLoop
  | .draining (.failTask stage _) => r.InLoop ∧ stage ≠ .state
  | .checkQueued _ _ => r.InLoop ∧ r.pipe.inFlight < S.uploadPoolSize
  | .saving (.beginUpload file _) | .saved (.beginUpload file _) | .spawning file _ =>
    r.Spawning S file
  | .removing .cancel | .removing (.failUpload _) => r.InLoop ∧ r.pipe.inFlight = 0
  | .afterLoop => r.InLoop ∧ r.pipe.inFlight = 0 ∧ r.pipe.failed = 0
  | .saving .beginUploadFallback | .saved .beginUploadFallback | .editing .uploading
  | .uploadingDirectory _ | .uploadingFile _ => r.Idle ∧ r.task.state = .uploading
  | .saving (.markFailed stage err) | .saved (.markFailed stage err) | .editing (.failed stage err)
  | .leaving (.failed stage err) | .returned (.failed stage err) => r.Failed stage err
  | .saving .markCancelled | .saved .markCancelled | .editing .cancelled
  | .leaving .cancelled | .returned .cancelled => r.pipe.inFlight = 0 ∧ r.task.state = .cancelled
  | .saving .markCompleted | .saved .markCompleted | .removing .completed | .editing .completed
  | .leaving .completed | .returned .completed => r.pipe.inFlight = 0 ∧ r.task.state = .completed
  | .returned .emptyUrl | .returned (.rejected _) => r.Idle
  | .leaving .emptyUrl | .leaving (.rejected _) => False
  | .unwinding | .threw => True

/-- What holds between any two steps of a run. -/
structure Inv (S : Setup) (r : Run) : Prop where
  pipe : r.pipe.Ok S.uploadPoolSize
  ann : r.Ann S r.pc

theorem uploadPoolSize_pos (S : Setup) : 0 < S.uploadPoolSize := by
  unfold Setup.uploadPoolSize; split <;> omega

theorem inv_init (S : Setup) : S.init.Inv S where
  pipe := .init (uploadPoolSize_pos S)
  ann := ⟨rfl, rfl⟩

/-- An annotation reads the task, the pipeline and `transitioned_to_uploading` only. -/
theorem Ann.congr {pc : Pc} (h : r.Ann S pc) (ht : r'.task = r.task) (hp : r'.pipe = r.pipe)
    (hu : r'.transitionedToUploading = r.transitionedToUploading) : r'.Ann S pc := by
  have hidle : r.Idle → r'.Idle := fun h => ⟨hu.trans h.transitioned, hp.trans h.pipe⟩
  have hloop : r.InLoop → r'.InLoop := by
    rintro (⟨hi, hs⟩ | h)
    · exact .inl ⟨hidle hi, by rw [ht]; exact hs⟩
    · exact .inr (by rw [ht, hp, hu]; exact h)
  have hspawn : ∀ file, r.Spawning S file → r'.Spawning S file := fun file h =>
    ⟨hu.trans h.transitioned, by rw [ht]; exact h.state, by rw [hp]; exact h.room,
      by rw [hp]; exact h.new⟩
  have hfail : ∀ stage err, r.Failed stage err → r'.Failed stage err := fun stage err h =>
    ⟨by rw [hp]; exact h.drained, by rw [ht]; exact h.state, by rw [ht]; exact h.message, h.stage⟩
  unfold Ann at h ⊢
  split at h
  all_goals first
    | exact hidle h
    | exact hloop h
    | exact hspawn _ h
    | exact hfail _ _ h
    | exact ⟨hidle h.1, by rw [ht]; exact h.2⟩
    | exact ⟨hloop h.1, h.2⟩
    | exact ⟨hloop h.1, by rw [hp]; exact h.2⟩
    | exact ⟨by rw [hp]; exact h.1, by rw [ht]; exact h.2⟩
    | trivial

/-! ### The pieces of a step -/

theorem InLoop.not_terminal (h : r.InLoop) : r.task.isTerminal = false := by
  rcases h with ⟨_, h⟩ | ⟨_, _, h⟩ <;> simp [Task.isTerminal, h, TaskState.isTerminal]

theorem failed_failTask {stage : Stage} {err : AppError} (hd : r.pipe.inFlight = 0)
    (ht : r.task.isTerminal = false) (hs : stage ≠ .state) : (r.failTask stage err).Ann S (.saving (.markFailed stage err)) := by
  show Failed stage err _
  rw [failTask, Task.markFailed_of_not_terminal ht]
  exact ⟨hd, rfl, rfl, hs⟩

theorem Idle.inFlight (h : r.Idle) : r.pipe.inFlight = 0 := by rw [h.pipe]

/-- From `Uploading` the tail marks the task completed; its own `begin_upload` is then rejected and
ignored. -/
theorem ann_complete (hd : r.pipe.inFlight = 0) (hs : r.task.state = .uploading) :
    r.complete.Ann S r.complete.pc := by
  have hc : r.task.markCompleted r.now = .ok (({ r.task with state := .completed }).touch r.now) :=
    Task.transition_of_legal (by simp [hs])
  have hb : r.task.orSelf (r.task.beginUpload r.now) = r.task := by
    simp [Task.beginUpload, Task.transition, hs, Task.orSelf]
  unfold complete finish
  split
  · simp only [hc]; exact ⟨hd, rfl⟩
  · simp only [hb, hc]; exact ⟨hd, rfl⟩

/-- No annotation minds what the upload coroutines do. -/
theorem Ann.move {pc : Pc} {calls : List Call} (h : r.Ann S pc) (hok : r.pipe.Ok S.uploadPoolSize)
    (hm : PipelineState.Move r.pipe p) : Ann S pc { r with pipe := p, calls := calls } := by
  have h0 := hm.inFlight_ne_zero hok
  have hidle : ¬ r.Idle := fun hi => h0 hi.inFlight
  have hloop : r.InLoop → InLoop { r with pipe := p, calls := calls } := by
    rintro (⟨hi, _⟩ | ⟨h1, h2, h3⟩)
    · exact absurd hi hidle
    · exact .inr ⟨h1, fun hn => h2 (hm.uploads_eq_nil_iff.1 hn), h3⟩
  have hroom : r.pipe.inFlight < S.uploadPoolSize → p.inFlight < S.uploadPoolSize := fun h =>
    Int.lt_of_le_of_lt hm.inFlight_le h
  have hspawn : ∀ file, r.Spawning S file → Spawning S file { r with pipe := p, calls := calls } :=
    fun file h => ⟨h.transitioned, h.state, hroom h.room, by
      show file ∉ p.queued
      rw [hm.queued_eq]; exact h.new⟩
  unfold Ann at h ⊢
  split at h
  all_goals first
    | exact absurd h hidle
    | exact absurd h.1 hidle
    | exact absurd h.1 h0
    | exact absurd h.2 h0
    | exact absurd h.2.1 h0
    | exact absurd h.drained h0
    | exact hspawn _ h
    | exact hloop h
    | exact ⟨hloop h.1, hroom h.2⟩
    | exact ⟨hloop h.1, h.2⟩
    | trivial

theorem Inv.pc {pc : Pc} (h : r.Inv S) (hpc : r.pc = pc) : r.Ann S pc := hpc ▸ h.ann

/-- Moving to `pc` with the annotated fields unchanged. -/
theorem Inv.jump (h : r.Inv S) (pc : Pc) (ha : r.Ann S pc) (hpc : r'.pc = pc)
    (ht : r'.task = r.task) (hp : r'.pipe = r.pipe)
    (hu : r'.transitionedToUploading = r.transitionedToUploading) : r'.Inv S :=
  ⟨hp ▸ h.pipe, hpc ▸ ha.congr ht hp hu⟩

theorem Inv.ofAnn (h : r.Inv S) (hp : r'.pipe = r.pipe) (ha : r'.Ann S r'.pc) : r'.Inv S :=
  ⟨hp ▸ h.pipe, ha⟩

theorem inv_startDownload (h : r.Inv S) (hpc : r.pc = .created) : r.startDownload.Inv S := by
  obtain ⟨hi, hs⟩ : r.Idle ∧ r.task.state = .queued := h.pc hpc
  have ht : r.task.startDownload r.now = .ok (({ r.task with state := .downloading }).touch r.now) :=
    Task.transition_of_legal (by simp [hs])
  unfold startDownload
  rw [ht]
  exact ⟨h.pipe, ⟨hi.transitioned, hi.pipe⟩, rfl⟩

theorem inv_afterSave {k : AfterSave} (h : r.Inv S) (hpc : r.pc = .saved k) : (r.afterSave k).Inv S := by
  have ha := h.pc hpc
  cases k with
  | attachDownloader => exact ⟨h.pipe, Ann.congr (r := r) (.inl ha) rfl rfl rfl⟩
  | _ => exact ⟨h.pipe, Ann.congr (r := r) ha rfl rfl rfl⟩

theorem inv_onGid (h : r.Inv S) (hpc : r.pc = .addingUri) (x : Result Gid) : (r.onGid S x).Inv S := by
  obtain ⟨hi, hs⟩ : r.Idle ∧ r.task.state = .downloading := h.pc hpc
  cases x with
  | error e =>
    refine ⟨h.pipe, failed_failTask hi.inFlight ?_ (by decide)⟩
    simp [Task.isTerminal, hs, TaskState.isTerminal]
  | ok g => exact ⟨h.pipe, ⟨hi.transitioned, hi.pipe⟩, hs⟩

theorem inv_onHead (h : r.Inv S) (hpc : r.pc = .loopHead) (c reg : Bool) : (r.onHead c reg).Inv S := by
  have ha : r.InLoop := h.pc hpc
  unfold onHead
  split
  · exact ⟨h.pipe, Ann.congr (r := r) ha rfl rfl rfl⟩
  · split <;> exact ⟨h.pipe, Ann.congr (r := r) ha rfl rfl rfl⟩

theorem inv_onStatus (h : r.Inv S) (hpc : r.pc = .polling) (x : Result DownloadStatus) :
    (r.onStatus S x).Inv S := by
  have ha : r.InLoop := h.pc hpc
  have hf : r.InLoop ∧ Stage.download ≠ .state := ⟨ha, by decide⟩
  rcases onStatus_cases S x r with ⟨st, err, heq⟩ | ⟨st, -, -, -, heq⟩
  · rw [heq]
    exact ⟨h.pipe, Ann.congr (r := r) hf rfl rfl rfl⟩
  · rw [heq]
    refine ⟨h.pipe, ?_⟩
    dsimp only
    split <;> exact Ann.congr (r := r) ha rfl rfl rfl

theorem inv_spawnNext (h : r.Inv S) {files : List Path} (hpc : r.pc = .spawnNext files) :
    (r.spawnNext S files).Inv S := by
  have ha : r.InLoop := h.pc hpc
  unfold spawnNext
  split
  · exact ⟨h.pipe, Ann.congr (r := r) ha rfl rfl rfl⟩
  split
  · rename_i hroom
    exact ⟨h.pipe, Ann.congr (r := r) ⟨ha, of_decide_eq_true hroom⟩ rfl rfl rfl⟩
  · exact ⟨h.pipe, Ann.congr (r := r) ha rfl rfl rfl⟩

theorem inv_checkQueued (h : r.Inv S) {file : Path} {rest : List Path}
    (hpc : r.pc = .checkQueued file rest) : (r.checkQueued file rest).Inv S := by
  obtain ⟨ha, hroom⟩ : r.InLoop ∧ r.pipe.inFlight < S.uploadPoolSize := h.pc hpc
  unfold checkQueued
  split
  · exact ⟨h.pipe, Ann.congr (r := r) ha rfl rfl rfl⟩
  rename_i hnew
  rcases ha with ⟨hi, hs⟩ | ⟨htr, _, hs⟩
  · -- before the first upload `begin_upload` is legal
    have ht : r.task.beginUpload r.now = .ok (({ r.task with state := .uploading }).touch r.now) :=
      Task.transition_of_legal (by simp [hs])
    rw [hi.transitioned, ht]
    exact ⟨h.pipe, rfl, rfl, hroom, hnew⟩
  · rw [if_pos htr]
    exact ⟨h.pipe, htr, hs, hroom, hnew⟩

theorem inv_spawnUpload (h : r.Inv S) {file : Path} {rest : List Path}
    (hpc : r.pc = .spawning file rest) : (r.spawnUpload file rest).Inv S := by
  have ha : r.Spawning S file := h.pc hpc
  refine ⟨h.pipe.spawn ha.room ha.new, .inr ⟨ha.transitioned, ?_, ha.state⟩⟩
  show (r.pipe.spawnUpload file).uploads ≠ []
  simp [PipelineState.spawnUpload_of_notMem ha.new]

theorem inv_check (h : r.Inv S) (hpc : r.pc = .checking) : r.check.Inv S := by
  have ha : r.InLoop := h.pc hpc
  unfold check
  split
  · exact ⟨h.pipe, Ann.congr (r := r) ha rfl rfl rfl⟩
  rename_i hf
  split
  · rename_i hd
    simp only [Bool.and_eq_true, beq_iff_eq] at hd
    have hnn : 0 ≤ r.pipe.failed := by rw [h.pipe.failed]; exact Int.natCast_nonneg _
    exact ⟨h.pipe, Ann.congr (r := r) ⟨ha, hd.2, by omega⟩ rfl rfl rfl⟩
  · exact ⟨h.pipe, Ann.congr (r := r) ha rfl rfl rfl⟩

theorem inv_drain (h : r.Inv S) {k : AfterDrain} (hpc : r.pc = .draining k) : (r.drain k).Inv S := by
  have ha := h.pc hpc
  unfold drain
  split
  · rename_i hd
    rw [beq_iff_eq] at hd
    cases k with
    | cancel => exact ⟨h.pipe, Ann.congr (r := r) ⟨ha, hd⟩ rfl rfl rfl⟩
    | uploadFailed => exact ⟨h.pipe, Ann.congr (r := r) ⟨ha, hd⟩ rfl rfl rfl⟩
    | failTask stage err => exact ⟨h.pipe, failed_failTask hd ha.1.not_terminal ha.2⟩
  · exact h

theorem inv_afterRemove (h : r.Inv S) {k : AfterRemove} (hpc : r.pc = .removing k) :
    (r.afterRemove k).Inv S := by
  have ha := h.pc hpc
  cases k with
  | cancel =>
    have ht : r.task.markCancelled r.now = .ok (({ r.task with state := .cancelled }).touch r.now) :=
      Task.transition_of_legal (by simpa [Task.isTerminal] using ha.1.not_terminal)
    unfold afterRemove
    rw [ht]
    exact ⟨h.pipe, ha.2, rfl⟩
  | failUpload err => exact ⟨h.pipe, failed_failTask ha.2 ha.1.not_terminal (by decide)⟩
  | completed => exact ⟨h.pipe, Ann.congr (r := r) ha rfl rfl rfl⟩

theorem inv_afterLoop (h : r.Inv S) (hpc : r.pc = .afterLoop) : r.afterLoop.Inv S := by
  obtain ⟨ha, hd, hf⟩ : r.InLoop ∧ r.pipe.inFlight = 0 ∧ r.pipe.failed = 0 := h.pc hpc
  unfold afterLoop
  rcases ha with ⟨hi, hs⟩ | ⟨_, hup, hs⟩
  · have hc : ¬ r.pipe.completed > 0 := by rw [hi.pipe]; decide
    have ht : r.task.beginUpload r.now = .ok (({ r.task with state := .uploading }).touch r.now) :=
      Task.transition_of_legal (by simp [hs])
    rw [if_neg hc, ht]
    exact ⟨h.pipe, ⟨hi.transitioned, hi.pipe⟩, rfl⟩
  · -- something was spawned, and all of it has completed
    have hc : r.pipe.completed > 0 := h.pipe.completed_pos hd hf hup
    rw [if_pos hc]
    exact h.ofAnn (complete_pipe r) (ann_complete hd hs)

theorem inv_afterEdit (h : r.Inv S) {k : AfterEdit} (hpc : r.pc = .editing k) :
    (r.afterEdit k).Inv S := by
  have ha := h.pc hpc
  cases k with
  | uploading =>
    obtain ⟨hi, hs⟩ : r.Idle ∧ r.task.state = .uploading := ha
    unfold afterEdit fallback
    dsimp only
    split
    · refine ⟨h.pipe, failed_failTask hi.inFlight ?_ (by decide)⟩
      simp [Task.isTerminal, hs, TaskState.isTerminal]
    · exact ⟨h.pipe, ⟨hi.transitioned, hi.pipe⟩, hs⟩
    · exact ⟨h.pipe, ⟨hi.transitioned, hi.pipe⟩, hs⟩
  | _ => exact ⟨h.pipe, Ann.congr (r := r) ha rfl rfl rfl⟩

theorem inv_onDirectory (h : r.Inv S) {path : Path} (hpc : r.pc = .uploadingDirectory path)
    (x : Result (List UploadResult)) : (r.onDirectory S path x).Inv S := by
  obtain ⟨hi, hs⟩ : r.Idle ∧ r.task.state = .uploading := h.pc hpc
  have hnt : r.task.isTerminal = false := by simp [Task.isTerminal, hs, TaskState.isTerminal]
  unfold onDirectory
  split
  · exact ⟨h.pipe, failed_failTask hi.inFlight hnt (by decide)⟩
  dsimp only
  split
  · exact ⟨h.pipe, failed_failTask hi.inFlight hnt (by decide)⟩
  · exact h.ofAnn (complete_pipe _) (ann_complete hi.inFlight hs)

theorem inv_onFile (h : r.Inv S) {file : Path} (hpc : r.pc = .uploadingFile file)
    (x : Result UploadResult) : (r.onFile file x).Inv S := by
  obtain ⟨hi, hs⟩ : r.Idle ∧ r.task.state = .uploading := h.pc hpc
  unfold onFile
  split
  · refine ⟨h.pipe, failed_failTask hi.inFlight ?_ (by decide)⟩
    simp [Task.isTerminal, hs, TaskState.isTerminal]
  · exact h.ofAnn (complete_pipe _) (ann_complete hi.inFlight hs)

/-- Every step keeps the invariant. -/
theorem Inv.step (h : r.Inv S) (hs : Step S r e r') : r'.Inv S := by
  cases hs with
  | clock now => exact ⟨h.pipe, h.ann.congr rfl rfl rfl⟩
  | uploadStarted hu hp => exact ⟨h.pipe.started hp, h.ann.move h.pipe (.started _ hp)⟩
  | uploadOk hu hp => exact ⟨h.pipe.returned hp, h.ann.move h.pipe (.returned _ _ hp)⟩
  | uploadError hp => exact ⟨h.pipe.returned hp, h.ann.move h.pipe (.returned _ _ hp)⟩
  | uploadThrew hp => exact ⟨h.pipe.threw hp, h.ann.move h.pipe (.threw _ hp)⟩
  | emptyUrl hpc => exact h.jump (.returned .emptyUrl) (h.pc hpc : r.Idle) rfl rfl rfl rfl
  | start hpc => exact h.jump .gettingSettings (h.pc hpc : r.Idle) rfl rfl rfl rfl
  | settings hpc x =>
    have hi : r.Idle := h.pc hpc
    cases x with
    | error err => exact h.jump (.returned (.rejected err)) hi rfl rfl rfl rfl
    | ok s => exact h.jump .sendingStatus hi rfl rfl rfl rfl
  | sent hpc x =>
    have hi : r.Idle := h.pc hpc
    cases x with
    | error e => exact ⟨h.pipe, hi.transitioned, hi.pipe⟩
    | ok m => exact ⟨h.pipe, ⟨hi.transitioned, hi.pipe⟩, rfl⟩
  | created hpc x =>
    obtain ⟨hi, hq⟩ : r.Idle ∧ r.task.state = .queued := h.pc hpc
    cases x with
    | error e => exact ⟨h.pipe, hi.transitioned, hi.pipe⟩
    | ok m => exact ⟨h.pipe, ⟨hi.transitioned, hi.pipe⟩, hq⟩
  | startDownload hpc => exact inv_startDownload h hpc
  | @commit k hpc x =>
    refine ⟨h.pipe, ?_⟩
    have ha := h.pc hpc
    cases k <;> exact Ann.congr (r := r) ha rfl rfl rfl
  | afterSave hpc => exact inv_afterSave h hpc
  | gid hpc x => exact inv_onGid h hpc x
  | head hpc c reg => exact inv_onHead h hpc c reg
  | status hpc x => exact inv_onStatus h hpc x
  | spawnNext hpc => exact inv_spawnNext h hpc
  | checkQueued hpc => exact inv_checkQueued h hpc
  | spawnUpload hpc => exact inv_spawnUpload h hpc
  | rendered hpc => exact h.jump .checking (h.pc hpc : r.InLoop) rfl rfl rfl rfl
  | check hpc => exact inv_check h hpc
  | waited hpc => exact h.jump .loopHead (h.pc hpc : r.InLoop) rfl rfl rfl rfl
  | drain hpc => exact inv_drain h hpc
  | removed hpc x => exact inv_afterRemove h hpc
  | afterLoop hpc => exact inv_afterLoop h hpc
  | edited hpc x => exact inv_afterEdit h hpc
  | directory hpc x => exact inv_onDirectory h hpc x
  | file hpc x => exact inv_onFile h hpc x
  | left hpc =>
    refine ⟨h.pipe, ?_⟩
    have ha := h.pc hpc
    rename_i exit
    cases exit with
    | emptyUrl => exact ha.elim
    | rejected err => exact ha.elim
    | _ => exact Ann.congr (r := r) ha rfl rfl rfl
  | unwound hpc => exact ⟨h.pipe, trivial⟩
  | threw hpc =>
    refine ⟨h.pipe, ?_⟩
    unfold unwind
    dsimp only
    split <;> trivial

/-- The invariant holds along every run. -/
theorem inv_of_steps {P : Run → Event → Prop} {t : List Event} (h : S.machine.Steps P S.init t r) :
    r.Inv S :=
  h.invariant (inv_init S) fun _ _ _ _ h hs => h.step (step_inv hs)

end Run

end Cmlb
