import Cmlb.Application.History

/-!
# Which files a completed run has uploaded

Two branches of `execute` drop paths of the last status they read. The spawn loop of the last poll
`break`s when the pool is full, and nothing looks at the rest of that status again; and the fallback
without a `save_path` uploads `files.front()` only. `Run.lossy` is the guard of these branches. A
run that takes neither has uploaded everything when it returns a task id (`Cov`), and a run that
takes one of them has not (`Lost`).
-/

namespace Cmlb

namespace Run

variable {S : Setup} {r r' : Run} {e : Event} {t : List Event}

/-- Every path of the last status was uploaded, by its own `upload_file` or with `save_path`. -/
def AllUploaded (r : Run) : Prop :=
  ∀ f ∈ r.finalStatus.files, (∃ x, .uploadedFile f x ∈ r.calls) ∨
    ∃ dir xs, r.finalStatus.savePath = some dir ∧ .uploadedDirectory dir xs ∈ r.calls

/-- The step drops a path: the pool limit ends the spawn loop of the last poll with a path left that
no upload was spawned for, or the fallback uploads `files.front()` of several paths. -/
def lossy (S : Setup) (r : Run) (e : Event) : Bool :=
  match r.pc, e with
  | .spawnNext rest, .run =>
    !r.pipe.canSpawnMore S.uploadPoolSize && r.downloadComplete && rest.any (· ∉ r.pipe.queued)
  | .editing .uploading, .edited _ =>
    r.finalStatus.savePath.isNone && r.finalStatus.files.any (r.finalStatus.files.head? ≠ some ·)
  | _, _ => false

/-- Of `files`, all but `rest` are queued. -/
structure Rest (files : List Path) (queued : Finset Path) (rest : List Path) : Prop where
  listed : ∀ f ∈ rest, f ∈ files
  queued : ∀ f ∈ files, f ∈ queued ∨ f ∈ rest

/-- `rest` is what the spawn loop has left of the last status. -/
def Pending (rest : List Path) (r : Run) : Prop := Rest r.finalStatus.files r.pipe.queued rest

/-- What is known of the last status at the program point `pc`, as long as no step was lossy. -/
def Cov (S : Setup) (pc : Pc) (r : Run) : Prop :=
  match pc with
  | .start | .gettingSettings | .sendingStatus | .creating | .created
  | .saving .startDownload | .saved .startDownload | .addingUri
  | .saving .attachDownloader | .saved .attachDownloader => r.finalStatus.files = []
  | .spawnNext rest => S.supportsPipelining = true ∧ r.Pending rest
  | .checkQueued file rest | .saving (.beginUpload file rest) | .saved (.beginUpload file rest)
  | .spawning file rest => S.supportsPipelining = true ∧ r.Pending (file :: rest)
  | .rendering | .checking | .waiting | .loopHead | .polling =>
    S.supportsPipelining = true → r.downloadComplete = true → r.Pending []
  | .afterLoop => S.supportsPipelining = true → r.Pending []
  | .uploadingDirectory dir => r.finalStatus.savePath = some dir
  | .uploadingFile file => ∀ f ∈ r.finalStatus.files, f = file
  | .saving .markCompleted | .saved .markCompleted | .removing .completed | .editing .completed
  | .leaving .completed | .returned .completed => r.AllUploaded
  | _ => True

/-- What a run without lossy steps keeps. -/
structure Covered (S : Setup) (r : Run) : Prop where
  inv : r.Inv S
  history : r.History
  pipelining : r.pipe.uploads ≠ [] → S.supportsPipelining = true
  cov : r.Cov S r.pc

theorem AllUploaded.mono (h : r.AllUploaded) (hs : r'.finalStatus = r.finalStatus)
    (hc : ∀ c ∈ r.calls, c ∈ r'.calls) : r'.AllUploaded := by
  intro f hf
  rw [hs] at hf ⊢
  rcases h f hf with ⟨x, hx⟩ | ⟨dir, xs, hdir, hx⟩
  · exact .inl ⟨x, hc _ hx⟩
  · exact .inr ⟨dir, xs, hdir, hc _ hx⟩

/-- Coverage reads the last status, the queued set, `download_complete` and the calls. -/
theorem Cov.mono {pc : Pc} (h : r.Cov S pc) (hs : r'.finalStatus = r.finalStatus)
    (hq : r'.pipe.queued = r.pipe.queued) (hd : r'.downloadComplete = r.downloadComplete)
    (hc : ∀ c ∈ r.calls, c ∈ r'.calls) : r'.Cov S pc := by
  have hpend : ∀ rest, r.Pending rest → r'.Pending rest := by
    intro rest h
    unfold Pending
    rw [hs, hq]
    exact h
  unfold Cov at h ⊢
  split at h
  all_goals first
    | exact ⟨h.1, hpend _ h.2⟩
    | exact fun hp hc => hpend _ (h hp (hd ▸ hc))
    | exact fun hp => hpend _ (h hp)
    | exact AllUploaded.mono h hs hc
    | (rw [hs]; exact h)
    | trivial

/-- With everything spawned, nothing in flight and nothing failed, everything is uploaded. -/
theorem allUploaded_of_pending (hi : r.Inv S) (hh : r.History) (hd : r.pipe.inFlight = 0)
    (hf : r.pipe.failed = 0) (h : r.Pending []) : r.AllUploaded := by
  intro f hfile
  have hq : f ∈ r.pipe.queued := (h.queued f hfile).resolve_right (by simp)
  rw [hi.pipe.queued, List.mem_toFinset, List.mem_map] at hq
  obtain ⟨u, hu, rfl⟩ := hq
  obtain ⟨x, hx⟩ := hi.pipe.returned_of_inFlight_eq_zero hd hu
  cases x with
  | ok y => exact .inl ⟨y, List.mem_of_mem_filter (hh.value u hu y hx)⟩
  | error err =>
    have hpos : 0 < r.pipe.count UploadStage.failed :=
      List.countP_pos_iff.2 ⟨u, hu, by simp [hx, UploadStage.failed]⟩
    have := hi.pipe.failed
    omega

theorem cov_complete (h : r.AllUploaded) : r.complete.Cov S r.complete.pc := by
  rcases complete_pc r with hpc | ⟨err, hpc⟩
  · rw [hpc]
    exact h.mono (complete_finalStatus r) fun c hc => by rw [complete_calls]; exact hc
  · rw [hpc]
    trivial

/-! ### Runs without lossy steps -/

theorem cov_onStatus (r : Run) (x : Result DownloadStatus) :
    (r.onStatus S x).Cov S (r.onStatus S x).pc := by
  rcases onStatus_cases S x r with ⟨st, err, h⟩ | ⟨st, -, -, -, h⟩
  · rw [h]
    trivial
  rw [h]
  by_cases hp : S.supportsPipelining = true
  · simp only [hp, if_true]
    exact ⟨hp, fun _ hf => hf, fun f hf => .inr hf⟩
  · simp only [hp]
    exact fun h => absurd h hp

theorem cov_spawnNext {rest : List Path} (hpc : r.pc = .spawnNext rest) (h : r.Cov S (.spawnNext rest))
    (hl : lossy S r .run = false) : (r.spawnNext S rest).Cov S (r.spawnNext S rest).pc := by
  obtain ⟨hp, hpend⟩ := h
  unfold spawnNext
  split
  · exact fun _ _ => hpend
  rename_i file rest
  split
  · exact ⟨hp, hpend⟩
  rename_i hroom
  -- the pool is full: whatever is left of the last poll is queued already
  intro _ hd
  refine ⟨nofun, fun f hf => ?_⟩
  unfold lossy at hl
  rw [hpc] at hl
  have hd' : r.downloadComplete = true := hd
  simp only [hd', Bool.and_true, Bool.not_eq_true] at hl hroom
  simp only [hroom, Bool.not_false, Bool.true_and, List.any_eq_false, decide_eq_true_eq,
    Decidable.not_not] at hl
  rcases hpend.queued f hf with hq | hrest
  · exact .inl hq
  · exact .inl (hl f hrest)

theorem cov_checkQueued {file : Path} {rest : List Path} (h : r.Cov S (.checkQueued file rest)) :
    (r.checkQueued file rest).Cov S (r.checkQueued file rest).pc := by
  obtain ⟨hp, hpend⟩ := h
  unfold checkQueued
  split
  · rename_i hq
    refine ⟨hp, fun f hf => hpend.listed f (List.mem_cons_of_mem _ hf), fun f hf => ?_⟩
    rcases hpend.queued f hf with hf | hf
    · exact .inl hf
    · rcases List.mem_cons.1 hf with rfl | hf
      · exact .inl hq
      · exact .inr hf
  split
  · exact ⟨hp, hpend⟩
  · split <;> exact ⟨hp, hpend⟩

theorem cov_spawnUpload {file : Path} {rest : List Path} (hnew : file ∉ r.pipe.queued)
    (h : r.Cov S (.spawning file rest)) : (r.spawnUpload file rest).Cov S (.spawnNext rest) := by
  obtain ⟨hp, hpend⟩ := h
  refine ⟨hp, fun f hf => hpend.listed f (List.mem_cons_of_mem _ hf), fun f hf => ?_⟩
  show f ∈ (r.pipe.spawnUpload file).queued ∨ f ∈ rest
  rw [PipelineState.spawnUpload_of_notMem hnew]
  rcases hpend.queued f hf with hf | hf
  · exact .inl (Finset.mem_insert_of_mem hf)
  · rcases List.mem_cons.1 hf with rfl | hf
    · exact .inl (Finset.mem_insert_self _ _)
    · exact .inr hf

theorem cov_afterLoop (h : r.Covered S) (hpc : r.pc = .afterLoop) :
    r.afterLoop.Cov S r.afterLoop.pc := by
  have hcov : S.supportsPipelining = true → r.Pending [] := by
    have hk := h.cov
    rw [hpc] at hk
    exact hk
  obtain ⟨_, hd, hf⟩ : r.InLoop ∧ r.pipe.inFlight = 0 ∧ r.pipe.failed = 0 := h.inv.pc hpc
  unfold afterLoop
  split
  · rename_i hc
    have hne : r.pipe.uploads ≠ [] := by
      intro h0
      have hc0 := h.inv.pipe.completed
      unfold PipelineState.count at hc0
      rw [h0] at hc0
      rw [hc0] at hc
      cases hc
    exact cov_complete (allUploaded_of_pending h.inv h.history hd hf (hcov (h.pipelining hne)))
  · unfold failTask
    split <;> trivial

theorem cov_fallback (hpc : r.pc = .editing .uploading) {x : Result Unit}
    (hl : lossy S r (.edited x) = false) : r.fallback.Cov S r.fallback.pc := by
  unfold fallback failTask
  split
  · trivial
  · assumption
  · rename_i file rest hfiles hdir
    intro f hf
    unfold lossy at hl
    rw [hpc] at hl
    simp only [hdir, Option.isNone_none, Bool.true_and, List.any_eq_false, decide_eq_true_eq,
      not_not] at hl
    have := hl f hf
    rw [hfiles] at this
    exact (Option.some.inj this).symm

theorem cov_onDirectory {path : Path} (h : r.Cov S (.uploadingDirectory path))
    (x : Result (List UploadResult)) : (r.onDirectory S path x).Cov S (r.onDirectory S path x).pc := by
  unfold onDirectory
  split
  · trivial
  dsimp only
  split
  · trivial
  · exact cov_complete fun f _ => .inr ⟨path, _, h, List.mem_cons_self⟩

theorem cov_onFile {file : Path} (h : r.Cov S (.uploadingFile file)) (x : Result UploadResult) :
    (r.onFile file x).Cov S (r.onFile file x).pc := by
  unfold onFile
  split
  · trivial
  · rename_i y
    refine cov_complete fun f hf => .inl ⟨y, ?_⟩
    rw [h f hf]
    exact List.mem_cons_self

/-- A step that is not lossy keeps the coverage. -/
theorem cov_step (h : r.Covered S) (hs : Step S r e r') (hl : lossy S r e = false) :
    r'.Cov S r'.pc := by
  have at_pc : ∀ {pc}, r.pc = pc → r.Cov S pc := fun hpc => hpc ▸ h.cov
  have moved : ∀ {p : PipelineState} {calls : List Call}, PipelineState.Move r.pipe p →
      (∀ c ∈ r.calls, c ∈ calls) → Cov S r.pc { r with pipe := p, calls := calls } :=
    fun hm hc => h.cov.mono rfl hm.queued_eq rfl hc
  cases hs with
  | clock now => exact h.cov.mono rfl rfl rfl fun _ hc => hc
  | uploadStarted hu hp => exact moved (.started _ hp) fun _ => List.mem_cons_of_mem _
  | uploadOk hu hp => exact moved (.returned _ _ hp) fun _ => List.mem_cons_of_mem _
  | uploadError hp => exact moved (.returned _ _ hp) fun _ hc => hc
  | uploadThrew hp => exact moved (.threw _ hp) fun _ hc => hc
  | emptyUrl hpc => trivial
  | start hpc => exact (at_pc hpc : r.finalStatus.files = [])
  | settings hpc x =>
    have hk : r.finalStatus.files = [] := at_pc hpc
    cases x with
    | error err => trivial
    | ok s => exact hk
  | sent hpc x =>
    have hk : r.finalStatus.files = [] := at_pc hpc
    cases x with
    | error err => trivial
    | ok m => exact hk
  | created hpc x =>
    have hk : r.finalStatus.files = [] := at_pc hpc
    cases x with
    | error err => trivial
    | ok u => exact hk
  | startDownload hpc =>
    have hk : r.finalStatus.files = [] := at_pc hpc
    unfold Run.startDownload
    split
    · trivial
    · exact hk
  | @commit k hpc x =>
    have hk := at_pc hpc
    cases k with
    | startDownload => exact hk
    | attachDownloader => exact hk
    | beginUpload file rest => exact ⟨hk.1, hk.2⟩
    | markCompleted => exact AllUploaded.mono hk rfl fun _ => List.mem_cons_of_mem _
    | _ => trivial
  | @afterSave k hpc =>
    have hk := at_pc hpc
    cases k with
    | startDownload => exact hk
    | attachDownloader =>
      have hk : r.finalStatus.files = [] := hk
      intro _ _
      refine ⟨nofun, fun f hf => ?_⟩
      change f ∈ r.finalStatus.files at hf
      rw [hk] at hf
      cases hf
    | beginUpload file rest => exact ⟨hk.1, hk.2⟩
    | markCompleted => exact AllUploaded.mono hk rfl fun _ => List.mem_cons_of_mem _
    | _ => trivial
  | gid hpc x =>
    have hk : r.finalStatus.files = [] := at_pc hpc
    cases x with
    | error err => trivial
    | ok g => exact hk
  | head hpc c reg =>
    have hk := at_pc hpc
    unfold Run.onHead
    split
    · trivial
    · split <;> exact hk
  | status hpc x => exact cov_onStatus r x
  | spawnNext hpc => exact cov_spawnNext hpc (at_pc hpc) hl
  | checkQueued hpc => exact cov_checkQueued (at_pc hpc)
  | spawnUpload hpc => exact cov_spawnUpload (h.inv.pc hpc : r.Spawning S _).new (at_pc hpc)
  | rendered hpc => exact (at_pc hpc : S.supportsPipelining = true → _ → r.Pending [])
  | check hpc =>
    have hk : S.supportsPipelining = true → r.downloadComplete = true → r.Pending [] := at_pc hpc
    unfold Run.check
    split
    · trivial
    split
    · rename_i hd
      simp only [Bool.and_eq_true] at hd
      exact fun hp => hk hp hd.1
    · exact hk
  | waited hpc => exact (at_pc hpc : S.supportsPipelining = true → _ → r.Pending [])
  | @drain k hpc =>
    unfold Run.drain
    split
    · cases k <;> trivial
    · rw [hpc]; cases k <;> trivial
  | @removed k hpc x =>
    have hk := at_pc hpc
    cases k with
    | completed => exact hk
    | _ => trivial
  | afterLoop hpc => exact cov_afterLoop h hpc
  | @edited k hpc x =>
    have hk := at_pc hpc
    cases k with
    | uploading => exact cov_fallback hpc hl
    | completed => exact hk
    | _ => trivial
  | directory hpc x => exact cov_onDirectory (at_pc hpc) x
  | file hpc x => exact cov_onFile (at_pc hpc) x
  | @left exit hpc =>
    have hk := at_pc hpc
    cases exit with
    | completed => exact hk
    | _ => trivial
  | unwound hpc => trivial
  | threw hpc => unfold Run.unwind; dsimp only; split <;> trivial

/-- An upload is spawned only by a downloader that supports pipelining. -/
theorem pipelining_step (h : r.Covered S) (hs : Step S r e r') :
    r'.pipe.uploads ≠ [] → S.supportsPipelining = true := by
  have moved : ∀ {p' : PipelineState}, PipelineState.Move r.pipe p' → p'.uploads ≠ [] →
      S.supportsPipelining = true := fun hm hne =>
    h.pipelining fun h0 => hne (hm.uploads_eq_nil_iff.2 h0)
  have hpipe := hs.pipe
  generalize r'.pipe = p' at hpipe
  cases hpipe with
  | same => exact h.pipelining
  | @spawn file rest hpc =>
    intro _
    have hk := h.cov
    rw [hpc] at hk
    exact hk.1
  | started hp => exact moved (.started _ hp)
  | returned hp => exact moved (.returned _ _ hp)
  | threw hp => exact moved (.threw _ hp)

theorem Covered.step (h : r.Covered S) (hs : Step S r e r') (hl : lossy S r e = false) :
    r'.Covered S :=
  ⟨h.inv.step hs, h.history.step h.inv hs, pipelining_step h hs, cov_step h hs hl⟩

theorem covered_of_steps (h : S.machine.Steps (fun r e => lossy S r e = false) S.init t r) :
    r.Covered S := by
  refine h.invariant ⟨inv_init S, history_init S, fun h => absurd rfl h, rfl⟩ ?_
  intro r e r' hl hr hs
  exact hr.step (step_inv hs) hl

/-! ### Runs with a lossy step -/

/-- The program points a run can still reach once the spawn loop of its last poll is left with
something spawned. -/
def pastLastPoll : Pc → Bool
  | .rendering | .checking | .waiting | .loopHead | .afterLoop | .draining _ | .removing _
  | .saving (.markFailed _ _) | .saved (.markFailed _ _) | .editing (.failed _ _)
  | .saving .markCancelled | .saved .markCancelled | .editing .cancelled
  | .saving .markCompleted | .saved .markCompleted | .editing .completed
  | .leaving _ | .returned _ | .unwinding | .threw => true
  | _ => false

/-- The pool limit has dropped `f`. -/
structure Dropped (f : Path) (r : Run) : Prop where
  late : pastLastPoll r.pc = true
  complete : r.downloadComplete = true
  listed : f ∈ r.finalStatus.files
  missing : f ∉ r.pipe.queued
  spawned : r.pipe.uploads ≠ []

/-- The fallback has dropped `f`. -/
structure Skipped (f : Path) (r : Run) : Prop where
  past : r.pc.pastFallback = true
  listed : f ∈ r.finalStatus.files
  noDir : r.finalStatus.savePath = none
  notFirst : r.finalStatus.files.head? ≠ some f
  pipe : r.pipe = {}
  called : r.invocations ≠ []

theorem Dropped.frame {f : Path} (h : r.Dropped f) (hpc : pastLastPoll r'.pc = true)
    (hd : r'.downloadComplete = r.downloadComplete) (hs : r'.finalStatus = r.finalStatus)
    (hp : r'.pipe = r.pipe) : r'.Dropped f :=
  ⟨hpc, hd ▸ h.complete, hs ▸ h.listed, hp ▸ h.missing, hp ▸ h.spawned⟩

theorem Dropped.move {f : Path} {p : PipelineState} {calls : List Call} (h : r.Dropped f)
    (hm : PipelineState.Move r.pipe p) : Dropped f { r with pipe := p, calls := calls } := by
  refine ⟨h.late, h.complete, h.listed, ?_, fun h0 => h.spawned (hm.uploads_eq_nil_iff.1 h0)⟩
  show f ∉ p.queued
  rw [hm.queued_eq]
  exact h.missing

theorem Dropped.failTask {f : Path} (h : r.Dropped f) (stage : Stage) (err : AppError) :
    (r.failTask stage err).Dropped f :=
  h.frame rfl rfl rfl rfl

theorem Dropped.completes {f : Path} (h : r.Dropped f) : r.complete.Dropped f := by
  refine h.frame ?_ (complete_downloadComplete r) (complete_finalStatus r) (complete_pipe r)
  rcases complete_pc r with hpc | ⟨err, hpc⟩ <;> rw [hpc] <;> rfl

/-- Nothing spawns `f` any more. -/
theorem Dropped.step {f : Path} (h : r.Dropped f) (hi : r.Inv S) (hs : Step S r e r') :
    r'.Dropped f := by
  have late : ∀ {pc}, r.pc = pc → pastLastPoll pc = true := fun hpc => hpc ▸ h.late
  cases hs with
  | clock now => exact h.frame h.late rfl rfl rfl
  | uploadStarted hu hp => exact h.move (.started _ hp)
  | uploadOk hu hp => exact h.move (.returned _ _ hp)
  | uploadError hp => exact h.move (.returned _ _ hp)
  | uploadThrew hp => exact h.move (.threw _ hp)
  | @commit k hpc x =>
    have hk := late hpc
    cases k <;> first | exact h.frame rfl rfl rfl rfl | cases hk
  | @afterSave k hpc =>
    have hk := late hpc
    cases k <;> first | exact h.frame rfl rfl rfl rfl | cases hk
  | head hpc c reg =>
    unfold Run.onHead
    split
    · exact h.frame rfl rfl rfl rfl
    · rw [if_pos h.complete]
      exact h.frame rfl rfl rfl rfl
  | rendered hpc => exact h.frame rfl rfl rfl rfl
  | check hpc =>
    unfold Run.check
    split
    · exact h.frame rfl rfl rfl rfl
    · split <;> exact h.frame rfl rfl rfl rfl
  | waited hpc => exact h.frame rfl rfl rfl rfl
  | @drain k hpc =>
    unfold Run.drain
    split
    · cases k with
      | failTask stage err => exact h.failTask stage err
      | _ => exact h.frame rfl rfl rfl rfl
    · exact h
  | @removed k hpc x =>
    cases k with
    | failUpload err => exact h.failTask .upload err
    | _ => exact h.frame rfl rfl rfl rfl
  | afterLoop hpc =>
    -- something was spawned, so the fallback is not taken
    obtain ⟨_, hd, hf⟩ : r.InLoop ∧ r.pipe.inFlight = 0 ∧ r.pipe.failed = 0 := hi.pc hpc
    unfold Run.afterLoop
    rw [if_pos (hi.pipe.completed_pos hd hf h.spawned)]
    exact h.completes
  | @edited k hpc x =>
    have hk := late hpc
    cases k <;> first | exact h.frame rfl rfl rfl rfl | cases hk
  | left hpc => exact h.frame rfl rfl rfl rfl
  | unwound hpc => exact h.frame rfl rfl rfl rfl
  | threw hpc =>
    unfold Run.unwind
    split <;> exact h.frame rfl rfl rfl rfl
  | _ hpc => cases late hpc

theorem Skipped.frame {f : Path} (h : r.Skipped f) (hpc : r'.pc.pastFallback = true)
    (hs : r'.finalStatus = r.finalStatus) (hp : r'.pipe = r.pipe)
    (hc : r'.invocations = r.invocations) : r'.Skipped f :=
  ⟨hpc, hs ▸ h.listed, hs ▸ h.noDir, hs ▸ h.notFirst, hp.trans h.pipe, by rw [hc]; exact h.called⟩

theorem Skipped.quiet {f : Path} (h : r.Skipped f) (hq : Quiet r r') : r'.Skipped f :=
  h.frame (hq.past h.past).1 (hq.past h.past).2 hq.pipe hq.invocations

theorem Skipped.step {f : Path} (h : r.Skipped f) (hs : Step S r e r') : r'.Skipped f := by
  have past : ∀ {pc}, r.pc = pc → pc.pastFallback = true := fun hpc => hpc ▸ h.past
  have still : ∀ {p}, ¬ PipelineState.Move r.pipe p := by
    intro p hm
    obtain ⟨u, hu, _⟩ := hm.exists_live
    rw [h.pipe] at hu
    cases hu
  have called : ∀ {c}, c.isInvocation = false → Skipped f { r with calls := c :: r.calls } := by
    intro c hc
    exact h.frame h.past rfl rfl (by simp [invocations, hc])
  cases hs.effect with
  | clock now => exact h.frame h.past rfl rfl rfl
  | uploadStarted hu hp => exact absurd (.started _ hp) still
  | uploadOk hu hp => exact absurd (.returned _ _ hp) still
  | uploadError hp => exact absurd (.returned _ _ hp) still
  | uploadThrew hp => exact absurd (.threw _ hp) still
  | move hf hup hne => exact h.quiet (.of_flow hf hup rfl rfl rfl fun _ => rfl)
  | save hf => exact h.quiet (.of_flow hf (hf.not_upload rfl) rfl rfl rfl fun _ => rfl)
  | addUri hf => exact h.quiet (.of_flow hf (hf.not_upload rfl) rfl rfl rfl fun _ => rfl)
  | status hf => exact h.quiet (.of_flow hf (hf.not_upload rfl) rfl rfl rfl fun h => by cases h)
  | spawn hpc => cases past hpc
  | remove deleteFiles hf hne => exact h.quiet (.of_flow hf rfl rfl rfl rfl fun _ => rfl)
  | uploadDirectory hpc hdir => cases past hpc
  | uploadFile hpc hdir hf => cases past hpc
  | uploadedDirectory hpc hf =>
    exact (called rfl).quiet (.of_flow hf (hf.not_upload rfl) rfl rfl rfl fun _ => rfl)
  | uploadedFile hpc hf =>
    exact (called rfl).quiet (.of_flow hf (hf.not_upload rfl) rfl rfl rfl fun _ => rfl)

theorem dropped_of_lossy (hi : r.Inv S) {rest : List Path} (hpc : r.pc = .spawnNext rest)
    (hl : lossy S r .run = true) (hpend : ∀ f ∈ rest, f ∈ r.finalStatus.files) :
    ∃ f, (r.spawnNext S rest).Dropped f := by
  unfold lossy at hl
  rw [hpc] at hl
  simp only [Bool.and_eq_true, Bool.not_eq_true', List.any_eq_true, decide_eq_true_eq] at hl
  obtain ⟨⟨hfull, hd⟩, f, hf, hq⟩ := hl
  have hne : r.pipe.uploads ≠ [] := by
    intro h0
    have hin := hi.pipe.inFlight
    unfold PipelineState.count at hin
    rw [h0, List.countP_nil] at hin
    have hpos := uploadPoolSize_pos S
    simp only [PipelineState.canSpawnMore, decide_eq_false_iff_not] at hfull
    omega
  refine ⟨f, ?_⟩
  cases rest with
  | nil => cases hf
  | cons file rest =>
    have heq : r.spawnNext S (file :: rest) = { r with pc := .rendering } := by
      simp only [Run.spawnNext, hfull, Bool.false_eq_true, if_false]
    rw [heq]
    exact ⟨rfl, hd, hpend f hf, hq, hne⟩

theorem skipped_of_lossy (hi : r.Inv S) (hpc : r.pc = .editing .uploading) {x : Result Unit}
    (hl : lossy S r (.edited x) = true) : ∃ f, r.fallback.Skipped f := by
  obtain ⟨hidle, _⟩ : r.Idle ∧ r.task.state = .uploading := hi.pc hpc
  unfold lossy at hl
  rw [hpc] at hl
  simp only [Bool.and_eq_true, Option.isNone_iff_eq_none, List.any_eq_true, decide_eq_true_eq] at hl
  obtain ⟨hdir, f, hf, hne⟩ := hl
  refine ⟨f, ?_⟩
  cases hfiles : r.finalStatus.files with
  | nil => rw [hfiles] at hf; cases hf
  | cons file rest =>
    have heq : r.fallback =
        { r with pc := .uploadingFile file, calls := .uploadFile file :: r.calls } := by
      simp only [Run.fallback, hfiles, hdir]
    rw [heq]
    exact ⟨rfl, hf, hdir, hne, hidle.pipe, List.cons_ne_nil _ _⟩

/-- A lossy step drops a path. -/
theorem lost_of_lossy (h : r.Covered S) (hs : S.machine.step r e = some r') (hl : lossy S r e = true) :
    ∃ f, r'.Dropped f ∨ r'.Skipped f := by
  change Run.step S r e = some r' at hs
  have hl' := hl
  unfold lossy at hl'
  split at hl'
  · rename_i rest hpc
    simp only [Run.step, hpc, Option.some.injEq] at hs
    subst hs
    have hk := h.cov
    rw [hpc] at hk
    obtain ⟨f, hf⟩ := dropped_of_lossy h.inv hpc hl hk.2.listed
    exact ⟨f, .inl hf⟩
  · rename_i x hpc
    simp only [Run.step, hpc, Option.some.injEq] at hs
    subst hs
    obtain ⟨f, hf⟩ := skipped_of_lossy h.inv hpc hl
    exact ⟨f, .inr hf⟩
  · cases hl'

theorem Dropped.not_allUploaded {f : Path} (h : r.Dropped f) (hi : r.Inv S) (hh : r.History) :
    ¬ r.AllUploaded := by
  have hpiped : r.Piped := hh.calls.resolve_right fun hb => h.spawned (by rw [hb.pipe])
  intro hall
  rcases hall f h.listed with ⟨x, hx⟩ | ⟨dir, xs, _, hx⟩
  · have hinv := hh.file f x (List.mem_filter.2 ⟨hx, rfl⟩)
    have hle := hpiped.file f
    have hpos := List.count_pos_iff.2 hinv
    obtain ⟨u, hu, huf⟩ := List.countP_pos_iff.1 (Nat.lt_of_lt_of_le hpos hle)
    simp only [Bool.and_eq_true, beq_iff_eq] at huf
    exact h.missing (huf.1 ▸ hi.pipe.mem_queued hu)
  · exact hpiped.directory dir (hh.directory dir xs (List.mem_filter.2 ⟨hx, rfl⟩))

theorem Skipped.not_allUploaded {f : Path} (h : r.Skipped f) (hh : r.History) : ¬ r.AllUploaded := by
  have hcall : ∀ c ∈ r.invocations, r.FallbackCall c := by
    rcases hh.calls with hp | hb
    · intro c hc
      cases c with
      | uploadFile g =>
        have hle := hp.file g
        have hpos := List.count_pos_iff.2 hc
        rw [h.pipe] at hle
        exact absurd hle (by simp only [List.countP_nil]; omega)
      | uploadDirectory d => exact absurd hc (hp.directory d)
      | _ => cases List.of_mem_filter hc
    · obtain ⟨c, hc, hcall⟩ := hb.call
      intro c' hc'
      rw [hc, List.mem_singleton] at hc'
      exact hc' ▸ hcall
  intro hall
  rcases hall f h.listed with ⟨x, hx⟩ | ⟨dir, xs, hdir, _⟩
  · exact h.notFirst (hcall _ (hh.file f x (List.mem_filter.2 ⟨hx, rfl⟩))).2
  · rw [h.noDir] at hdir
    cases hdir

/-- A dropped path is never uploaded. -/
theorem not_allUploaded_of_lost {f : Path} {r₀ : Run} (hi : r₀.Inv S) (hh : r₀.History)
    (hl : r₀.Dropped f ∨ r₀.Skipped f) (h : S.machine.Runs r₀ t r) : ¬ r.AllUploaded := by
  have hfinal : (r.Inv S ∧ r.History) ∧ (r.Dropped f ∨ r.Skipped f) := by
    refine h.invariant (I := fun r => (r.Inv S ∧ r.History) ∧ (r.Dropped f ∨ r.Skipped f))
      ⟨⟨hi, hh⟩, hl⟩ ?_
    rintro r e r' _ ⟨⟨hi, hh⟩, hl⟩ hs
    have hs := step_inv hs
    exact ⟨⟨hi.step hs, hh.step hi hs⟩, hl.imp (·.step hi hs) (·.step hs)⟩
  obtain ⟨⟨hi, hh⟩, hd | hk⟩ := hfinal
  · exact hd.not_allUploaded hi hh
  · exact hk.not_allUploaded hh

/-- A run that returns a task id has uploaded every path of the last status it read exactly when
none of its steps was lossy. -/
theorem completed_uploads_all_iff (S : Setup) {t : List Event} {r : Run} {exit : Exit} {id : TaskId}
    (h : S.machine.Runs S.init t r) (hpc : r.pc = .returned exit) (hok : exit.result S = .ok id) :
    r.AllUploaded ↔ S.machine.Steps (fun r e => lossy S r e = false) S.init t r := by
  constructor
  · intro hall
    rcases h.guarded_or_break (fun r e => lossy S r e = false) with hg | hb
    · exact hg
    · obtain ⟨t₁, e, t₂, r₁, r₂, _, h₁, hl, hs, h₂⟩ := hb
      have hc := covered_of_steps h₁
      rw [Bool.not_eq_false] at hl
      obtain ⟨f, hf⟩ := lost_of_lossy hc hs hl
      have hs' := step_inv hs
      exact absurd hall
        (not_allUploaded_of_lost (hc.inv.step hs') (hc.history.step hc.inv hs') hf h₂)
  · intro hg
    have hk := (covered_of_steps hg).cov
    rw [hpc] at hk
    cases exit with
    | completed => exact hk
    | _ => cases hok

/-- The last poll reports two finished files and the pool has one slot. -/
def lossyTrace : List Event :=
  Event.toLoop ++ [.head false false,
    .status (.ok { state := .complete, files := ["a", "b"], savePath := some "d" }),
    .run, .run, .commit (.ok ()), .run, .run, .run, .rendered, .uploadStarted 0,
    .uploadReturned 0 (.ok ⟨"id", "", 0, 0⟩), .run, .run] ++ Event.toReturn

set_option maxRecDepth 4000 in
/-- With one slot the second of two files that turn complete in the last poll is never uploaded. -/
theorem second_file_lost : ¬ ∀ (S : Setup) (t : List Event) (r : Run) (exit : Exit) (id : TaskId),
    S.machine.Runs S.init t r → r.pc = .returned exit → exit.result S = .ok id → r.AllUploaded := by
  intro hall
  have hobs : ((Setup.sample MirrorUrl.useCase 1 true).machine.run
      (Setup.sample MirrorUrl.useCase 1 true).init lossyTrace).map
        (fun r => (r.pc, r.finalStatus.files, r.uploadResults)) =
      some (.returned .completed, ["a", "b"], [.uploadedFile "a" ⟨"id", "", 0, 0⟩]) := by decide
  obtain ⟨r, hr, ho⟩ := Machine.exists_runs hobs
  simp only [Prod.mk.injEq] at ho
  obtain ⟨hpc, hfiles, hup⟩ := ho
  have hb := hall _ _ r _ _ hr hpc rfl "b" (by rw [hfiles]; decide)
  have hmem : ∀ c ∈ r.calls, c.isUploadResult = true → c = .uploadedFile "a" ⟨"id", "", 0, 0⟩ := by
    intro c hc hres
    have : c ∈ r.uploadResults := List.mem_filter.2 ⟨hc, hres⟩
    rw [hup, List.mem_singleton] at this
    exact this
  rcases hb with ⟨x, hx⟩ | ⟨dir, xs, _, hx⟩
  · have := hmem _ hx rfl
    simp at this
  · cases hmem _ hx rfl

set_option maxRecDepth 4000 in
/-- With two slots both are. -/
theorem both_files_uploaded :
    ∃ r, (Setup.sample LeechUrl.useCase 2 true).machine.Runs (Setup.sample LeechUrl.useCase 2 true).init
      (Event.toLoop ++ [.head false false, .status (.ok { state := .complete, files := ["a", "b"] }),
        .run, .run, .commit (.ok ()), .run, .run, .run, .run, .run, .run, .rendered,
        .uploadStarted 1, .uploadStarted 0, .uploadReturned 1 (.ok ⟨"y", "", 0, 0⟩),
        .uploadReturned 0 (.ok ⟨"x", "", 0, 0⟩), .run, .run] ++ Event.toReturn) r ∧
      r.finalStatus.files = ["a", "b"] ∧ r.pc = .returned .completed ∧ r.AllUploaded := by
  have hobs : ((Setup.sample LeechUrl.useCase 2 true).machine.runIf
      (fun r e => !lossy (Setup.sample LeechUrl.useCase 2 true) r e)
      (Setup.sample LeechUrl.useCase 2 true).init
      (Event.toLoop ++ [.head false false, .status (.ok { state := .complete, files := ["a", "b"] }),
        .run, .run, .commit (.ok ()), .run, .run, .run, .run, .run, .run, .rendered,
        .uploadStarted 1, .uploadStarted 0, .uploadReturned 1 (.ok ⟨"y", "", 0, 0⟩),
        .uploadReturned 0 (.ok ⟨"x", "", 0, 0⟩), .run, .run] ++ Event.toReturn)).map
      (fun r => (r.finalStatus.files, r.pc)) = some (["a", "b"], .returned .completed) := by decide
  obtain ⟨r, hr, ho⟩ := Machine.exists_steps hobs
  simp only [Prod.mk.injEq] at ho
  refine ⟨r, hr.runs, ho.1, ho.2, (completed_uploads_all_iff _ hr.runs ho.2 rfl).2 ?_⟩
  exact hr.mono fun _ _ h => by simpa using h

end Run

end Cmlb
