import Cmlb.Application.RunInv

/-!
# The upload calls a run has made

`History` relates the call log to the pipeline. Until the fallback uploads, the only calls of
`upload_file` are those of the spawned coroutines, at most one for each of them; the fallback makes
exactly one upload call, after a loop that spawned nothing, and nothing is uploaded after it.
-/

namespace Cmlb

/-- A call of the uploader. -/
def Call.isInvocation : Call → Bool
  | .uploadFile _ | .uploadDirectory _ => true
  | _ => false

/-- A value returned by the uploader. -/
def Call.isUploadResult : Call → Bool
  | .uploadedFile _ _ | .uploadedDirectory _ _ => true
  | _ => false

/-- The program points from the upload of the fallback on. -/
def Pc.pastFallback : Pc → Bool
  | .uploadingDirectory _ | .uploadingFile _
  | .saving (.markFailed _ _) | .saved (.markFailed _ _) | .editing (.failed _ _)
  | .saving .markCompleted | .saved .markCompleted | .removing .completed | .editing .completed
  | .leaving _ | .returned _ | .unwinding | .threw => true
  | _ => false

namespace Run

variable {S : Setup} {r r' : Run} {e : Event} {pc pc' : Pc}

def invocations (r : Run) : List Call := r.calls.filter Call.isInvocation

def uploadResults (r : Run) : List Call := r.calls.filter Call.isUploadResult

/-- The upload calls of the pipeline. -/
structure Piped (r : Run) : Prop where
  file : ∀ f, r.invocations.count (.uploadFile f) ≤
    r.pipe.uploads.countP fun u => u.file == f && u.stage.invoked
  directory : ∀ d, .uploadDirectory d ∉ r.invocations

/-- `c` is the upload the fallback makes of `final_status`. -/
def FallbackCall (r : Run) : Call → Prop
  | .uploadDirectory d => r.finalStatus.savePath = some d
  | .uploadFile f => r.finalStatus.savePath = none ∧ r.finalStatus.files.head? = some f
  | _ => False

/-- The fallback has made its one upload call. -/
structure FellBack (r : Run) : Prop where
  past : r.pc.pastFallback = true
  pipe : r.pipe = {}
  call : ∃ c, r.invocations = [c] ∧ r.FallbackCall c
  directory : ∀ d, r.pc = .uploadingDirectory d → r.invocations = [.uploadDirectory d]
  file : ∀ f, r.pc = .uploadingFile f → r.invocations = [.uploadFile f]

structure History (r : Run) : Prop where
  running : ∀ u ∈ r.pipe.uploads, u.stage = .running → .uploadFile u.file ∈ r.invocations
  value : ∀ u ∈ r.pipe.uploads, ∀ x, u.stage = .returned (.ok x) →
    .uploadedFile u.file x ∈ r.uploadResults
  file : ∀ f x, .uploadedFile f x ∈ r.uploadResults → .uploadFile f ∈ r.invocations
  directory : ∀ d xs, .uploadedDirectory d xs ∈ r.uploadResults → .uploadDirectory d ∈ r.invocations
  calls : r.Piped ∨ r.FellBack
  atDirectory : ∀ d, r.pc = .uploadingDirectory d → r.FellBack
  atFile : ∀ f, r.pc = .uploadingFile f → r.FellBack

theorem history_init (S : Setup) : S.init.History where
  running u hu := by cases hu
  value u hu := by cases hu
  file f x h := by cases h
  directory d xs h := by cases h
  calls := .inl ⟨fun f => Nat.le_refl _, fun d h => by cases h⟩
  atDirectory d h := by cases h
  atFile f h := by cases h

/-- A step that touches neither the pipeline nor the upload calls. -/
structure Quiet (r r' : Run) : Prop where
  pipe : r'.pipe = r.pipe
  invocations : r'.invocations = r.invocations
  uploadResults : r'.uploadResults = r.uploadResults
  past : r.pc.pastFallback = true → r'.pc.pastFallback = true ∧ r'.finalStatus = r.finalStatus
  directory : ∀ d, r'.pc = .uploadingDirectory d → r.pc = .uploadingDirectory d
  file : ∀ f, r'.pc = .uploadingFile f → r.pc = .uploadingFile f

theorem FellBack.quiet (h : r.FellBack) (hq : Quiet r r') : r'.FellBack := by
  obtain ⟨h1, h2⟩ := hq.past h.past
  obtain ⟨c, hc, hcall⟩ := h.call
  refine ⟨h1, hq.pipe.trans h.pipe, ⟨c, hq.invocations.trans hc, ?_⟩,
    fun d hd => hq.invocations.trans (h.directory d (hq.directory d hd)),
    fun f hf => hq.invocations.trans (h.file f (hq.file f hf))⟩
  cases c <;> first | exact hcall | (simp only [FallbackCall, h2]; exact hcall)

theorem History.quiet (h : r.History) (hq : Quiet r r') : r'.History := by
  refine ⟨?_, ?_, ?_, ?_, ?_, fun d hd => (h.atDirectory d (hq.directory d hd)).quiet hq,
    fun f hf => (h.atFile f (hq.file f hf)).quiet hq⟩
  · rw [hq.pipe, hq.invocations]; exact h.running
  · rw [hq.pipe, hq.uploadResults]; exact h.value
  · rw [hq.invocations, hq.uploadResults]; exact h.file
  · rw [hq.invocations, hq.uploadResults]; exact h.directory
  · rcases h.calls with ⟨h1, h2⟩ | hb
    · exact .inl ⟨by rw [hq.pipe, hq.invocations]; exact h1, by rw [hq.invocations]; exact h2⟩
    · exact .inr (hb.quiet hq)

theorem Flow.pastFallback (hf : Flow pc e pc') (h : pc.pastFallback = true) :
    pc'.pastFallback = true ∧ e.isPoll = false := by
  cases hf with
  | commit k x => cases k <;> first | exact ⟨rfl, rfl⟩ | cases h
  | _ => first | exact ⟨rfl, rfl⟩ | cases h

/-- Only the messenger's answer lets the fallback start an upload. -/
theorem Flow.not_upload (hf : Flow pc e pc') (hne : e.isEdit = false) : pc'.isUpload = false := by
  cases hf with
  | uploadDirectory dir x => cases hne
  | uploadFile file x => cases hne
  | _ => rfl

/-- A step along the control flow that starts no upload of the fallback. -/
theorem Quiet.of_flow (hf : Flow r.pc e r'.pc) (hup : r'.pc.isUpload = false) (hp : r'.pipe = r.pipe)
    (hi : r'.invocations = r.invocations) (hr : r'.uploadResults = r.uploadResults)
    (hst : e.isPoll = false → r'.finalStatus = r.finalStatus) : Quiet r r' := by
  refine ⟨hp, hi, hr, fun hpast => ?_, fun d hd => ?_, fun f hf => ?_⟩
  · obtain ⟨h1, h2⟩ := hf.pastFallback hpast
    exact ⟨h1, hst h2⟩
  · rw [hd] at hup
    cases hup
  · rw [hf] at hup
    cases hup

/-! ### The steps that upload -/

theorem FellBack.not_move {p : PipelineState} (h : r.FellBack) : ¬ PipelineState.Move r.pipe p := by
  intro hm
  obtain ⟨u, hu, _⟩ := hm.exists_live
  rw [h.pipe] at hu
  cases hu

/-- A move of upload coroutine `i` to stage `s`: the coroutines keep their files. -/
theorem mem_set {l : List Upload} {i : Nat} {u v : Upload} (hu : u ∈ l.set i v) : u = v ∨ u ∈ l :=
  (List.mem_or_eq_of_mem_set hu).symm

theorem history_uploadStarted (h : r.History) {i : Nat} {u : Upload} {p : PipelineState}
    (hu : r.pipe.uploads[i]? = some u) (hp : r.pipe.uploadStarted i = some p) :
    History { r with pipe := p, calls := .uploadFile u.file :: r.calls } := by
  have hm := PipelineState.Move.started i hp
  have hpiped : r.Piped := h.calls.resolve_right fun hb => hb.not_move hm
  obtain ⟨file, hu', rfl⟩ := PipelineState.uploadStarted_eq hp
  obtain rfl : u = ⟨file, .ready⟩ := Option.some.inj (hu.symm.trans hu')
  refine ⟨?_, ?_, ?_, ?_, .inl ⟨?_, ?_⟩, fun d hd => absurd hm (h.atDirectory d hd).not_move,
    fun f hf => absurd hm (h.atFile f hf).not_move⟩
  · intro v hv hs
    rcases mem_set hv with rfl | hv
    · exact List.mem_cons_self
    · exact List.mem_cons_of_mem _ (h.running v hv hs)
  · intro v hv x hs
    rcases mem_set hv with rfl | hv
    · cases hs
    · exact h.value v hv x hs
  · intro f x hx
    exact List.mem_cons_of_mem _ (h.file f x hx)
  · intro d xs hx
    exact List.mem_cons_of_mem _ (h.directory d xs hx)
  · intro f
    have hc := PipelineState.countP_set (v := ⟨file, .running⟩)
      (fun v : Upload => v.file == f && v.stage.invoked) hu
    have hle := hpiped.file f
    show (Call.uploadFile file :: r.invocations).count (.uploadFile f) ≤
      (r.pipe.uploads.set i ⟨file, .running⟩).countP _
    rw [List.count_cons]
    by_cases hf : file = f
    · subst hf
      have h0 : UploadStage.ready.invoked = false := rfl
      have h1 : UploadStage.running.invoked = true := rfl
      simp only [beq_self_eq_true, Bool.true_and, h0, h1, Bool.toNat_false, Bool.toNat_true,
        Nat.add_zero, if_true] at hc ⊢
      omega
    · have hne : (Call.uploadFile file == Call.uploadFile f) = false := by
        rw [beq_eq_false_iff_ne]; intro h; exact hf (by injection h)
      simp only [beq_eq_false_iff_ne.2 hf, Bool.false_and, Bool.toNat_false, Nat.add_zero, hne,
        Bool.false_eq_true, if_false] at hc ⊢
      omega
  · intro d hd
    rcases List.mem_cons.1 hd with hd | hd
    · cases hd
    · exact hpiped.directory d hd

/-- A coroutine that ends still counts as one that called `upload_file`. -/
theorem Piped.ended {i : Nat} {u : Upload} {s : UploadStage} (h : r.Piped)
    (hu : r.pipe.uploads[i]? = some u) (hinv : s.invoked = true) (hi : r'.invocations = r.invocations)
    (hp : r'.pipe.uploads = r.pipe.uploads.set i ⟨u.file, s⟩) : r'.Piped := by
  refine ⟨fun f => ?_, by rw [hi]; exact h.directory⟩
  have hc := PipelineState.countP_set (v := ⟨u.file, s⟩)
    (fun v : Upload => v.file == f && v.stage.invoked) hu
  have hle := h.file f
  simp only [hinv, Bool.and_true] at hc
  rw [hi, hp]
  have : (u.file == f && u.stage.invoked).toNat ≤ (u.file == f).toNat := by
    cases u.file == f <;> cases u.stage.invoked <;> decide
  omega

/-- Coroutine `i` ends without a value. -/
theorem history_noValue (h : r.History) {i : Nat} {u : Upload} {s : UploadStage} {p : PipelineState}
    (hm : PipelineState.Move r.pipe p) (hu : r.pipe.uploads[i]? = some u)
    (hp : p.uploads = r.pipe.uploads.set i ⟨u.file, s⟩) (hinv : s.invoked = true)
    (hrun : s ≠ .running) (hval : ∀ x, s ≠ .returned (.ok x)) : History { r with pipe := p } := by
  have hpiped : r.Piped := h.calls.resolve_right fun hb => hb.not_move hm
  refine ⟨?_, ?_, h.file, h.directory, .inl (hpiped.ended hu hinv rfl hp),
    fun d hd => absurd hm (h.atDirectory d hd).not_move,
    fun f hf => absurd hm (h.atFile f hf).not_move⟩
  · intro v hv hs
    rw [hp] at hv
    rcases mem_set hv with rfl | hv
    · exact absurd hs hrun
    · exact h.running v hv hs
  · intro v hv x hs
    rw [hp] at hv
    rcases mem_set hv with rfl | hv
    · exact absurd hs (hval x)
    · exact h.value v hv x hs

theorem history_uploadOk (h : r.History) {i : Nat} {u : Upload} {x : UploadResult}
    {p : PipelineState} (hu : r.pipe.uploads[i]? = some u)
    (hp : r.pipe.uploadReturned i (.ok x) = some p) :
    History { r with pipe := p, calls := .uploadedFile u.file x :: r.calls } := by
  have hm := PipelineState.Move.returned i _ hp
  have hpiped : r.Piped := h.calls.resolve_right fun hb => hb.not_move hm
  obtain ⟨file, hu', _, _, hup, _⟩ := PipelineState.uploadReturned_eq hp
  obtain rfl : u = ⟨file, .running⟩ := Option.some.inj (hu.symm.trans hu')
  refine ⟨?_, ?_, ?_, ?_, .inl (hpiped.ended hu rfl rfl hup),
    fun d hd => absurd hm (h.atDirectory d hd).not_move,
    fun f hf => absurd hm (h.atFile f hf).not_move⟩
  · intro v hv hs
    rw [hup] at hv
    rcases mem_set hv with rfl | hv
    · cases hs
    · exact h.running v hv hs
  · intro v hv y hs
    rw [hup] at hv
    rcases mem_set hv with rfl | hv
    · cases hs; exact List.mem_cons_self
    · exact List.mem_cons_of_mem _ (h.value v hv y hs)
  · intro f y hy
    rcases List.mem_cons.1 hy with hy | hy
    · cases hy; exact h.running _ (List.mem_of_getElem? hu) rfl
    · exact h.file f y hy
  · intro d xs hx
    rcases List.mem_cons.1 hx with hx | hx
    · cases hx
    · exact h.directory d xs hx

theorem history_spawnUpload (hi : r.Inv S) (h : r.History) {file : Path} {rest : List Path}
    (hpc : r.pc = .spawning file rest) : (r.spawnUpload file rest).History := by
  have ha : r.Spawning S file := hi.pc hpc
  have hpiped : r.Piped := h.calls.resolve_right fun hb => by
    have := hb.past; rw [hpc] at this; cases this
  have hup : (r.pipe.spawnUpload file).uploads = r.pipe.uploads ++ [⟨file, .ready⟩] := by
    rw [PipelineState.spawnUpload_of_notMem ha.new]
  refine ⟨?_, ?_, h.file, h.directory, .inl ⟨fun f => ?_, hpiped.directory⟩, nofun, nofun⟩
  · intro u hu hs
    change u ∈ (r.pipe.spawnUpload file).uploads at hu
    rw [hup, List.mem_append, List.mem_singleton] at hu
    rcases hu with hu | rfl
    · exact h.running u hu hs
    · cases hs
  · intro u hu x hs
    change u ∈ (r.pipe.spawnUpload file).uploads at hu
    rw [hup, List.mem_append, List.mem_singleton] at hu
    rcases hu with hu | rfl
    · exact h.value u hu x hs
    · cases hs
  · show r.invocations.count _ ≤ (r.pipe.spawnUpload file).uploads.countP _
    rw [hup, List.countP_append]
    exact Nat.le_trans (hpiped.file f) (Nat.le_add_right _ _)

/-- The fallback starts its upload on an untouched pipeline, before any other upload call. -/
theorem untouched_of_fallback (hi : r.Inv S) (h : r.History) (hpc : r.pc = .editing .uploading) :
    r.pipe = {} ∧ r.invocations = [] := by
  obtain ⟨hidle, _⟩ : r.Idle ∧ r.task.state = .uploading := hi.pc hpc
  have hpiped : r.Piped := h.calls.resolve_right fun hb => by
    have := hb.past; rw [hpc] at this; cases this
  refine ⟨hidle.pipe, List.eq_nil_iff_forall_not_mem.2 fun c hc => ?_⟩
  have hf : ∀ f, c ≠ .uploadFile f := by
    rintro f rfl
    have hle := hpiped.file f
    rw [hidle.pipe] at hle
    have hpos := List.count_pos_iff.2 hc
    simp at hle
    omega
  have hinv : c.isInvocation = true := List.of_mem_filter hc
  cases c with
  | uploadFile f => exact hf f rfl
  | uploadDirectory d => exact hpiped.directory d hc
  | _ => cases hinv

/-- The one upload call of the fallback. -/
theorem history_fallback (hi : r.Inv S) (h : r.History) (hpc : r.pc = .editing .uploading) {pc : Pc}
    {c : Call} (hb : FellBack { r with pc := pc, calls := c :: r.calls })
    (hc : c.isUploadResult = false) (hinv : c.isInvocation = true) :
    History { r with pc := pc, calls := c :: r.calls } := by
  obtain ⟨hpipe, hnone⟩ := untouched_of_fallback hi h hpc
  have hempty : ∀ u ∈ r.pipe.uploads, False := by
    rw [hpipe]
    intro u hu
    cases hu
  have hres : uploadResults { r with pc := pc, calls := c :: r.calls } = r.uploadResults := by
    simp [uploadResults, hc]
  have hcall : invocations { r with pc := pc, calls := c :: r.calls } = c :: r.invocations := by
    simp [invocations, hinv]
  refine ⟨fun u hu => (hempty u hu).elim, fun u hu => (hempty u hu).elim, ?_, ?_, .inr hb,
    fun _ _ => hb, fun _ _ => hb⟩
  · rw [hres, hcall]
    exact fun f x hx => List.mem_cons_of_mem _ (h.file f x hx)
  · rw [hres, hcall]
    exact fun d xs hx => List.mem_cons_of_mem _ (h.directory d xs hx)

theorem history_uploadDirectory (hi : r.Inv S) (h : r.History) (hpc : r.pc = .editing .uploading)
    {dir : Path} (hdir : r.finalStatus.savePath = some dir) :
    History { r with pc := .uploadingDirectory dir, calls := .uploadDirectory dir :: r.calls } := by
  obtain ⟨hpipe, hnone⟩ := untouched_of_fallback hi h hpc
  refine history_fallback hi h hpc ⟨rfl, hpipe, ⟨.uploadDirectory dir, congrArg _ hnone, hdir⟩, ?_, nofun⟩
    rfl rfl
  rintro d hd
  cases hd
  exact congrArg _ hnone

theorem history_uploadFile (hi : r.Inv S) (h : r.History) (hpc : r.pc = .editing .uploading)
    {file : Path} (hdir : r.finalStatus.savePath = none) (hf : r.finalStatus.files.head? = some file) :
    History { r with pc := .uploadingFile file, calls := .uploadFile file :: r.calls } := by
  obtain ⟨hpipe, hnone⟩ := untouched_of_fallback hi h hpc
  refine history_fallback hi h hpc
    ⟨rfl, hpipe, ⟨.uploadFile file, congrArg _ hnone, hdir, hf⟩, nofun, ?_⟩ rfl rfl
  rintro d hd
  cases hd
  exact congrArg _ hnone

/-- `upload_directory` of the fallback returns a value. -/
theorem history_uploadedDirectory (h : r.History) {path : Path} (hpc : r.pc = .uploadingDirectory path)
    (xs : List UploadResult) :
    History { r with calls := .uploadedDirectory path xs :: r.calls } := by
  have hb := h.atDirectory path hpc
  have hb' : FellBack { r with calls := .uploadedDirectory path xs :: r.calls } :=
    ⟨hb.past, hb.pipe, hb.call, hb.directory, hb.file⟩
  refine ⟨h.running, fun u hu x hs => List.mem_cons_of_mem _ (h.value u hu x hs), ?_, ?_, .inr hb',
    fun _ _ => hb', fun _ _ => hb'⟩
  · intro f x hx
    rcases List.mem_cons.1 hx with hx | hx
    · cases hx
    · exact h.file f x hx
  · intro d ys hd
    rcases List.mem_cons.1 hd with hd | hd
    · cases hd
      have : r.invocations = [.uploadDirectory path] := hb.directory path hpc
      show _ ∈ r.invocations
      rw [this]; exact List.mem_cons_self
    · exact h.directory d ys hd

/-- `upload_file` of the fallback returns a value. -/
theorem history_uploadedFile (h : r.History) {file : Path} (hpc : r.pc = .uploadingFile file)
    (y : UploadResult) : History { r with calls := .uploadedFile file y :: r.calls } := by
  have hb := h.atFile file hpc
  have hb' : FellBack { r with calls := .uploadedFile file y :: r.calls } :=
    ⟨hb.past, hb.pipe, hb.call, hb.directory, hb.file⟩
  refine ⟨h.running, fun u hu x hs => List.mem_cons_of_mem _ (h.value u hu x hs), ?_, ?_, .inr hb',
    fun _ _ => hb', fun _ _ => hb'⟩
  · intro f z hz
    rcases List.mem_cons.1 hz with hz | hz
    · cases hz
      show _ ∈ r.invocations
      rw [hb.file file hpc]; exact List.mem_cons_self
    · exact h.file f z hz
  · intro d xs hd
    rcases List.mem_cons.1 hd with hd | hd
    · cases hd
    · exact h.directory d xs hd

theorem History.step (hi : r.Inv S) (h : r.History) (hs : Step S r e r') : r'.History := by
  cases hs.effect with
  | clock now => exact h.quiet ⟨rfl, rfl, rfl, fun hp => ⟨hp, rfl⟩, fun _ hd => hd, fun _ hf => hf⟩
  | uploadStarted hu hp => exact history_uploadStarted h hu hp
  | uploadOk hu hp => exact history_uploadOk h hu hp
  | uploadError hp =>
    obtain ⟨file, hu, _, _, hup, _⟩ := PipelineState.uploadReturned_eq hp
    exact history_noValue h (.returned _ _ hp) hu hup rfl nofun nofun
  | uploadThrew hp =>
    have hm := PipelineState.Move.threw _ hp
    obtain ⟨u, hu, _, rfl⟩ := PipelineState.uploadThrew_eq hp
    exact history_noValue h hm hu rfl rfl nofun nofun
  | move hf hup hne => exact h.quiet (.of_flow hf hup rfl rfl rfl fun _ => rfl)
  | save hf => exact h.quiet (.of_flow hf (hf.not_upload rfl) rfl rfl rfl fun _ => rfl)
  | addUri hf => exact h.quiet (.of_flow hf (hf.not_upload rfl) rfl rfl rfl fun _ => rfl)
  | status hf => exact h.quiet (.of_flow hf (hf.not_upload rfl) rfl rfl rfl fun h => by cases h)
  | spawn hpc => exact history_spawnUpload hi h hpc
  | remove deleteFiles hf hne => exact h.quiet (.of_flow hf rfl rfl rfl rfl fun _ => rfl)
  | uploadDirectory hpc hdir => exact history_uploadDirectory hi h hpc hdir
  | uploadFile hpc hdir hf => exact history_uploadFile hi h hpc hdir hf
  | uploadedDirectory hpc hf =>
    exact (history_uploadedDirectory h hpc _).quiet
      (.of_flow hf (hf.not_upload rfl) rfl rfl rfl fun _ => rfl)
  | uploadedFile hpc hf =>
    exact (history_uploadedFile h hpc _).quiet
      (.of_flow hf (hf.not_upload rfl) rfl rfl rfl fun _ => rfl)

theorem history_of_steps {P : Run → Event → Prop} {t : List Event}
    (h : S.machine.Steps P S.init t r) : r.Inv S ∧ r.History := by
  refine h.invariant (I := fun r => r.Inv S ∧ r.History) ⟨inv_init S, history_init S⟩ ?_
  rintro r e r' _ ⟨hi, hh⟩ hs
  exact ⟨hi.step (step_inv hs), hh.step hi (step_inv hs)⟩

end Run

end Cmlb
