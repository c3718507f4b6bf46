import Cmlb.Application.Outcome
import Cmlb.Application.Release

/-!
# Mirror and leech

The two use cases write a different task kind, use another upload target and name themselves in two
messages; none of this is read back by the coroutine. `Run.neutral` forgets it, and then one step of
either is one step of the other (`step_neutral`), with one exception: an empty `upload_directory`
result completes a mirror and fails a leech.
-/

namespace Cmlb

def Task.asMirror (t : Task) : Task := { t with metadata := { t.metadata with kind := .mirror } }

namespace Task

variable {t : Task} {now : Time}

theorem transition_asMirror (legal : TaskState → Bool) (dst : TaskState) :
    transition legal dst now t.asMirror = (transition legal dst now t).map asMirror := by
  unfold transition
  show (if legal t.state then _ else _) = _
  split <;> rfl

theorem markFailed_asMirror (reason : String) :
    t.asMirror.markFailed reason now = (t.markFailed reason now).map asMirror := by
  unfold markFailed
  show (if t.isTerminal then _ else _) = _
  split <;> rfl

theorem orSelf_asMirror (x : Result Task) : t.asMirror.orSelf (x.map asMirror) = (t.orSelf x).asMirror := by
  cases x <;> rfl

end Task

def Call.neutral : Call → Call
  | .save t r => .save t.asMirror r
  | c => c

namespace Run

variable {S : Setup} {r r' : Run} {e : Event} {t : List Event}

/-- The run without what tells the two use cases apart. -/
def neutral (r : Run) : Run :=
  { r with task := r.task.asMirror, target := ⟨.telegram, {}⟩, calls := r.calls.map Call.neutral }

theorem neutral_neutral (r : Run) : r.neutral.neutral = r.neutral := by
  have hcall : Call.neutral ∘ Call.neutral = Call.neutral := by
    funext c
    cases c <;> rfl
  unfold neutral
  simp only [List.map_map, hcall]
  rfl

theorem neutral_failTask (stage : Stage) (err : AppError) :
    r.neutral.failTask stage err = (r.failTask stage err).neutral := by
  unfold failTask
  show ({ r.neutral with task := r.task.asMirror.orSelf (r.task.asMirror.markFailed err.message r.now),
                         pc := .saving (.markFailed stage err) } : Run) = _
  rw [Task.markFailed_asMirror, Task.orSelf_asMirror]
  rfl

theorem neutral_startDownload : r.neutral.startDownload = r.startDownload.neutral := by
  have ht : r.neutral.task.startDownload r.neutral.now = (r.task.startDownload r.now).map Task.asMirror :=
    Task.transition_asMirror _ _
  unfold startDownload
  rw [ht]
  cases r.task.startDownload r.now with
  | error err => exact neutral_failTask .state err
  | ok t => rfl

theorem neutral_finish : r.neutral.finish = r.finish.neutral := by
  have hc : r.neutral.task.markCompleted r.neutral.now =
      (r.task.markCompleted r.now).map Task.asMirror := Task.transition_asMirror _ _
  unfold finish
  rw [hc]
  cases r.task.markCompleted r.now with
  | error err => exact neutral_failTask .state err
  | ok t => rfl

theorem neutral_complete : r.neutral.complete = r.complete.neutral := by
  have hb : r.neutral.task.orSelf (r.neutral.task.beginUpload r.neutral.now) =
      (r.task.orSelf (r.task.beginUpload r.now)).asMirror := by
    rw [← Task.orSelf_asMirror]
    exact congrArg _ (Task.transition_asMirror _ _)
  unfold complete
  rw [hb]
  by_cases htr : r.transitionedToUploading = true
  · rw [if_pos htr, if_pos (show r.neutral.transitionedToUploading = true from htr)]
    exact neutral_finish
  · rw [if_neg htr, if_neg (show ¬ r.neutral.transitionedToUploading = true from htr)]
    exact neutral_finish (r := { r with task := r.task.orSelf (r.task.beginUpload r.now) })

theorem neutral_checkQueued (file : Path) (rest : List Path) :
    r.neutral.checkQueued file rest = (r.checkQueued file rest).neutral := by
  have hb : r.neutral.task.beginUpload r.neutral.now = (r.task.beginUpload r.now).map Task.asMirror :=
    Task.transition_asMirror _ _
  unfold checkQueued
  rw [hb]
  show (if file ∈ r.pipe.queued then _ else if r.transitionedToUploading = true then _ else _) = _
  split
  · rfl
  split
  · rfl
  · cases r.task.beginUpload r.now <;> rfl

theorem neutral_afterLoop : r.neutral.afterLoop = r.afterLoop.neutral := by
  have hb : r.neutral.task.beginUpload r.neutral.now = (r.task.beginUpload r.now).map Task.asMirror :=
    Task.transition_asMirror _ _
  unfold afterLoop
  rw [hb]
  show (if r.pipe.completed > 0 then _ else _) = _
  split
  · exact neutral_complete
  · cases r.task.beginUpload r.now with
    | error err => exact neutral_failTask .state err
    | ok t => rfl

theorem neutral_onHead (c reg : Bool) : r.neutral.onHead c reg = (r.onHead c reg).neutral := by
  unfold onHead
  show (if (c || reg) = true then _ else if r.downloadComplete = true then _ else _) = _
  split
  · rfl
  · split <;> rfl

theorem neutral_spawnNext (files : List Path) :
    r.neutral.spawnNext S files = (r.spawnNext S files).neutral := by
  cases files with
  | nil => rfl
  | cons file rest =>
    unfold spawnNext
    show (if r.pipe.canSpawnMore S.uploadPoolSize = true then _ else _) = _
    split <;> rfl

theorem neutral_onStatus (x : Result DownloadStatus) :
    r.neutral.onStatus S x = (r.onStatus S x).neutral := by
  cases x with
  | error err => rfl
  | ok st =>
    unfold onStatus
    dsimp only
    split
    · rfl
    · split <;> rfl

theorem neutral_check : r.neutral.check = r.check.neutral := by
  unfold check
  show (if r.pipe.failed > 0 then _ else
    if (r.downloadComplete && r.pipe.inFlight == 0) = true then _ else _) = _
  split
  · rfl
  · split <;> rfl

theorem neutral_drain (k : AfterDrain) : r.neutral.drain k = (r.drain k).neutral := by
  unfold drain
  show (if (r.pipe.inFlight == 0) = true then _ else _) = _
  split
  · cases k with
    | failTask stage err => exact neutral_failTask stage err
    | _ => rfl
  · rfl

theorem neutral_afterRemove (k : AfterRemove) : r.neutral.afterRemove k = (r.afterRemove k).neutral := by
  cases k with
  | cancel =>
    have hc : r.neutral.task.markCancelled r.neutral.now =
        (r.task.markCancelled r.now).map Task.asMirror := Task.transition_asMirror _ _
    have ho : r.neutral.task.orSelf (r.neutral.task.markCancelled r.neutral.now) =
        (r.task.orSelf (r.task.markCancelled r.now)).asMirror := by
      rw [hc]; exact Task.orSelf_asMirror _
    unfold afterRemove
    dsimp only
    rw [ho]
    rfl
  | failUpload err => exact neutral_failTask .upload err
  | completed => rfl

theorem neutral_fallback : r.neutral.fallback = r.fallback.neutral := by
  have hs : r.neutral.finalStatus = r.finalStatus := rfl
  unfold fallback
  rw [hs]
  rcases r.finalStatus.files with _ | ⟨file, rest⟩
  · exact neutral_failTask .download _
  · rcases r.finalStatus.savePath with _ | dir <;> rfl

theorem neutral_afterEdit (k : AfterEdit) : r.neutral.afterEdit k = (r.afterEdit k).neutral := by
  cases k with
  | uploading => exact neutral_fallback
  | _ => rfl

theorem neutral_afterSave (k : AfterSave) : r.neutral.afterSave k = (r.afterSave k).neutral := by
  cases k <;> rfl

theorem neutral_unwind : r.neutral.unwind = r.unwind.neutral := rfl

theorem neutral_uploadStarted (i : Nat) :
    (r.neutral.uploadStarted i).map neutral = (r.uploadStarted i).map neutral := by
  have hp : r.neutral.pipe = r.pipe := rfl
  unfold uploadStarted
  rw [hp]
  split
  · rename_i u p _ _
    exact congrArg some (neutral_neutral { r with pipe := p, calls := .uploadFile u.file :: r.calls })
  · rfl

theorem neutral_uploadReturned (i : Nat) (x : Result UploadResult) :
    (r.neutral.uploadReturned i x).map neutral = (r.uploadReturned i x).map neutral := by
  have hp : r.neutral.pipe = r.pipe := rfl
  unfold uploadReturned
  rw [hp]
  split
  · rename_i u p _ _
    cases x with
    | ok y =>
      exact congrArg some (neutral_neutral { r with pipe := p, calls := .uploadedFile u.file y :: r.calls })
    | error err => exact congrArg some (neutral_neutral { r with pipe := p })
  · rfl

theorem neutral_uploadThrew (i : Nat) :
    (r.neutral.uploadThrew i).map neutral = (r.uploadThrew i).map neutral := by
  unfold uploadThrew
  show ((r.pipe.uploadThrew i).map _).map neutral = _
  cases r.pipe.uploadThrew i with
  | none => rfl
  | some p => exact congrArg some (neutral_neutral { r with pipe := p })

theorem neutral_onFile (file : Path) (x : Result UploadResult) :
    r.neutral.onFile file x = (r.onFile file x).neutral := by
  cases x with
  | error err => exact neutral_failTask .upload err
  | ok y => exact neutral_complete (r := { r with calls := .uploadedFile file y :: r.calls })

/-- The one place where the use case decides. -/
theorem neutral_onDirectory {S' : Setup} (path : Path) {x : Result (List UploadResult)}
    (hx : ∀ xs, x = .ok xs → S'.useCase.rejectDirectory xs = S.useCase.rejectDirectory xs) :
    r.neutral.onDirectory S' path x = (r.onDirectory S path x).neutral := by
  cases x with
  | error err => exact neutral_failTask .upload err
  | ok xs =>
    unfold onDirectory
    dsimp only
    rw [hx xs rfl]
    cases S.useCase.rejectDirectory xs with
    | none => exact neutral_complete (r := { r with calls := .uploadedDirectory path xs :: r.calls })
    | some err =>
      exact neutral_failTask (r := { r with calls := .uploadedDirectory path xs :: r.calls }) .upload err

/-- The task is created with another kind, and that is forgotten. -/
theorem neutral_onSent (u : UseCase) (x : Result MessageId) :
    (r.neutral.onSent { S with useCase := u } x).neutral = (r.onSent S x).neutral := by
  cases x with
  | error err => exact neutral_neutral (r.onSent S (.error err))
  | ok m => exact neutral_neutral (r.onSent S (.ok m))

/-- The upload target is computed from another use case, and forgotten. -/
theorem neutral_onGid (u : UseCase) (x : Result Gid) :
    (r.neutral.onGid { S with useCase := u } x).neutral = (r.onGid S x).neutral := by
  cases x with
  | error err =>
    have h := neutral_failTask (r := { r with calls := .addUri (.error err) :: r.calls }) .download err
    exact (congrArg neutral h).trans (neutral_neutral _)
  | ok g => exact neutral_neutral (r.onGid S (.ok g))

/-- A step of a run is a step of its neutral image, under any use case that judges the
`upload_directory` result of this step alike. -/
theorem step_neutral (u : UseCase)
    (hd : ∀ path xs, r.pc = .uploadingDirectory path → e = .directory (.ok xs) →
      u.rejectDirectory xs = S.useCase.rejectDirectory xs) :
    (Run.step { S with useCase := u } r.neutral e).map neutral = (Run.step S r e).map neutral := by
  have some_eq : ∀ {a b : Run}, a = b.neutral → (some a).map neutral = (some b).map neutral := by
    rintro a b rfl
    exact congrArg some (neutral_neutral b)
  unfold Run.step
  have hpc : r.neutral.pc = r.pc := rfl
  rw [hpc]
  generalize r.pc = pc at hd
  -- the answer to an event nobody waits for is `none` on both sides
  cases e with
  | clock now => cases pc <;> exact some_eq rfl
  | uploadStarted i => cases pc <;> exact neutral_uploadStarted i
  | uploadReturned i x => cases pc <;> exact neutral_uploadReturned i x
  | uploadThrew i => cases pc <;> exact neutral_uploadThrew i
  | threw => cases pc <;> first | rfl | exact some_eq neutral_unwind
  | run =>
    cases pc with
    | start => dsimp only; split <;> exact some_eq rfl
    | created => exact some_eq neutral_startDownload
    | saved k => exact some_eq (neutral_afterSave k)
    | spawnNext files => exact some_eq (neutral_spawnNext (S := S) files)
    | checkQueued file rest => exact some_eq (neutral_checkQueued file rest)
    | spawning file rest => exact some_eq rfl
    | checking => exact some_eq neutral_check
    | afterLoop => exact some_eq neutral_afterLoop
    | leaving exit => exact some_eq rfl
    | unwinding => exact some_eq rfl
    | _ => rfl
  | settings x =>
    cases pc with
    | gettingSettings => cases x <;> exact some_eq rfl
    | _ => rfl
  | sent x =>
    cases pc with
    | sendingStatus => exact congrArg some (neutral_onSent u x)
    | _ => rfl
  | commit x =>
    cases pc with
    | creating => cases x <;> exact some_eq rfl
    | saving k => exact some_eq rfl
    | _ => rfl
  | gid x =>
    cases pc with
    | addingUri => exact congrArg some (neutral_onGid u x)
    | _ => rfl
  | head c reg =>
    cases pc with
    | loopHead => exact some_eq (neutral_onHead c reg)
    | _ => rfl
  | status x =>
    cases pc with
    | polling => exact some_eq (neutral_onStatus (S := S) x)
    | _ => rfl
  | rendered =>
    cases pc with
    | rendering => exact some_eq rfl
    | _ => rfl
  | tick =>
    cases pc with
    | waiting => exact some_eq rfl
    | draining k => exact some_eq (neutral_drain k)
    | _ => rfl
  | removed x =>
    cases pc with
    | removing k => exact some_eq (neutral_afterRemove k)
    | _ => rfl
  | edited x =>
    cases pc with
    | editing k => exact some_eq (neutral_afterEdit k)
    | _ => rfl
  | directory x =>
    cases pc with
    | uploadingDirectory path =>
      exact some_eq (neutral_onDirectory path fun xs hx => hd path xs rfl (by rw [hx]))
    | _ => rfl
  | file x =>
    cases pc with
    | uploadingFile file => exact some_eq (neutral_onFile file x)
    | _ => rfl

/-- The event is an empty `upload_directory` result of the fallback. -/
def emptyDirectory (r : Run) (e : Event) : Bool :=
  match r.pc, e with
  | .uploadingDirectory _, .directory (.ok []) => true
  | _, _ => false

end Run

/-- The same call as a mirror and as a leech. -/
def Setup.mirror (S : Setup) : Setup := { S with useCase := MirrorUrl.useCase }

def Setup.leech (S : Setup) : Setup := { S with useCase := LeechUrl.useCase }

/-- Both return a value, or both an error with the same code. -/
def sameOutcome : Result TaskId → Result TaskId → Prop
  | .ok _, .ok _ => True
  | .error err, .error err' => err.code = err'.code
  | _, _ => False

namespace Run

/-- The mirror `m` and the leech `l` have persisted the same states and returned alike. -/
structure Agree (S : Setup) (m l : Run) : Prop where
  states : m.persisted.map (·.state) = l.persisted.map (·.state)
  mirror : ∀ exit, m.pc = .returned exit →
    ∃ exit', l.pc = .returned exit' ∧ sameOutcome (exit.result S.mirror) (exit'.result S.leech)
  leech : ∀ exit', l.pc = .returned exit' →
    ∃ exit, m.pc = .returned exit ∧ sameOutcome (exit.result S.mirror) (exit'.result S.leech)

theorem neutral_pc {m l : Run} (h : m.neutral = l.neutral) : m.pc = l.pc := by
  have hpc : m.neutral.pc = l.neutral.pc := by rw [h]
  exact hpc

theorem persisted_neutral (r : Run) : r.neutral.persisted = r.persisted.map Task.asMirror := by
  have h : ∀ calls : List Call, (calls.map Call.neutral).filterMap Call.persisted? =
      (calls.filterMap Call.persisted?).map Task.asMirror := by
    intro calls
    induction calls with
    | nil => rfl
    | cons c calls ih =>
      cases c with
      | save t x =>
        cases x with
        | ok u => exact congrArg (t.asMirror :: ·) ih
        | error err => exact ih
      | _ => exact ih
  exact h r.calls

theorem sameOutcome_self (S : Setup) (exit : Exit) :
    sameOutcome (exit.result S.mirror) (exit.result S.leech) := by
  cases exit with
  | completed => trivial
  | _ => rfl

theorem agree_of_neutral (S : Setup) {m l : Run} (h : m.neutral = l.neutral) : Agree S m l := by
  have hpc : m.pc = l.pc := neutral_pc h
  refine ⟨?_, fun exit hm => ⟨exit, hpc ▸ hm, sameOutcome_self S exit⟩,
    fun exit hl => ⟨exit, hpc ▸ hl, sameOutcome_self S exit⟩⟩
  have hstate : ∀ r : Run, r.persisted.map (·.state) = r.neutral.persisted.map (·.state) := by
    intro r
    rw [persisted_neutral, List.map_map]
    rfl
  rw [hstate m, hstate l, h]

/-- Away from an empty directory result the two stay in step. -/
theorem neutral_next (S : Setup) {m l : Run} (h : m.neutral = l.neutral)
    (he : (!emptyDirectory m e) = true) :
    (S.mirror.machine.next m e).neutral = (S.leech.machine.next l e).neutral := by
  have hpc : m.pc = l.pc := neutral_pc h
  have hd : ∀ path xs, l.pc = .uploadingDirectory path → e = .directory (.ok xs) →
      MirrorUrl.useCase.rejectDirectory xs = S.leech.useCase.rejectDirectory xs := by
    rintro path xs hl rfl
    rw [← hpc] at hl
    cases xs with
    | nil => simp only [emptyDirectory, hl, Bool.not_true, Bool.false_eq_true] at he
    | cons x xs => rfl
  have hm := step_neutral (S := S.mirror) (r := m) (e := e) MirrorUrl.useCase fun _ _ _ _ => rfl
  have hl := step_neutral (S := S.leech) (r := l) (e := e) MirrorUrl.useCase hd
  have heq : (Run.step S.mirror m e).map neutral = (Run.step S.leech l e).map neutral := by
    rw [← hm, ← hl, h]
    rfl
  show ((Run.step S.mirror m e).getD m).neutral = ((Run.step S.leech l e).getD l).neutral
  cases hsm : Run.step S.mirror m e with
  | none =>
    rw [hsm, Option.map_none, eq_comm, Option.map_eq_none_iff] at heq
    rw [heq]
    exact h
  | some m' =>
    rw [hsm] at heq
    obtain ⟨l', hl', hn⟩ := Option.map_eq_some_iff.1 heq.symm
    rw [hl']
    exact hn.symm

/-- The program points of the tail. -/
def completing : Pc → Bool
  | .saving .markCompleted | .saved .markCompleted | .removing .completed | .editing .completed
  | .leaving .completed | .returned .completed | .unwinding | .threw => true
  | _ => false

theorem Flow.completing {pc pc' : Pc} (hf : Flow pc e pc') (h : completing pc = true) :
    Run.completing pc' = true := by
  cases hf with
  | commit k x => cases k <;> first | rfl | cases h
  | left exit => cases exit <;> first | rfl | cases h
  | _ => first | rfl | cases h

theorem completing_step (h : completing r.pc = true) (hs : Step S r e r') :
    completing r'.pc = true := by
  rcases hs.flow with heq | hf
  · rw [heq]
    exact h
  · exact hf.completing h

/-- An empty directory result sends the mirror to its tail and the leech to `fail_task`. -/
theorem diverge (S : Setup) {m l : Run} (h : m.neutral = l.neutral) (hi : m.Inv S.mirror)
    (he : emptyDirectory m e = true) :
    completing (S.mirror.machine.next m e).pc = true ∧ failing (S.leech.machine.next l e).pc = true := by
  have hpcs : m.pc = l.pc := neutral_pc h
  unfold emptyDirectory at he
  split at he
  · rename_i path hpc
    have hm : S.mirror.machine.step m (.directory (.ok [])) = some (m.onDirectory S.mirror path (.ok [])) := by
      show Run.step _ _ _ = _
      simp only [Run.step, hpc]
    have hl : S.leech.machine.step l (.directory (.ok [])) = some (l.onDirectory S.leech path (.ok [])) := by
      show Run.step _ _ _ = _
      simp only [Run.step, ← hpcs, hpc]
    have hi' := inv_onDirectory hi hpc (.ok [])
    unfold Machine.next
    rw [hm, hl]
    refine ⟨?_, rfl⟩
    -- the transitions of the tail are legal, so it does not fail
    rcases complete_pc { m with calls := .uploadedDirectory path [] :: m.calls } with hc | ⟨err, hc⟩
    · exact congrArg completing hc
    · exact absurd hc hi'.not_state
  · cases he

/-- Driven by the same events, a mirror and a leech persist the same states and return alike as long
as the fallback gets no empty `upload_directory` result; once it has got one and one of the two has
returned, they do not. -/
theorem mirror_leech_agree (S : Setup) (t : List Event) :
    (S.mirror.machine.drivesIf (fun r e => !emptyDirectory r e) S.mirror.init t = true →
      Agree S (S.mirror.machine.drive S.mirror.init t) (S.leech.machine.drive S.leech.init t)) ∧
    ((∃ exit, (S.mirror.machine.drive S.mirror.init t).pc = .returned exit ∨
        (S.leech.machine.drive S.leech.init t).pc = .returned exit) →
      Agree S (S.mirror.machine.drive S.mirror.init t) (S.leech.machine.drive S.leech.init t) →
      S.mirror.machine.drivesIf (fun r e => !emptyDirectory r e) S.mirror.init t = true) := by
  have hrel : ∀ t, S.mirror.machine.drivesIf (fun r e => !emptyDirectory r e) S.mirror.init t = true →
      (S.mirror.machine.drive S.mirror.init t).neutral = (S.leech.machine.drive S.leech.init t).neutral :=
    fun t => Machine.drive_related (R := fun m l : Run => m.neutral = l.neutral)
      (fun m l e h he => neutral_next S h he) rfl
  refine ⟨fun h => agree_of_neutral S (hrel t h), fun ⟨exit, hret⟩ hagree => ?_⟩
  by_contra hbreak
  obtain ⟨t₁, e, t₂, rfl, h₁, he⟩ := Machine.exists_of_not_drivesIf (Bool.eq_false_iff.2 hbreak)
  have hi : (S.mirror.machine.drive S.mirror.init t₁).Inv S.mirror :=
    Machine.drive_invariant (inv_init S.mirror) fun _ _ _ hi hs => hi.step (step_inv hs)
  obtain ⟨hm, hl⟩ := diverge S (hrel t₁ h₁) hi (by simpa using he)
  rw [Machine.drive_append, Machine.drive_append] at hret hagree
  have hm' := Machine.drive_invariant (M := S.mirror.machine) (t := t₂) (I := fun r : Run => completing r.pc = true) hm
    fun _ _ _ hc hs => completing_step hc (step_inv hs)
  have hl' := Machine.drive_invariant (M := S.leech.machine) (t := t₂) (I := fun r : Run => failing r.pc = true) hl
    fun _ _ _ hf hs => (failing_step hf (step_inv hs)).1
  obtain ⟨a, b, ha, hb, hout⟩ : ∃ a b, (S.mirror.machine.drive
        (S.mirror.machine.next (S.mirror.machine.drive S.mirror.init t₁) e) t₂).pc = .returned a ∧
      (S.leech.machine.drive (S.leech.machine.next (S.leech.machine.drive S.leech.init t₁) e) t₂).pc =
        .returned b ∧ sameOutcome (a.result S.mirror) (b.result S.leech) := by
    rcases hret with hret | hret
    · obtain ⟨b, hb, hout⟩ := hagree.mirror _ hret
      exact ⟨_, b, hret, hb, hout⟩
    · obtain ⟨a, ha, hout⟩ := hagree.leech _ hret
      exact ⟨a, _, ha, hret, hout⟩
  rw [ha] at hm'
  rw [hb] at hl'
  cases a with
  | completed =>
    cases b with
    | completed => cases hl'
    | _ => exact hout
  | _ => cases hm'

/-- The fallback's `upload_directory` returns an empty list. -/
def emptyDirectoryTrace : List Event :=
  Event.toLoop ++ [.head false false,
    .status (.ok { state := .complete, files := ["a"], savePath := some "d" }),
    .rendered, .run, .run, .commit (.ok ()), .run, .edited (.ok ()), .directory (.ok [])] ++
  Event.toReturn

set_option maxRecDepth 4000 in
theorem mirror_leech_disagree : ¬ ∀ (S : Setup) (t : List Event),
    Agree S (S.mirror.machine.drive S.mirror.init t) (S.leech.machine.drive S.leech.init t) := by
  intro hall
  have h := (hall (.sample MirrorUrl.useCase 1 false) emptyDirectoryTrace).states
  have hm : (((Setup.sample MirrorUrl.useCase 1 false).mirror.machine.drive
      (Setup.sample MirrorUrl.useCase 1 false).mirror.init emptyDirectoryTrace).persisted.map
        (·.state)).head? = some .completed := by decide
  have hl : (((Setup.sample MirrorUrl.useCase 1 false).leech.machine.drive
      (Setup.sample MirrorUrl.useCase 1 false).leech.init emptyDirectoryTrace).persisted.map
        (·.state)).head? = some .failed := by decide
  rw [h, hl] at hm
  cases hm

set_option maxRecDepth 4000 in
/-- A cancelled mirror and a cancelled leech. -/
theorem mirror_leech_agree_cancelled :
    Agree (.sample MirrorUrl.useCase 1 true)
      ((Setup.sample MirrorUrl.useCase 1 true).mirror.machine.drive
        (Setup.sample MirrorUrl.useCase 1 true).mirror.init cancelledTrace)
      ((Setup.sample MirrorUrl.useCase 1 true).leech.machine.drive
        (Setup.sample MirrorUrl.useCase 1 true).leech.init cancelledTrace) :=
  (mirror_leech_agree _ _).1 (by decide)

end Run

end Cmlb
