import Cmlb.Application.RunInv

/-!
# The returned result agrees with the last persisted row

`Run.persisted` lists the tasks the run has saved successfully, newest first. When no save fails,
the row a returning run leaves behind is terminal and tells the same story as the result it returns.
-/

namespace Cmlb

/-- The task a call has written to the repository. -/
def Call.persisted? : Call → Option Task
  | .save t (.ok _) => some t
  | _ => none

namespace Run

variable {S : Setup} {r r' : Run} {e : Event}

/-- The tasks the run has persisted, newest first. -/
def persisted (r : Run) : List Task := r.calls.filterMap Call.persisted?

/-- The event is not a failing save. -/
def saveOk (_ : Run) : Event → Bool
  | .commit (.error _) => false
  | _ => true

/-- What is known of the persisted row at the program point `pc`. -/
def Row (pc : Pc) (r : Run) : Prop :=
  match pc with
  | .start | .gettingSettings | .sendingStatus | .creating
  | .returned .emptyUrl | .returned (.rejected _) => r.persisted = []
  | .saved _ | .removing .completed | .editing (.failed _ _) | .editing .cancelled
  | .editing .completed | .leaving _ | .returned (.failed _ _) | .returned .cancelled
  | .returned .completed => r.persisted.head? = some r.task
  | _ => True

theorem Row.congr {pc : Pc} (h : r.Row pc) (hp : r'.persisted = r.persisted) (ht : r'.task = r.task) :
    r'.Row pc := by
  unfold Row at h ⊢
  rw [hp, ht]
  exact h

theorem row_complete (r : Run) : r.complete.Row r.complete.pc := by
  unfold complete finish failTask
  dsimp only
  split <;> split <;> trivial

theorem row_onStatus (r : Run) (x : Result DownloadStatus) :
    (r.onStatus S x).Row (r.onStatus S x).pc := by
  rcases onStatus_cases S x r with ⟨st, err, h⟩ | ⟨st, -, -, -, h⟩
  · rw [h]
    trivial
  · rw [h]
    dsimp only
    split <;> trivial

theorem row_drain {k : AfterDrain} (hpc : r.pc = .draining k) : (r.drain k).Row (r.drain k).pc := by
  unfold drain
  split
  · cases k <;> trivial
  · rw [hpc]; trivial

theorem row_afterLoop (r : Run) : r.afterLoop.Row r.afterLoop.pc := by
  unfold afterLoop failTask
  split
  · exact row_complete r
  · split <;> trivial

theorem row_fallback (r : Run) : r.fallback.Row r.fallback.pc := by
  unfold fallback failTask
  split <;> trivial

theorem row_onDirectory (r : Run) (path : Path) (x : Result (List UploadResult)) :
    (r.onDirectory S path x).Row (r.onDirectory S path x).pc := by
  unfold onDirectory
  split
  · trivial
  dsimp only
  split
  · trivial
  · exact row_complete _

theorem row_step (hi : r.Inv S) (h : r.Row r.pc) (hs : Step S r e r') (hok : saveOk r e = true) :
    r'.Row r'.pc := by
  have at_pc : ∀ {pc}, r.pc = pc → r.Row pc := fun hpc => hpc ▸ h
  cases hs with
  | clock now => exact h.congr rfl rfl
  | uploadStarted hu hp => exact h.congr rfl rfl
  | uploadOk hu hp => exact h.congr rfl rfl
  | uploadError hp => exact h.congr rfl rfl
  | uploadThrew hp => exact h.congr rfl rfl
  | emptyUrl hpc => exact (at_pc hpc : r.persisted = [])
  | start hpc => exact (at_pc hpc : r.persisted = [])
  | settings hpc x => cases x <;> exact (at_pc hpc : r.persisted = [])
  | sent hpc x => cases x <;> exact (at_pc hpc : r.persisted = [])
  | created hpc x =>
    cases x with
    | error err => cases hok
    | ok u => trivial
  | startDownload hpc => unfold startDownload; split <;> trivial
  | commit hpc x =>
    cases x with
    | error err => cases hok
    | ok u => rfl
  | @afterSave k hpc =>
    have hrow : r.persisted.head? = some r.task := at_pc hpc
    cases k with
    | startDownload => trivial
    | attachDownloader => trivial
    | beginUpload file rest => trivial
    | beginUploadFallback => trivial
    | _ => exact hrow
  | gid hpc x => cases x <;> trivial
  | head hpc c reg => unfold onHead; split; trivial; split <;> trivial
  | status hpc x => exact row_onStatus r x
  | spawnNext hpc => unfold spawnNext; split; trivial; split <;> trivial
  | checkQueued hpc => unfold checkQueued; split; trivial; split; trivial; split <;> trivial
  | spawnUpload hpc => trivial
  | rendered hpc => trivial
  | check hpc => unfold check; split; trivial; split <;> trivial
  | waited hpc => trivial
  | drain hpc => exact row_drain hpc
  | @removed k hpc x =>
    cases k with
    | completed => exact (at_pc hpc : r.persisted.head? = some r.task)
    | _ => trivial
  | afterLoop hpc => exact row_afterLoop r
  | @edited k hpc x =>
    cases k with
    | uploading => exact row_fallback r
    | _ => exact (at_pc hpc : r.persisted.head? = some r.task)
  | directory hpc x => exact row_onDirectory r _ x
  | file hpc x =>
    cases x with
    | error err => trivial
    | ok y => exact row_complete _
  | @left exit hpc =>
    have hrow : r.persisted.head? = some r.task := at_pc hpc
    cases exit with
    | emptyUrl => exact (hi.pc hpc : False).elim
    | rejected err => exact (hi.pc hpc : False).elim
    | _ => exact hrow
  | unwound hpc => trivial
  | threw hpc => unfold unwind; dsimp only; split <;> trivial

theorem row_of_steps {t : List Event} (h : S.machine.Steps (fun r e => saveOk r e = true) S.init t r) :
    r.Inv S ∧ r.Row r.pc := by
  refine h.invariant (I := fun r => r.Inv S ∧ r.Row r.pc) ⟨inv_init S, rfl⟩ ?_
  rintro r e r' hok ⟨hi, hr⟩ hs
  exact ⟨hi.step (step_inv hs), row_step hi hr (step_inv hs) hok⟩

/-- When no save fails, no transition at a `fail_task("state", ...)` site is rejected, and a run that
returns after its first save leaves a terminal row: `Completed` exactly when it returns a task id,
`Cancelled` exactly when it returns through the cancel branch, and otherwise `Failed` with the
message of the returned error. -/
theorem outcome_agrees (S : Setup) {t : List Event} {r : Run}
    (h : S.machine.Steps (fun r e => saveOk r e = true) S.init t r) :
    (∀ err, r.pc ≠ .saving (.markFailed .state err)) ∧
    ∀ exit, r.pc = .returned exit → r.persisted ≠ [] →
      ∃ task, r.persisted.head? = some task ∧ task.isTerminal = true ∧
        ((∃ id, exit.result S = .ok id) ↔ task.state = .completed) ∧
        (exit = .cancelled ↔ task.state = .cancelled) ∧
        ∀ err, exit.result S = .error err → exit ≠ .cancelled →
          task.state = .failed ∧ task.errorMessage = some err.message := by
  obtain ⟨hi, hr⟩ := row_of_steps h
  refine ⟨fun err hpc => (hi.pc hpc : r.Failed .state err).stage rfl, fun exit hpc hsaved => ?_⟩
  rw [hpc] at hr
  have ha := hi.pc hpc
  cases exit with
  | emptyUrl => exact absurd hr hsaved
  | rejected err => exact absurd hr hsaved
  | failed stage err =>
    have hf : r.Failed stage err := ha
    refine ⟨r.task, hr, ?_⟩
    simp [Task.isTerminal, hf.state, TaskState.isTerminal, Exit.result, hf.message]
  | cancelled =>
    have hs : r.task.state = .cancelled := ha.2
    refine ⟨r.task, hr, ?_⟩
    simp [Task.isTerminal, hs, TaskState.isTerminal, Exit.result]
  | completed =>
    have hs : r.task.state = .completed := ha.2
    refine ⟨r.task, hr, ?_⟩
    simp [Task.isTerminal, hs, TaskState.isTerminal, Exit.result]

/-- A cancel request is seen before the first poll. -/
def cancelledTrace : List Event :=
  Event.toLoop ++ [.head false true, .tick, .removed (.ok ()), .commit (.ok ()), .run, .edited (.ok ()),
    .run]

set_option maxRecDepth 4000 in
theorem outcome_agrees_cancelled :
    ∃ r, (Setup.sample MirrorUrl.useCase 3 true).machine.Runs (Setup.sample MirrorUrl.useCase 3 true).init
      cancelledTrace r ∧
      ∃ task, r.persisted.head? = some task ∧ task.isTerminal = true ∧ task.state = .cancelled := by
  have hobs : ((Setup.sample MirrorUrl.useCase 3 true).machine.runIf saveOk
      (Setup.sample MirrorUrl.useCase 3 true).init cancelledTrace).map
        (fun r => (r.pc, r.persisted.length)) = some (.returned .cancelled, 4) := by decide
  obtain ⟨r, hr, ho⟩ := Machine.exists_steps hobs
  simp only [Prod.mk.injEq] at ho
  have hne : r.persisted ≠ [] := by
    intro h0
    rw [h0] at ho
    cases ho.2
  obtain ⟨task, h1, h2, _, h3, _⟩ := (outcome_agrees _ hr).2 _ ho.1 hne
  exact ⟨r, hr.runs, task, h1, h2, h3.1 rfl⟩

end Run

end Cmlb
