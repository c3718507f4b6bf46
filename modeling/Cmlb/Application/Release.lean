import Cmlb.Application.Coverage

/-!
# Who releases the download

`downloader.remove` is called on three paths: cancelled, upload failed in the pipeline, completed.
The other ways out behind `add_uri`, a failed or vanished download and a failed fallback, return
without it (`unreleased`). A returning run has released its gid exactly when it took none of them.
-/

namespace Cmlb

/-- The gid a call removes. -/
def Call.removed? : Call → Option Gid
  | .remove g _ => some g
  | _ => none

/-- The gid a call has got from `add_uri`. -/
def Call.added? : Call → Option Gid
  | .addUri (.ok g) => some g
  | _ => none

namespace Run

variable {S : Setup} {r r' : Run} {e : Event} {t : List Event}

/-- The gids handed to `downloader.remove`, newest first. -/
def removals (r : Run) : List Gid := r.calls.filterMap Call.removed?

/-- The gids `add_uri` has returned. -/
def gids (r : Run) : List Gid := r.calls.filterMap Call.added?

/-- The step leaves `execute` on a failure path without a `remove`: the downloader answers with an
error or reports `Error` or `Removed`, or the fallback has no file, fails or is rejected. -/
def unreleased (S : Setup) (r : Run) (e : Event) : Bool :=
  match r.pc, e with
  | .polling, .status (.error _) => true
  | .polling, .status (.ok st) => st.state == .error || st.state == .removed
  | .editing .uploading, .edited _ => r.finalStatus.files.isEmpty
  | .uploadingDirectory _, .directory (.error _) => true
  | .uploadingDirectory _, .directory (.ok xs) => (S.useCase.rejectDirectory xs).isSome
  | .uploadingFile _, .file (.error _) => true
  | _, _ => false

/-- What is known of the gid at the program point `pc`, as long as no step was `unreleased`. -/
def Rel (pc : Pc) (r : Run) : Prop :=
  match pc with
  | .start | .gettingSettings | .sendingStatus | .creating | .created
  | .saving .startDownload | .saved .startDownload | .addingUri => r.gids = [] ∧ r.removals = []
  | .removing _ | .saving .markCancelled | .saved .markCancelled | .editing .cancelled
  | .leaving .cancelled | .returned .cancelled | .editing .completed | .leaving .completed
  | .returned .completed => r.gid ∈ r.removals
  | .saving (.markFailed _ _) | .saved (.markFailed _ _) | .editing (.failed _ _)
  | .leaving (.failed _ _) | .returned (.failed _ _) => r.gid ∈ r.removals ∨ r.gids = []
  | .returned .emptyUrl | .returned (.rejected _) => r.gids = []
  | .draining (.failTask _ _) => False
  | .leaving .emptyUrl | .leaving (.rejected _) | .unwinding | .threw => True
  | _ => r.removals = []

structure Releasing (S : Setup) (r : Run) : Prop where
  inv : r.Inv S
  gid : ∀ g ∈ r.gids, g = r.gid
  rel : r.Rel r.pc

theorem Rel.congr {pc : Pc} (h : r.Rel pc) (hr : r'.removals = r.removals) (hg : r'.gids = r.gids)
    (hgid : r'.gid = r.gid) : r'.Rel pc := by
  unfold Rel at h ⊢
  rw [hr, hg, hgid]
  exact h

theorem Inv.not_state (h : r.Inv S) {err : AppError} : r.pc ≠ .saving (.markFailed .state err) :=
  fun hpc => (h.pc hpc : r.Failed .state err).stage rfl

/-- The tail has not released anything yet when it saves the completed task. -/
theorem rel_complete (hi : r.complete.Inv S) (h : r.removals = []) : r.complete.Rel r.complete.pc := by
  rcases complete_pc r with hpc | ⟨err, hpc⟩
  · rw [hpc]
    show r.complete.calls.filterMap Call.removed? = []
    rw [complete_calls]
    exact h
  · exact absurd hpc hi.not_state

theorem rel_onStatus (hpc : r.pc = .polling) (h : r.removals = []) {x : Result DownloadStatus}
    (hl : unreleased S r (.status x) = false) : (r.onStatus S x).Rel (r.onStatus S x).pc := by
  unfold unreleased at hl
  rw [hpc] at hl
  cases x with
  | error err => cases hl
  | ok st =>
    simp only [Bool.or_eq_false_iff, beq_eq_false_iff_ne] at hl
    unfold onStatus
    simp only [hl.1, hl.2, if_false]
    split <;> exact h

theorem rel_afterLoop (hi : r.afterLoop.Inv S) (h : r.removals = []) :
    r.afterLoop.Rel r.afterLoop.pc := by
  unfold afterLoop at hi ⊢
  split
  · rename_i hc
    rw [if_pos hc] at hi
    exact rel_complete hi h
  · rename_i hc
    rw [if_neg hc] at hi
    split
    · rename_i err herr
      rw [herr] at hi
      exact absurd rfl hi.not_state
    · exact h

theorem rel_fallback (hpc : r.pc = .editing .uploading) (h : r.removals = []) {x : Result Unit}
    (hl : unreleased S r (.edited x) = false) : r.fallback.Rel r.fallback.pc := by
  unfold unreleased at hl
  rw [hpc] at hl
  unfold fallback
  split
  · rename_i hfiles
    rw [hfiles] at hl
    cases hl
  · exact h
  · exact h

theorem rel_onDirectory {path : Path} (hpc : r.pc = .uploadingDirectory path) (h : r.removals = [])
    {x : Result (List UploadResult)} (hi : (r.onDirectory S path x).Inv S)
    (hl : unreleased S r (.directory x) = false) :
    (r.onDirectory S path x).Rel (r.onDirectory S path x).pc := by
  unfold unreleased at hl
  rw [hpc] at hl
  cases x with
  | error err => cases hl
  | ok xs =>
    simp only [Option.isSome_eq_false_iff, Option.isNone_iff_eq_none] at hl
    unfold onDirectory at hi ⊢
    simp only [hl] at hi ⊢
    exact rel_complete hi h

theorem rel_onFile {file : Path} (hpc : r.pc = .uploadingFile file) (h : r.removals = [])
    {x : Result UploadResult} (hi : (r.onFile file x).Inv S) (hl : unreleased S r (.file x) = false) :
    (r.onFile file x).Rel (r.onFile file x).pc := by
  unfold unreleased at hl
  rw [hpc] at hl
  cases x with
  | error err => cases hl
  | ok y => exact rel_complete hi h

theorem rel_step (h : r.Releasing S) (hs : Step S r e r') (hl : unreleased S r e = false) :
    r'.Rel r'.pc := by
  have at_pc : ∀ {pc}, r.pc = pc → r.Rel pc := fun hpc => hpc ▸ h.rel
  have hi' := h.inv.step hs
  cases hs with
  | clock now => exact h.rel.congr rfl rfl rfl
  | uploadStarted hu hp => exact h.rel.congr rfl rfl rfl
  | uploadOk hu hp => exact h.rel.congr rfl rfl rfl
  | uploadError hp => exact h.rel.congr rfl rfl rfl
  | uploadThrew hp => exact h.rel.congr rfl rfl rfl
  | emptyUrl hpc => exact (at_pc hpc).1
  | start hpc => exact at_pc hpc
  | settings hpc x =>
    have hk := at_pc hpc
    cases x with
    | error err => exact hk.1
    | ok s => exact hk
  | sent hpc x =>
    have hk := at_pc hpc
    cases x with
    | error err => exact hk.1
    | ok m => exact hk
  | created hpc x =>
    have hk := at_pc hpc
    cases x with
    | error err => exact hk.1
    | ok u => exact hk
  | startDownload hpc =>
    have hk := at_pc hpc
    unfold Run.startDownload
    split
    · exact .inr hk.1
    · exact hk
  | @commit k hpc x =>
    have hk := at_pc hpc
    cases k <;> exact hk
  | @afterSave k hpc =>
    have hk := at_pc hpc
    cases k with
    | markCompleted => exact List.mem_cons_self
    | _ => exact hk
  | gid hpc x =>
    have hk := at_pc hpc
    cases x with
    | error err => exact .inr hk.1
    | ok g => exact hk.2
  | head hpc c reg =>
    have hk := at_pc hpc
    unfold Run.onHead
    split
    · exact hk
    · split <;> exact hk
  | status hpc x => exact rel_onStatus hpc (at_pc hpc) hl
  | @spawnNext files hpc =>
    have hk := at_pc hpc
    unfold Run.spawnNext
    split
    · exact hk
    · split <;> exact hk
  | checkQueued hpc =>
    have hk := at_pc hpc
    unfold Run.checkQueued
    split
    · exact hk
    split
    · exact hk
    · split <;> exact hk
  | spawnUpload hpc => exact at_pc hpc
  | rendered hpc => exact at_pc hpc
  | check hpc =>
    have hk := at_pc hpc
    unfold Run.check
    split
    · exact hk
    · split <;> exact hk
  | waited hpc => exact at_pc hpc
  | @drain k hpc =>
    have hk := at_pc hpc
    unfold Run.drain
    split
    · cases k with
      | failTask stage err => exact hk.elim
      | _ => exact List.mem_cons_self
    · rw [hpc]; exact hk
  | @removed k hpc x =>
    have hk := at_pc hpc
    cases k with
    | failUpload err => exact .inl hk
    | _ => exact hk
  | afterLoop hpc => exact rel_afterLoop hi' (at_pc hpc)
  | @edited k hpc x =>
    have hk := at_pc hpc
    cases k with
    | uploading => exact rel_fallback hpc hk hl
    | _ => exact hk
  | directory hpc x => exact rel_onDirectory hpc (at_pc hpc) hi' hl
  | file hpc x => exact rel_onFile hpc (at_pc hpc) hi' hl
  | @left exit hpc =>
    have hk := at_pc hpc
    cases exit with
    | emptyUrl => exact (h.inv.pc hpc : False).elim
    | rejected err => exact (h.inv.pc hpc : False).elim
    | _ => exact hk
  | unwound hpc => trivial
  | threw hpc => unfold Run.unwind; dsimp only; split <;> trivial

theorem gids_frame (hs : Step S r e r') (hne : r.pc ≠ .addingUri) : r'.gids = r.gids := by
  unfold gids
  rcases hs.calls with hc | ⟨c, hc, hl⟩
  · rw [hc]
  · rw [hc]
    cases hl with
    | addUri hpc x => exact absurd hpc hne
    | _ => rfl

theorem gid_step (h : r.Releasing S) (hs : Step S r e r') : ∀ g ∈ r'.gids, g = r'.gid := by
  by_cases hpc : r.pc = .addingUri
  · have hnone : r.gids = [] := (hpc ▸ h.rel : r.Rel .addingUri).1
    have hnone' : ∀ g ∈ r.gids, False := by rw [hnone]; intro g hg; cases hg
    cases hs with
    | gid _ x =>
      cases x with
      | error err => exact fun g hg => (hnone' g hg).elim
      | ok g =>
        intro g' hg'
        rcases List.mem_cons.1 hg' with rfl | hg'
        · rfl
        · exact (hnone' g' hg').elim
    | clock now => exact fun g hg => (hnone' g hg).elim
    | uploadStarted hu hp => exact fun g hg => (hnone' g hg).elim
    | uploadOk hu hp => exact fun g hg => (hnone' g hg).elim
    | uploadError hp => exact fun g hg => (hnone' g hg).elim
    | uploadThrew hp => exact fun g hg => (hnone' g hg).elim
    | threw _ => exact fun g hg => (hnone' g hg).elim
    | _ hpc' => rw [hpc] at hpc'; cases hpc'
  · rw [gids_frame hs hpc, hs.gid_eq hpc]
    exact h.gid

theorem releasing_of_steps (h : S.machine.Steps (fun r e => unreleased S r e = false) S.init t r) :
    r.Releasing S := by
  refine h.invariant ⟨inv_init S, nofun, rfl, rfl⟩ ?_
  intro r e r' hl hr hs
  have hs := step_inv hs
  exact ⟨hr.inv.step hs, gid_step hr hs, rel_step hr hs hl⟩

/-! ### Runs that keep the gid -/

/-- The program points behind an `unreleased` step. -/
def failing : Pc → Bool
  | .draining (.failTask _ _) | .saving (.markFailed _ _) | .saved (.markFailed _ _)
  | .editing (.failed _ _) | .leaving (.failed _ _) | .returned (.failed _ _) | .unwinding
  | .threw => true
  | _ => false

/-- The run is failing and has not released its gid. -/
structure Kept (r : Run) : Prop where
  failing : failing r.pc = true
  removals : r.removals = []

theorem Flow.failing {pc pc' : Pc} (hf : Flow pc e pc') (h : failing pc = true) :
    Run.failing pc' = true := by
  cases hf with
  | commit k x => cases k <;> first | rfl | cases h
  | drainWait k => exact h
  | left exit => cases exit <;> first | rfl | cases h
  | _ => first | rfl | cases h

theorem failing_pc (h : failing r.pc = true) (hs : Step S r e r') : failing r'.pc = true := by
  rcases hs.flow with heq | hf
  · rw [heq]
    exact h
  · exact hf.failing h

/-- From here on the run fails, and `remove` is not called any more. -/
theorem failing_step (h : failing r.pc = true) (hs : Step S r e r') :
    failing r'.pc = true ∧ r'.removals = r.removals := by
  have hf := failing_pc h hs
  refine ⟨hf, ?_⟩
  cases hs.effect with
  | remove deleteFiles _ => cases hf
  | _ => rfl

theorem Kept.step (h : r.Kept) (hs : Step S r e r') : r'.Kept := by
  obtain ⟨hf, hr⟩ := failing_step h.failing hs
  exact ⟨hf, hr.trans h.removals⟩

theorem kept_of_unreleased (h : r.Releasing S) (hs : S.machine.step r e = some r')
    (hl : unreleased S r e = true) : r'.Kept := by
  have at_pc : ∀ {pc}, r.pc = pc → r.Rel pc := fun hpc => hpc ▸ h.rel
  change Run.step S r e = some r' at hs
  unfold unreleased at hl
  split at hl
  all_goals try rename_i hpc
  all_goals try simp only [Run.step, hpc, Option.some.injEq] at hs
  · subst hs; exact ⟨rfl, at_pc hpc⟩
  · subst hs
    rename_i st _
    have hk : r.removals = [] := at_pc hpc
    simp only [Bool.or_eq_true, beq_iff_eq] at hl
    unfold onStatus
    dsimp only
    split
    · exact ⟨rfl, hk⟩
    · rename_i hne
      rw [if_pos (hl.resolve_left hne)]
      exact ⟨rfl, hk⟩
  · subst hs
    have hfiles : r.finalStatus.files = [] := List.isEmpty_iff.1 hl
    unfold afterEdit fallback
    simp only [hfiles]
    exact ⟨rfl, at_pc hpc⟩
  · subst hs; exact ⟨rfl, at_pc hpc⟩
  · subst hs
    obtain ⟨err, herr⟩ := Option.isSome_iff_exists.1 hl
    unfold onDirectory
    simp only [herr]
    exact ⟨rfl, at_pc hpc⟩
  · subst hs; exact ⟨rfl, at_pc hpc⟩
  · cases hl

/-- A run that got a gid and returns has called `downloader.remove` on it exactly when none of its
steps was `unreleased`. -/
theorem gid_released_iff (S : Setup) {t : List Event} {r : Run} {exit : Exit} {g : Gid}
    (h : S.machine.Runs S.init t r) (hpc : r.pc = .returned exit) (hg : .addUri (.ok g) ∈ r.calls) :
    (∃ deleteFiles, .remove g deleteFiles ∈ r.calls) ↔
      S.machine.Steps (fun r e => unreleased S r e = false) S.init t r := by
  constructor
  · rintro ⟨b, hb⟩
    rcases h.guarded_or_break (fun r e => unreleased S r e = false) with hg | hbreak
    · exact hg
    · obtain ⟨t₁, e, t₂, r₁, r₂, _, h₁, hl, hs, h₂⟩ := hbreak
      rw [Bool.not_eq_false] at hl
      have hkept : r.Kept := h₂.invariant (kept_of_unreleased (releasing_of_steps h₁) hs hl)
        fun _ _ _ _ hk hs => hk.step (step_inv hs)
      have hmem : g ∈ r.removals := List.mem_filterMap.2 ⟨_, hb, rfl⟩
      rw [hkept.removals] at hmem
      cases hmem
  · intro hsteps
    have hr := releasing_of_steps hsteps
    have hmem : g ∈ r.gids := List.mem_filterMap.2 ⟨_, hg, rfl⟩
    have hne : r.gids ≠ [] := List.ne_nil_of_mem hmem
    have hk := hr.rel
    rw [hpc] at hk
    have hrem : r.gid ∈ r.removals := by
      cases exit with
      | emptyUrl => exact absurd hk hne
      | rejected err => exact absurd hk hne
      | failed stage err => exact hk.resolve_right hne
      | cancelled => exact hk
      | completed => exact hk
    rw [← hr.gid g hmem] at hrem
    obtain ⟨c, hc, hcg⟩ := List.mem_filterMap.1 hrem
    cases c with
    | remove g' b => cases hcg; exact ⟨b, hc⟩
    | _ => cases hcg

/-- The first poll of the download fails. -/
def keptTrace : List Event :=
  Event.toLoop ++ [.head false false, .status (.error ⟨.network, "connection refused"⟩), .tick,
    .commit (.ok ()), .run, .edited (.ok ()), .run]

set_option maxRecDepth 4000 in
theorem gid_kept_by_failed_poll : ¬ ∀ (S : Setup) (t : List Event) (r : Run) (exit : Exit) (g : Gid),
    S.machine.Runs S.init t r → r.pc = .returned exit → .addUri (.ok g) ∈ r.calls →
      ∃ deleteFiles, .remove g deleteFiles ∈ r.calls := by
  intro hall
  have hobs : ((Setup.sample MirrorUrl.useCase 1 true).machine.run
      (Setup.sample MirrorUrl.useCase 1 true).init keptTrace).map
        (fun r => (r.pc, decide (.addUri (.ok ⟨"g"⟩) ∈ r.calls), r.removals)) =
      some (.returned (.failed .download ⟨.network, "connection refused"⟩), true, []) := by decide
  obtain ⟨r, hr, ho⟩ := Machine.exists_runs hobs
  simp only [Prod.mk.injEq, decide_eq_true_eq] at ho
  obtain ⟨hpc, hg, hrem⟩ := ho
  obtain ⟨b, hb⟩ := hall _ _ r _ _ hr hpc hg
  have : (⟨"g"⟩ : Gid) ∈ r.removals := List.mem_filterMap.2 ⟨_, hb, rfl⟩
  rw [hrem] at this
  cases this

set_option maxRecDepth 4000 in
/-- The fallback uploads a directory, and the tail removes the gid. -/
theorem gid_released_by_completion :
    ∃ r, (Setup.sample MirrorUrl.useCase 1 false).machine.Runs
      (Setup.sample MirrorUrl.useCase 1 false).init
      (Event.toLoop ++ [.head false false,
        .status (.ok { state := .seeding, files := ["a", "b"], savePath := some "d" }),
        .rendered, .run, .run, .commit (.ok ()), .run, .edited (.ok ()),
        .directory (.ok [⟨"x", "", 0, 0⟩])] ++ Event.toReturn) r ∧
      r.pc = .returned .completed ∧ ∃ deleteFiles, .remove ⟨"g"⟩ deleteFiles ∈ r.calls := by
  have hobs : ((Setup.sample MirrorUrl.useCase 1 false).machine.runIf
      (fun r e => !unreleased (Setup.sample MirrorUrl.useCase 1 false) r e)
      (Setup.sample MirrorUrl.useCase 1 false).init
      (Event.toLoop ++ [.head false false,
        .status (.ok { state := .seeding, files := ["a", "b"], savePath := some "d" }),
        .rendered, .run, .run, .commit (.ok ()), .run, .edited (.ok ()),
        .directory (.ok [⟨"x", "", 0, 0⟩])] ++ Event.toReturn)).map
      (fun r => (r.pc, decide (.addUri (.ok ⟨"g"⟩) ∈ r.calls))) =
      some (.returned .completed, true) := by decide
  obtain ⟨r, hr, ho⟩ := Machine.exists_steps hobs
  simp only [Prod.mk.injEq, decide_eq_true_eq] at ho
  refine ⟨r, hr.runs, ho.1, (gid_released_iff _ hr.runs ho.1 ho.2).2 ?_⟩
  exact hr.mono fun _ _ h => by simpa using h

end Run

end Cmlb
