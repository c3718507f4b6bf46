import Cmlb.Application.History

/-!
# The slots of the upload pool

The counters of `PipelineState` agree with what was spawned in every reachable state, whatever the
upload coroutines do. They agree with what has *ended* only as long as no upload coroutine is ended
by an exception: the decrement of `in_flight` sits behind the `co_await`, so an `upload_file` that
throws keeps its slot, and since every return waits for `in_flight = 0`, the run never returns.
-/

namespace Cmlb

/-- The program points of the fallback, from its `begin_upload` row on. -/
def Pc.inFallback : Pc → Bool
  | .saving .beginUploadFallback | .saved .beginUploadFallback | .editing .uploading
  | .uploadingDirectory _ | .uploadingFile _ => true
  | _ => false

/-- An exception has ended the coroutine. -/
def UploadStage.isThrew : UploadStage → Bool
  | threw => true
  | _ => false

def Event.throwsUpload : Event → Bool
  | .uploadThrew _ => true
  | _ => false

namespace Run

variable {S : Setup} {r r' : Run} {e : Event} {t : List Event}

/-- The run is in the fallback, or its next step enters it. -/
def InFallback (r : Run) : Prop :=
  r.pc.inFallback = true ∨ (r.pc = .afterLoop ∧ ¬ r.pipe.completed > 0)

/-! ### Counters against spawns -/

theorem count_calls (r : Run) (f : Path) :
    r.calls.count (.uploadFile f) = r.invocations.count (.uploadFile f) :=
  (List.count_filter rfl).symm

theorem History.count_uploadFile_le (hi : r.Inv S) (h : r.History) (f : Path) :
    r.calls.count (.uploadFile f) ≤ 1 := by
  rw [count_calls]
  rcases h.calls with hp | hb
  · have h1 := hp.file f
    have h2 : (r.pipe.uploads.countP fun u => u.file == f && u.stage.invoked) ≤
        r.pipe.uploads.countP fun u => u.file == f := by
      refine List.countP_mono_left fun u _ hu => ?_
      simp only [Bool.and_eq_true] at hu
      exact hu.1
    have h3 : (r.pipe.uploads.countP fun u => u.file == f) = (r.pipe.uploads.map (·.file)).count f := by
      rw [List.count, List.countP_map]
      rfl
    have h4 := List.nodup_iff_count_le_one.1 hi.pipe.nodup f
    omega
  · obtain ⟨c, hc, _⟩ := hb.call
    rw [hc]
    exact List.count_le_length

theorem Inv.inFlight_of_returned (h : r.Inv S) {exit : Exit} (hpc : r.pc = .returned exit) :
    r.pipe.inFlight = 0 := by
  have ha := h.pc hpc
  cases exit with
  | emptyUrl => exact Idle.inFlight ha
  | rejected err => exact Idle.inFlight ha
  | failed stage err => exact Failed.drained ha
  | cancelled => exact ha.1
  | completed => exact ha.1

theorem Inv.pipe_of_inFallback (h : r.Inv S) (hf : r.InFallback) : r.pipe.queued = ∅ := by
  rcases hf with hf | ⟨hpc, hc⟩
  · have ha := h.ann
    have hidle : r.Idle := by
      cases hpc : r.pc with
      | saving k => rw [hpc] at hf ha; cases k <;> first | exact ha.1 | cases hf
      | saved k => rw [hpc] at hf ha; cases k <;> first | exact ha.1 | cases hf
      | editing k => rw [hpc] at hf ha; cases k <;> first | exact ha.1 | cases hf
      | uploadingDirectory d => rw [hpc] at ha; exact ha.1
      | uploadingFile f => rw [hpc] at ha; exact ha.1
      | _ => rw [hpc] at hf; cases hf
    rw [hidle.pipe]
  · -- nothing is in flight, nothing failed and nothing completed: nothing was spawned
    obtain ⟨_, hd, hfail⟩ : r.InLoop ∧ r.pipe.inFlight = 0 ∧ r.pipe.failed = 0 := h.pc hpc
    have hq := h.pipe.card_queued
    have hcard : r.pipe.queued.card = 0 := by omega
    exact Finset.card_eq_zero.1 hcard

theorem History.directory_alone (h : r.History) {d : Path} (hd : .uploadDirectory d ∈ r.calls) :
    r.pipe.queued = ∅ ∧ ∀ f, .uploadFile f ∉ r.calls := by
  have hmem : ∀ {c}, c ∈ r.calls → c.isInvocation = true → c ∈ r.invocations := fun h1 h2 =>
    List.mem_filter.2 ⟨h1, h2⟩
  rcases h.calls with hp | hb
  · exact absurd (hmem hd rfl) (hp.directory d)
  · refine ⟨by rw [hb.pipe], fun f hf => ?_⟩
    obtain ⟨c, hc, _⟩ := hb.call
    have h1 := hmem hd rfl
    have h2 := hmem hf rfl
    rw [hc, List.mem_singleton] at h1 h2
    cases h1.trans h2.symm

/-- In every reachable state every spawned path is in flight, completed or failed, the pool is never
exceeded and `upload_file` is called at most once for a path; a run returns with nothing in flight;
and the fallback is entered with nothing spawned, so that it never repeats an upload. -/
theorem pipeline_accounting (S : Setup) {t : List Event} {r : Run} (h : S.machine.Runs S.init t r) :
    (r.pipe.queued.card : Int) = r.pipe.inFlight + r.pipe.completed + r.pipe.failed ∧
    (0 ≤ r.pipe.inFlight ∧ r.pipe.inFlight ≤ S.uploadPoolSize) ∧
    (∀ f, r.calls.count (.uploadFile f) ≤ 1) ∧
    (∀ exit, r.pc = .returned exit → r.pipe.inFlight = 0) ∧
    (r.InFallback → r.pipe.queued = ∅) ∧
    ∀ d, .uploadDirectory d ∈ r.calls → r.pipe.queued = ∅ ∧ ∀ f, .uploadFile f ∉ r.calls := by
  obtain ⟨hi, hh⟩ := history_of_steps h
  exact ⟨hi.pipe.card_queued, ⟨hi.pipe.inFlight_nonneg, hi.pipe.inFlight_le⟩,
    hh.count_uploadFile_le hi, fun _ => hi.inFlight_of_returned, hi.pipe_of_inFallback,
    fun _ => hh.directory_alone⟩

set_option maxRecDepth 4000 in
/-- Two files, two slots: both uploads are running when the run checks for termination. -/
theorem pipeline_accounting_two_files :
    ∃ r, (Setup.sample LeechUrl.useCase 2 true).machine.Runs (Setup.sample LeechUrl.useCase 2 true).init
      (Event.toLoop ++ [.head false false, .status (.ok { state := .downloading, files := ["a", "b"] }),
        .run, .run, .commit (.ok ()), .run, .run, .run, .run, .run, .run, .uploadStarted 0,
        .uploadStarted 1]) r ∧
      r.pipe.inFlight = 2 ∧ ∀ f, r.calls.count (.uploadFile f) ≤ 1 := by
  have hobs : ((Setup.sample LeechUrl.useCase 2 true).machine.run
      (Setup.sample LeechUrl.useCase 2 true).init
      (Event.toLoop ++ [.head false false, .status (.ok { state := .downloading, files := ["a", "b"] }),
        .run, .run, .commit (.ok ()), .run, .run, .run, .run, .run, .run, .uploadStarted 0,
        .uploadStarted 1])).map (·.pipe.inFlight) = some 2 := by decide
  obtain ⟨r, hr, ho⟩ := Machine.exists_runs hobs
  exact ⟨r, hr, ho, (pipeline_accounting _ hr).2.2.1⟩

/-! ### Counters against ends -/

/-- The counters tell what the upload coroutines have done: `in_flight` counts those that have not
ended, `completed` and `failed` those that have. -/
structure Accounted (p : PipelineState) : Prop where
  inFlight : p.inFlight = p.count fun s => !s.ended
  outcomes : p.completed + p.failed = p.count UploadStage.ended

/-- A step adds one thrown upload exactly when its event is `uploadThrew`. -/
theorem PipeStep.count_threw {pc : Pc} {p p' : PipelineState} (h : PipeStep pc p e p') :
    p'.count UploadStage.isThrew = p.count UploadStage.isThrew + e.throwsUpload.toNat := by
  cases h with
  | same h =>
    cases e with
    | uploadThrew i => exact absurd rfl (h i)
    | _ => rfl
  | spawn hpc =>
    unfold PipelineState.spawnUpload
    split
    · rfl
    · simp [PipelineState.count, UploadStage.isThrew, Event.throwsUpload]
  | started h =>
    obtain ⟨file, hu, rfl⟩ := PipelineState.uploadStarted_eq h
    exact PipelineState.countP_set (v := ⟨file, .running⟩) (fun u => u.stage.isThrew) hu
  | returned h =>
    obtain ⟨file, hu, _, _, hup, _⟩ := PipelineState.uploadReturned_eq h
    unfold PipelineState.count
    rw [hup]
    exact PipelineState.countP_set (v := ⟨file, .returned _⟩) (fun u => u.stage.isThrew) hu
  | threw h =>
    obtain ⟨u, hu, hend, rfl⟩ := PipelineState.uploadThrew_eq h
    have hlive : u.stage.isThrew = false := by
      cases hs : u.stage <;> simp_all [UploadStage.ended, UploadStage.isThrew]
    have hc := PipelineState.countP_set (v := ⟨u.file, .threw⟩) (fun u => u.stage.isThrew) hu
    simp only [hlive, Bool.toNat_false, Nat.add_zero] at hc
    exact hc

/-- A run holds one thrown upload for each `uploadThrew` event. -/
theorem count_threw_of_steps (h : S.machine.Runs S.init t r) :
    r.pipe.count UploadStage.isThrew = t.countP Event.throwsUpload := by
  induction h with
  | nil => rfl
  | @snoc r₁ r₂ t e _ _ hs ih =>
    rw [(Step.pipe (step_inv hs)).count_threw, ih, List.countP_append, List.countP_cons, List.countP_nil]
    cases e.throwsUpload <;> rfl

theorem accounted_iff_count {p : PipelineState} {pool : Int} (h : p.Ok pool) :
    Accounted p ↔ p.count UploadStage.isThrew = 0 := by
  have h1 : (p.count fun s => !s.ended) + p.count UploadStage.isThrew = p.count PipelineState.uncounted :=
    PipelineState.count_add fun s => by rcases s with _ | _ | (_ | _) | _ <;> rfl
  have h2 : p.count UploadStage.succeeded + p.count UploadStage.failed =
      p.count fun s => s.ended && !s.isThrew :=
    PipelineState.count_add fun s => by rcases s with _ | _ | (_ | _) | _ <;> rfl
  have h3 : (p.count fun s => s.ended && !s.isThrew) + p.count UploadStage.isThrew =
      p.count UploadStage.ended :=
    PipelineState.count_add fun s => by rcases s with _ | _ | (_ | _) | _ <;> rfl
  have hin := h.inFlight
  have hc := h.completed
  have hf := h.failed
  constructor
  · intro ha
    have := ha.inFlight
    omega
  · intro h0
    exact ⟨by omega, by omega⟩

/-- A run that has lost a slot to an exception never returns. -/
theorem not_returned_of_threw (h : S.machine.Runs S.init t r) {i : Nat} (ht : .uploadThrew i ∈ t)
    (exit : Exit) : r.pc ≠ .returned exit := by
  intro hpc
  have hi := inv_of_steps h
  have hpos : 0 < r.pipe.count UploadStage.isThrew := by
    rw [count_threw_of_steps h]
    exact List.countP_pos_iff.2 ⟨_, ht, rfl⟩
  obtain ⟨u, hu, hthrew⟩ := List.countP_pos_iff.1 hpos
  obtain ⟨x, hx⟩ := hi.pipe.returned_of_inFlight_eq_zero (hi.inFlight_of_returned hpc) hu
  rw [hx] at hthrew
  cases hthrew

/-- The slots of all ended upload coroutines are released, and each of them is counted as completed
or failed, exactly in the runs in which no upload coroutine was ended by an exception. In the other
runs `execute` waits for ever. -/
theorem slots_released_iff (S : Setup) {t : List Event} {r : Run} (h : S.machine.Runs S.init t r) :
    (Accounted r.pipe ↔ ∀ i, .uploadThrew i ∉ t) ∧
    ((∀ i, .uploadThrew i ∉ t) → r.pipe.inFlight ≠ 0 → ∃ u ∈ r.pipe.uploads, u.stage.ended = false) ∧
    ((∃ i, .uploadThrew i ∈ t) → ∀ exit, r.pc ≠ .returned exit) := by
  have hi := inv_of_steps h
  have hiff : Accounted r.pipe ↔ ∀ i, .uploadThrew i ∉ t := by
    rw [accounted_iff_count hi.pipe, count_threw_of_steps h, List.countP_eq_zero]
    constructor
    · intro h0 i hmem
      exact h0 _ hmem rfl
    · intro h0 e he hthrow
      cases e with
      | uploadThrew i => exact h0 i he
      | _ => cases hthrow
  refine ⟨hiff, fun h0 hne => ?_, fun ⟨i, ht⟩ => not_returned_of_threw h ht⟩
  have hlive : 0 < r.pipe.count fun s => !s.ended := by
    have h1 := (hiff.2 h0).inFlight
    omega
  obtain ⟨u, hu, hend⟩ := List.countP_pos_iff.1 hlive
  exact ⟨u, hu, by simpa using hend⟩

def throwingTrace : List Event :=
  Event.toLoop ++ [.head false false, .status (.ok { state := .complete, files := ["a"] }),
    .run, .run, .commit (.ok ()), .run, .run, .uploadStarted 0, .uploadThrew 0]

set_option maxRecDepth 4000 in
/-- The only upload has ended, and `in_flight` is still 1. -/
theorem slot_kept_by_throw :
    ¬ ∀ (S : Setup) (t : List Event) (r : Run), S.machine.Runs S.init t r → Accounted r.pipe := by
  intro hall
  have hobs : ((Setup.sample MirrorUrl.useCase 1 true).machine.run
      (Setup.sample MirrorUrl.useCase 1 true).init throwingTrace).map
        (fun r => (r.pipe.inFlight, r.pipe.count fun s => !s.ended)) = some (1, 0) := by decide
  obtain ⟨r, hr, ho⟩ := Machine.exists_runs hobs
  have ha := (hall _ _ r hr).inFlight
  rw [Prod.mk.injEq] at ho
  omega

set_option maxRecDepth 4000 in
theorem slots_released_one_file :
    ∃ r, (Setup.sample MirrorUrl.useCase 1 true).machine.Runs (Setup.sample MirrorUrl.useCase 1 true).init
      (Event.toLoop ++ [.head false false, .status (.ok { state := .complete, files := ["a"] }),
        .run, .run, .commit (.ok ()), .run, .run, .uploadStarted 0,
        .uploadReturned 0 (.error ⟨.network, "reset"⟩)]) r ∧ r.pipe.failed = 1 ∧ Accounted r.pipe := by
  have hobs : ((Setup.sample MirrorUrl.useCase 1 true).machine.run
      (Setup.sample MirrorUrl.useCase 1 true).init
      (Event.toLoop ++ [.head false false, .status (.ok { state := .complete, files := ["a"] }),
        .run, .run, .commit (.ok ()), .run, .run, .uploadStarted 0,
        .uploadReturned 0 (.error ⟨.network, "reset"⟩)])).map (·.pipe.failed) = some 1 := by decide
  obtain ⟨r, hr, ho⟩ := Machine.exists_runs hobs
  refine ⟨r, hr, ho, (slots_released_iff _ hr).1.2 ?_⟩
  intro i
  simp [Event.toLoop]

end Run

end Cmlb
