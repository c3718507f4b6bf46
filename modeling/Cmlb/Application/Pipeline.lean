import Mathlib.Data.Finset.Card
import Mathlib.Tactic.Ring
import Cmlb.Application.Ports

/-!
# The upload pipeline

`PipelineState` is the struct of that name in `mirror_url.cpp` and `leech_url.cpp` (less the
`results` vector and the cancellation signals, which nothing here reads), together with the upload
coroutines `co_spawn` has started. Each function below is one lock section: of `spawn_upload`, of
`can_spawn_more`, or of an upload coroutine. An upload coroutine whose `upload_file` throws ends
without entering its lock section (`uploadThrew`): the exception leaves the detached coroutine
before the counters are touched.

`PipelineState.Ok` ties the counters to the coroutines.
-/

namespace Cmlb

inductive UploadStage
  | ready
  | running
  | returned (r : Result UploadResult)
  | threw
deriving DecidableEq, Repr

namespace UploadStage

def ended : UploadStage → Bool
  | returned _ | threw => true
  | ready | running => false

def succeeded : UploadStage → Bool
  | returned (.ok _) => true
  | _ => false

def failed : UploadStage → Bool
  | returned (.error _) => true
  | _ => false

def invoked : UploadStage → Bool
  | ready => false
  | _ => true

end UploadStage

structure Upload where
  file : Path
  stage : UploadStage
deriving DecidableEq, Repr

structure PipelineState where
  queued : Finset Path := ∅
  inFlight : Int := 0
  completed : Int := 0
  failed : Int := 0
  firstError : Option AppError := none
  uploads : List Upload := []
deriving DecidableEq

namespace PipelineState

def canSpawnMore (pool : Int) (p : PipelineState) : Bool := decide (p.inFlight < pool)

/-- `spawn_upload`: the lock section, then `co_spawn`. -/
def spawnUpload (file : Path) (p : PipelineState) : PipelineState :=
  if file ∈ p.queued then p
  else { p with
    queued := insert file p.queued
    inFlight := p.inFlight + 1
    uploads := p.uploads ++ [⟨file, .ready⟩] }

def uploadStarted (i : Nat) (p : PipelineState) : Option PipelineState :=
  match p.uploads[i]? with
  | some ⟨file, .ready⟩ => some { p with uploads := p.uploads.set i ⟨file, .running⟩ }
  | _ => none

/-- `upload_file` returned `r` to the upload coroutine `i`, which runs its lock section and ends. -/
def uploadReturned (i : Nat) (r : Result UploadResult) (p : PipelineState) : Option PipelineState :=
  match p.uploads[i]? with
  | some ⟨file, .running⟩ =>
    let p := { p with inFlight := p.inFlight - 1, uploads := p.uploads.set i ⟨file, .returned r⟩ }
    match r with
    | .error e => some { p with failed := p.failed + 1, firstError := p.firstError.or (some e) }
    | .ok _ => some { p with completed := p.completed + 1 }
  | _ => none

/-- An exception ends the upload coroutine `i`: thrown by `upload_file`, or by the `co_await` itself
when the coroutine was cancelled before it started. -/
def uploadThrew (i : Nat) (p : PipelineState) : Option PipelineState :=
  match p.uploads[i]? with
  | some ⟨file, .ready⟩ | some ⟨file, .running⟩ =>
    some { p with uploads := p.uploads.set i ⟨file, .threw⟩ }
  | _ => none

def count (P : UploadStage → Bool) (p : PipelineState) : Nat := p.uploads.countP fun u => P u.stage

inductive Move : PipelineState → PipelineState → Prop
  | started {p p' : PipelineState} (i : Nat) (h : p.uploadStarted i = some p') : Move p p'
  | returned {p p' : PipelineState} (i : Nat) (r : Result UploadResult)
      (h : p.uploadReturned i r = some p') : Move p p'
  | threw {p p' : PipelineState} (i : Nat) (h : p.uploadThrew i = some p') : Move p p'

variable {p p' : PipelineState} {pool : Int} {i : Nat} {r : Result UploadResult}

theorem uploadStarted_eq (h : p.uploadStarted i = some p') :
    ∃ file, p.uploads[i]? = some ⟨file, .ready⟩ ∧
      p' = { p with uploads := p.uploads.set i ⟨file, .running⟩ } := by
  unfold uploadStarted at h
  split at h
  · exact ⟨_, ‹_›, (Option.some.inj h).symm⟩
  · cases h

theorem uploadReturned_eq (h : p.uploadReturned i r = some p') :
    ∃ file, p.uploads[i]? = some ⟨file, .running⟩ ∧
      p'.queued = p.queued ∧ p'.inFlight = p.inFlight - 1 ∧
      p'.uploads = p.uploads.set i ⟨file, .returned r⟩ ∧
      ((∃ x, r = .ok x ∧ p'.completed = p.completed + 1 ∧ p'.failed = p.failed ∧
          p'.firstError = p.firstError) ∨
        ∃ e, r = .error e ∧ p'.completed = p.completed ∧ p'.failed = p.failed + 1 ∧
          p'.firstError = p.firstError.or (some e)) := by
  unfold uploadReturned at h
  split at h
  · refine ⟨_, ‹_›, ?_⟩
    cases r <;> cases h <;> simp
  · cases h

theorem uploadThrew_eq (h : p.uploadThrew i = some p') :
    ∃ u, p.uploads[i]? = some u ∧ u.stage.ended = false ∧
      p' = { p with uploads := p.uploads.set i ⟨u.file, .threw⟩ } := by
  unfold uploadThrew at h
  split at h
  · exact ⟨_, ‹_›, rfl, (Option.some.inj h).symm⟩
  · exact ⟨_, ‹_›, rfl, (Option.some.inj h).symm⟩
  · cases h

theorem spawnUpload_of_notMem {file : Path} (h : file ∉ p.queued) :
    p.spawnUpload file = { p with
      queued := insert file p.queued
      inFlight := p.inFlight + 1
      uploads := p.uploads ++ [⟨file, .ready⟩] } := by
  simp [spawnUpload, h]

/-- Moving coroutine `i` from stage `u.stage` to `v.stage` moves it from one count to the other. -/
theorem countP_set {l : List Upload} {u v : Upload} (P : Upload → Bool) (h : l[i]? = some u) :
    (l.set i v).countP P + (P u).toNat = l.countP P + (P v).toNat := by
  obtain ⟨hi, hu⟩ := List.getElem?_eq_some_iff.1 h
  have hpos : P u = true → 0 < l.countP P := fun hP =>
    List.countP_pos_iff.2 ⟨u, List.mem_of_getElem? h, hP⟩
  rw [List.countP_set hi, hu]
  cases hPu : P u with
  | false => cases P v <;> simp
  | true =>
    have := hpos hPu
    cases P v <;> simp only [Bool.toNat_true, Bool.toNat_false, if_true, Bool.false_eq_true, if_false] <;>
      omega

theorem map_file_set {l : List Upload} {u v : Upload} (h : l[i]? = some u) (hf : v.file = u.file) :
    (l.set i v).map (·.file) = l.map (·.file) := by
  rw [List.map_set, hf]
  refine List.ext_getElem? fun j => ?_
  rw [List.getElem?_set]
  split
  · subst i; split <;> simp_all
  · rfl

/-- Counting two disjoint kinds of stages. -/
theorem count_add {P Q R : UploadStage → Bool} (h : ∀ s, (P s).toNat + (Q s).toNat = (R s).toNat) :
    p.count P + p.count Q = p.count R := by
  unfold count
  induction p.uploads with
  | nil => rfl
  | cons u l ih =>
    have hu := h u.stage
    simp only [List.countP_cons]
    cases hP : P u.stage <;> cases hQ : Q u.stage <;> cases hR : R u.stage <;>
      simp only [hP, hQ, hR, Bool.toNat_true, Bool.toNat_false] at hu ⊢ <;> simp <;> omega

/-- The stages that `in_flight` still counts: live, or ended by an exception. -/
def uncounted (s : UploadStage) : Bool := !s.succeeded && !s.failed

/-- The counters describe the spawned coroutines. -/
structure Ok (pool : Int) (p : PipelineState) : Prop where
  nodup : (p.uploads.map (·.file)).Nodup
  queued : p.queued = (p.uploads.map (·.file)).toFinset
  inFlight : p.inFlight = p.count uncounted
  completed : p.completed = p.count UploadStage.succeeded
  failed : p.failed = p.count UploadStage.failed
  firstError : p.firstError.isSome ↔ 0 < p.failed
  inFlight_le : p.inFlight ≤ pool

namespace Ok

theorem init (h : 0 < pool) : Ok pool {} := by
  refine ⟨?_, ?_, ?_, ?_, ?_, ?_, ?_⟩ <;> simp [count]
  exact Int.le_of_lt h

theorem spawn (h : Ok pool p) {file : Path} (hroom : p.inFlight < pool) (hnew : file ∉ p.queued) :
    Ok pool (p.spawnUpload file) := by
  have hnew' : file ∉ p.uploads.map (·.file) := by rw [h.queued, List.mem_toFinset] at hnew; exact hnew
  rw [spawnUpload_of_notMem hnew]
  refine ⟨?_, ?_, ?_, ?_, ?_, h.firstError, ?_⟩
  · rw [List.map_append, List.nodup_append]
    refine ⟨h.nodup, by simp, ?_⟩
    rintro a ha b hb rfl
    rw [List.map_singleton, List.mem_singleton] at hb
    subst hb
    exact hnew' ha
  · simp only [h.queued, List.map_append, List.map_singleton, List.toFinset_append]
    ext f
    simp
  · show p.inFlight + 1 = _
    rw [h.inFlight]; simp [count, uncounted, UploadStage.succeeded, UploadStage.failed]
  · show p.completed = _
    rw [h.completed]; simp [count, UploadStage.succeeded]
  · show p.failed = _
    rw [h.failed]; simp [count, UploadStage.failed]
  · show p.inFlight + 1 ≤ pool
    omega

theorem setStage (h : Ok pool p) {u v : Upload} (hu : p.uploads[i]? = some u) (hf : v.file = u.file)
    (hs : v.stage.succeeded = u.stage.succeeded) (hfl : v.stage.failed = u.stage.failed) :
    Ok pool { p with uploads := p.uploads.set i v } := by
  have key : ∀ P : UploadStage → Bool, P v.stage = P u.stage →
      count P { p with uploads := p.uploads.set i v } = p.count P := by
    intro P hP
    have := countP_set (v := v) (fun w => P w.stage) hu
    simp only [hP] at this
    exact Nat.add_right_cancel this
  refine ⟨?_, ?_, ?_, ?_, ?_, h.firstError, h.inFlight_le⟩
  · simp only [map_file_set hu hf]; exact h.nodup
  · simp only [map_file_set hu hf]; exact h.queued
  · rw [key uncounted (by simp [uncounted, hs, hfl])]; exact h.inFlight
  · rw [key _ hs]; exact h.completed
  · rw [key _ hfl]; exact h.failed

theorem started (h : Ok pool p) (hs : p.uploadStarted i = some p') : Ok pool p' := by
  obtain ⟨file, hu, rfl⟩ := uploadStarted_eq hs
  exact h.setStage hu rfl rfl rfl

theorem threw (h : Ok pool p) (hs : p.uploadThrew i = some p') : Ok pool p' := by
  obtain ⟨u, hu, hend, rfl⟩ := uploadThrew_eq hs
  have hu' : u.stage.succeeded = false ∧ u.stage.failed = false := by
    cases hst : u.stage <;> simp_all [UploadStage.ended, UploadStage.succeeded, UploadStage.failed]
  exact h.setStage hu rfl hu'.1.symm hu'.2.symm

theorem returned (h : Ok pool p) (hs : p.uploadReturned i r = some p') : Ok pool p' := by
  obtain ⟨file, hu, hq, hin, hup, hr⟩ := uploadReturned_eq hs
  have key : ∀ P : UploadStage → Bool,
      count P p' + (P .running).toNat = p.count P + (P (.returned r)).toNat := by
    intro P
    simp only [count, hup]
    exact countP_set (v := ⟨file, .returned r⟩) (fun w => P w.stage) hu
  have k1 := key uncounted
  have k2 := key UploadStage.succeeded
  have k3 := key UploadStage.failed
  have hle := h.inFlight_le
  have h1 := h.inFlight
  have h2 := h.completed
  have h3 := h.failed
  have hfe := h.firstError
  refine ⟨?_, ?_, ?_, ?_, ?_, ?_, ?_⟩
  · rw [hup, map_file_set (v := ⟨file, .returned r⟩) hu rfl]; exact h.nodup
  · rw [hq, hup, map_file_set (v := ⟨file, .returned r⟩) hu rfl]; exact h.queued
  all_goals
    rcases hr with ⟨x, rfl, hc, hf, he⟩ | ⟨e, rfl, hc, hf, he⟩ <;>
    simp only [uncounted, UploadStage.succeeded, UploadStage.failed, Bool.not_true, Bool.not_false,
      Bool.and_true, Bool.and_false, Bool.toNat_true, Bool.toNat_false] at k1 k2 k3
  · omega
  · omega
  · omega
  · omega
  · omega
  · omega
  · rw [he, hf]; exact hfe
  · rw [he, hf]; simp; omega
  · omega
  · omega

theorem move (h : Ok pool p) (hs : Move p p') : Ok pool p' := by
  cases hs with
  | started i hi => exact h.started hi
  | returned i r hi => exact h.returned hi
  | threw i hi => exact h.threw hi

/-- Every spawned file is counted once: in flight, completed or failed. -/
theorem card_queued (h : Ok pool p) : (p.queued.card : Int) = p.inFlight + p.completed + p.failed := by
  have hcard : p.queued.card = p.uploads.length := by
    rw [h.queued, List.toFinset_card_of_nodup h.nodup, List.length_map]
  have h1 : p.count uncounted + p.count UploadStage.succeeded = p.count fun s => !s.failed :=
    count_add fun s => by rcases s with _ | _ | (_ | _) | _ <;> rfl
  have h2 : (p.count fun s => !s.failed) + p.count UploadStage.failed = p.count fun _ => true :=
    count_add fun s => by rcases s with _ | _ | (_ | _) | _ <;> rfl
  have h3 : (p.count fun _ => true) = p.uploads.length := by simp [count]
  rw [hcard, h.inFlight, h.completed, h.failed, ← h3, ← h2, ← h1]
  push_cast
  rfl

theorem inFlight_nonneg (h : Ok pool p) : 0 ≤ p.inFlight := by rw [h.inFlight]; exact Int.natCast_nonneg _

/-- With `in_flight = 0` every spawned coroutine has returned. -/
theorem returned_of_inFlight_eq_zero (h : Ok pool p) (h0 : p.inFlight = 0) {u : Upload}
    (hu : u ∈ p.uploads) : ∃ r, u.stage = .returned r := by
  have hc : p.count uncounted = 0 := by have := h.inFlight; omega
  have := List.countP_eq_zero.1 hc u hu
  rcases u with ⟨f, s⟩
  rcases s with _ | _ | r | _
  · exact absurd rfl this
  · exact absurd rfl this
  · exact ⟨r, rfl⟩
  · exact absurd rfl this

/-- Once everything spawned has succeeded, `completed` tells whether anything was. -/
theorem completed_pos (h : Ok pool p) (hd : p.inFlight = 0) (hf : p.failed = 0) (hne : p.uploads ≠ []) :
    0 < p.completed := by
  have hq := h.card_queued
  have hlen : 0 < p.queued.card := by
    rw [h.queued, List.toFinset_card_of_nodup h.nodup, List.length_map]
    exact List.length_pos_iff.2 hne
  omega

theorem mem_queued (h : Ok pool p) {u : Upload} (hu : u ∈ p.uploads) : u.file ∈ p.queued := by
  rw [h.queued, List.mem_toFinset]
  exact List.mem_map_of_mem hu

end Ok

namespace Move

theorem queued_eq (h : Move p p') : p'.queued = p.queued := by
  cases h with
  | started i h => obtain ⟨_, _, rfl⟩ := uploadStarted_eq h; rfl
  | returned i r h => exact (uploadReturned_eq h).choose_spec.2.1
  | threw i h => obtain ⟨_, _, _, rfl⟩ := uploadThrew_eq h; rfl

theorem length_eq (h : Move p p') : p'.uploads.length = p.uploads.length := by
  cases h with
  | started i h => obtain ⟨_, _, rfl⟩ := uploadStarted_eq h; exact List.length_set
  | returned i r h =>
    obtain ⟨_, _, _, _, hup, _⟩ := uploadReturned_eq h
    rw [hup]; exact List.length_set
  | threw i h => obtain ⟨_, _, _, rfl⟩ := uploadThrew_eq h; exact List.length_set

theorem inFlight_le (h : Move p p') : p'.inFlight ≤ p.inFlight := by
  cases h with
  | started i h => obtain ⟨_, _, rfl⟩ := uploadStarted_eq h; exact Int.le_refl _
  | returned i r h =>
    obtain ⟨_, _, _, hin, _⟩ := uploadReturned_eq h
    omega
  | threw i h => obtain ⟨_, _, _, rfl⟩ := uploadThrew_eq h; exact Int.le_refl _

theorem exists_live (h : Move p p') : ∃ u ∈ p.uploads, u.stage.ended = false := by
  cases h with
  | started i h => obtain ⟨_, hu, _⟩ := uploadStarted_eq h; exact ⟨_, List.mem_of_getElem? hu, rfl⟩
  | returned i r h => obtain ⟨_, hu, _⟩ := uploadReturned_eq h; exact ⟨_, List.mem_of_getElem? hu, rfl⟩
  | threw i h => obtain ⟨u, hu, hend, _⟩ := uploadThrew_eq h; exact ⟨u, List.mem_of_getElem? hu, hend⟩

/-- Once `in_flight` is zero the pipeline stays as it is. -/
theorem inFlight_ne_zero (h : Move p p') (hok : Ok pool p) : p.inFlight ≠ 0 := by
  intro h0
  obtain ⟨u, hu, hend⟩ := h.exists_live
  obtain ⟨r, hr⟩ := hok.returned_of_inFlight_eq_zero h0 hu
  rw [hr] at hend
  cases hend

theorem uploads_eq_nil_iff (h : Move p p') : p'.uploads = [] ↔ p.uploads = [] := by
  rw [← List.length_eq_zero_iff, ← List.length_eq_zero_iff, h.length_eq]

end Move

end PipelineState

end Cmlb
