import Cmlb.Application.Accounting

/-!
# How a run ends

`execute` has one loop, with another one over the reported files in it. `Pc.ahead` is what it can still do
before it next waits for its timer: only a tick gives it more, and a poll for each file that it reports, so
that it never spins (`own_steps_le`).

Once the downloader has reported the end there are no more polls. What is left to do is then `Run.left`, with
the uploads in it, and it goes down with every step but the ticks of a run that waits for an upload: the run
ends, or somebody can still move (`settles`). Only an upload that throws keeps it from returning
(`can_return_iff`).
-/

section Potential

variable {σ ε : Type*} {M : Machine σ ε} {P : σ → ε → Prop} {s s' : σ} {t : List ε}

/-- A potential that the noted steps lower, and that no event raises by more than its credit, bounds the noted
steps of a run by what it starts with and what it is given on the way. -/
theorem Machine.Steps.countP_add_le {μ : σ → Nat} {noted : ε → Bool} {credit : ε → Nat}
    (hμ : ∀ s₁ e s₂, P s₁ e → M.step s₁ e = some s₂ → μ s₂ + (noted e).toNat ≤ μ s₁ + credit e)
    (h : M.Steps P s t s') : t.countP noted + μ s' ≤ μ s + (t.map credit).sum := by
  induction h with
  | nil => simp
  | snoc _ hp hs ih =>
    have hstep := hμ _ _ _ hp hs
    simp only [List.countP_append, List.countP_singleton, List.map_append, List.sum_append, List.map_cons,
      List.map_nil, List.sum_cons, List.sum_nil]
    split
    · rw [‹noted _ = true›, Bool.toNat_true] at hstep
      omega
    · omega

end Potential

namespace Cmlb

/-- The events that the coroutine itself waits for. -/
def Event.own : Event → Bool
  | .clock _ | .uploadStarted _ | .uploadReturned .. | .uploadThrew _ => false
  | _ => true

/-- What an event gives the coroutine to do. -/
def Event.credit : Event → Nat
  | .tick => 14
  | .status (.ok st) => 5 * st.files.length
  | _ => 0

def AfterEdit.ahead : AfterEdit → Nat
  | uploading => 7
  | failed .. | cancelled | completed => 2

def AfterRemove.ahead : AfterRemove → Nat
  | cancel | failUpload _ => 5
  | completed => 3

def AfterSave.ahead : AfterSave → Nat
  | startDownload => 19
  | attachDownloader => 16
  | beginUpload _ rest => 15 + 5 * rest.length
  | beginUploadFallback => 8
  | markCompleted => 4
  | markFailed .. | markCancelled => 3

/-- The steps to the next wait for the timer, or to the end where there is none. -/
def Pc.ahead : Pc → Nat
  | start => 25
  | gettingSettings => 24
  | sendingStatus => 23
  | creating => 22
  | created => 21
  | saving k => k.ahead + 1
  | saved k => k.ahead
  | addingUri => 18
  | loopHead => 15
  | polling => 14
  | spawnNext files => 13 + 5 * files.length
  | checkQueued _ rest => 17 + 5 * rest.length
  | spawning _ rest => 14 + 5 * rest.length
  | rendering => 12
  | checking => 11
  | waiting => 2
  | draining _ => 6
  | removing k => k.ahead
  | afterLoop => 10
  | editing k => k.ahead
  | uploadingDirectory _ | uploadingFile _ => 6
  | leaving _ | unwinding => 1
  | returned _ | threw => 0

namespace Run

variable {S : Setup} {r r' : Run} {e : Event} {t : List Event} {pc pc' : Pc}

theorem Flow.ahead_le (h : Flow pc e pc') (hne : e ≠ .threw) : pc'.ahead + 1 ≤ pc.ahead + e.credit := by
  cases h with
  | unwind | threw => exact absurd rfl hne
  | _ =>
    simp only [Pc.ahead, AfterSave.ahead, AfterRemove.ahead, AfterEdit.ahead, Event.credit, List.length_cons]
    omega

/-- Every event of the coroutine takes it along an edge. -/
theorem Step.flow_of_own (hs : Step S r e r') (ho : e.own = true) : Flow r.pc e r'.pc := by
  cases hs.effect with
  | clock | uploadStarted | uploadOk | uploadError | uploadThrew => cases ho
  | spawn hpc => exact hpc ▸ .spawned _ _
  | uploadDirectory hpc hdir => exact hpc ▸ .uploadDirectory _ _
  | uploadFile hpc hdir hf => exact hpc ▸ .uploadFile _ _
  | move h | save h | addUri h | status h | remove _ h | uploadedDirectory _ h | uploadedFile _ h => exact h

/-- The other events leave it where it is. -/
theorem Step.pc_eq (hs : Step S r e r') (ho : e.own = false) : r'.pc = r.pc := by
  cases hs with
  | clock | uploadStarted | uploadOk | uploadError | uploadThrew => rfl
  | _ => cases ho

/-- An exception is not thrown in the last step. -/
theorem threw_inv (hs : Run.step S r .threw = some r') : r' = r.unwind ∧ 1 < r.pc.ahead := by
  unfold Run.step at hs
  cases hpc : r.pc with
  | returned | leaving | unwinding | threw => simp [hpc] at hs
  | saving k | saved k | removing k | editing k =>
    simp only [hpc, Option.some.injEq] at hs
    refine ⟨hs.symm, ?_⟩
    cases k <;> simp only [Pc.ahead, AfterSave.ahead, AfterRemove.ahead, AfterEdit.ahead] <;> omega
  | _ =>
    simp only [hpc, Option.some.injEq] at hs
    refine ⟨hs.symm, ?_⟩
    simp only [Pc.ahead]
    omega

theorem ahead_unwind_le (r : Run) : r.unwind.pc.ahead ≤ 1 := by
  unfold Run.unwind
  dsimp only
  split <;> simp [Pc.ahead]

theorem ahead_step (hs : Run.step S r e = some r') : r'.pc.ahead + e.own.toNat ≤ r.pc.ahead + e.credit := by
  by_cases hthrew : e = .threw
  · subst hthrew
    obtain ⟨rfl, hlt⟩ := threw_inv hs
    have hle := ahead_unwind_le r
    simp only [Event.own, Bool.toNat_true]
    omega
  cases ho : e.own with
  | false =>
    rw [(step_inv hs).pc_eq ho]
    exact Nat.le_add_right ..
  | true => exact ((step_inv hs).flow_of_own ho).ahead_le hthrew

/-- Apart from its first 25 steps, the coroutine takes fourteen at most for a tick, and five for each file of a
poll. -/
theorem own_steps_le (S : Setup) {t : List Event} {r : Run} (h : S.machine.Runs S.init t r) :
    t.countP Event.own ≤ 25 + (t.map Event.credit).sum := by
  have hrun := h.countP_add_le fun r₁ e r₂ _ hs => ahead_step (S := S) (e := e) hs
  exact (Nat.le_add_right ..).trans hrun

theorem own_steps_toLoop : ∃ r, (Setup.sample MirrorUrl.useCase 1 true).machine.Runs
    (Setup.sample MirrorUrl.useCase 1 true).init Event.toLoop r ∧
      Event.toLoop.countP Event.own ≤ 25 + (Event.toLoop.map Event.credit).sum := by
  have hobs : ((Setup.sample MirrorUrl.useCase 1 true).machine.run
      (Setup.sample MirrorUrl.useCase 1 true).init Event.toLoop).map (fun _ => ()) = some () := by
    decide +kernel
  obtain ⟨r, hr, -⟩ := Machine.exists_runs hobs
  exact ⟨r, hr, own_steps_le _ hr⟩

end Run

/-! ### After the last poll -/

def UploadStage.left : UploadStage → Nat
  | ready => 2
  | running => 1
  | returned _ | threw => 0

def PipelineState.left (p : PipelineState) : Nat := (p.uploads.map (·.stage.left)).sum

namespace PipelineState

variable {p p' : PipelineState} {i : Nat}

theorem sum_map_set {l : List Upload} {u : Upload} (f : Upload → Nat) (v : Upload) (h : l[i]? = some u) :
    ((l.set i v).map f).sum + f u = (l.map f).sum + f v := by
  induction l generalizing i with
  | nil => cases h
  | cons w l ih =>
    cases i with
    | zero =>
      cases h
      simp only [List.set_cons_zero, List.map_cons, List.sum_cons]
      omega
    | succ i =>
      have hl := ih h
      simp only [List.set_cons_succ, List.map_cons, List.sum_cons]
      omega

theorem left_started (h : p.uploadStarted i = some p') : p'.left + 1 = p.left := by
  obtain ⟨file, hu, rfl⟩ := uploadStarted_eq h
  have hsum := sum_map_set (fun u => u.stage.left) ⟨file, .running⟩ hu
  exact Nat.add_right_cancel (m := 1) hsum

theorem left_returned {x : Result UploadResult} (h : p.uploadReturned i x = some p') : p'.left + 1 = p.left := by
  obtain ⟨file, hu, -, -, hup, -⟩ := uploadReturned_eq h
  unfold left
  rw [hup]
  exact sum_map_set (fun u => u.stage.left) ⟨file, .returned x⟩ hu

theorem left_spawnUpload_le (p : PipelineState) (file : Path) : (p.spawnUpload file).left ≤ p.left + 2 := by
  unfold spawnUpload
  split
  · exact Nat.le_add_right ..
  · simp [left, UploadStage.left]

theorem left_le (p : PipelineState) : p.left ≤ 2 * p.uploads.length := by
  unfold left
  induction p.uploads with
  | nil => exact Nat.le_refl 0
  | cons u l ih =>
    have hu : u.stage.left ≤ 2 := by cases u.stage <;> simp [UploadStage.left]
    simp only [List.map_cons, List.sum_cons, List.length_cons]
    omega

/-- While one is in flight and none has thrown, there is one that can go on. -/
theorem exists_upload {pool : Int} (h : p.Ok pool) (hthrew : p.count UploadStage.isThrew = 0)
    (hne : p.inFlight ≠ 0) :
    ∃ i, (p.uploadStarted i).isSome = true ∨ ∀ x, (p.uploadReturned i x).isSome = true := by
  have hlive : 0 < p.count fun s => !s.ended := by
    have hin := ((Run.accounted_iff_count h).2 hthrew).inFlight
    omega
  obtain ⟨⟨file, stage⟩, hu, hend⟩ := List.countP_pos_iff.1 hlive
  obtain ⟨i, hi⟩ := List.mem_iff_getElem?.1 hu
  cases stage with
  | ready => exact ⟨i, .inl (by simp [uploadStarted, hi])⟩
  | running => exact ⟨i, .inr fun x => by cases x <;> simp [uploadReturned, hi]⟩
  | returned | threw => cases hend

end PipelineState

def AfterSave.past : AfterSave → Bool
  | startDownload | attachDownloader | beginUpload .. => false
  | beginUploadFallback | markFailed .. | markCancelled | markCompleted => true

/-- Behind the poll loop. -/
def Pc.past : Pc → Bool
  | saving k | saved k => k.past
  | draining _ | removing _ | afterLoop | editing _ | uploadingDirectory _ | uploadingFile _ | leaving _
  | returned _ => true
  | _ => false

/-- In the poll loop, less the poll. -/
def Pc.looping : Pc → Bool
  | loopHead | spawnNext _ | checkQueued .. | spawning .. | saving (.beginUpload ..) | saved (.beginUpload ..)
  | rendering | checking | waiting => true
  | _ => false

/-- The files that the spawn loop has still to look at. -/
def Pc.toSpawn : Pc → List Path
  | spawnNext files => files
  | checkQueued file rest | spawning file rest | saving (.beginUpload file rest)
  | saved (.beginUpload file rest) => file :: rest
  | _ => []

def AfterSave.left : AfterSave → Nat
  | beginUpload _ rest => 20 + 7 * rest.length
  | k => k.ahead

/-- The steps to the end, when there are no more polls. A run that is `busy` waits for an upload in between,
and takes another round of the loop. -/
def Pc.left (busy : Bool) : Pc → Nat
  | spawnNext files => 16 + 7 * files.length
  | checkQueued _ rest => 22 + 7 * rest.length
  | saving k => k.left + 1
  | saved k => k.left
  | spawning _ rest => 19 + 7 * rest.length
  | loopHead => if busy then 15 else 12
  | rendering => 15
  | checking => if busy then 14 else 11
  | waiting => 13
  | pc => pc.ahead

namespace Run

variable {S : Setup} {r r' : Run} {e : Event} {t : List Event} {pc pc' : Pc} {b : Bool}

def busy (r : Run) : Bool := r.pipe.inFlight != 0

def left (r : Run) : Nat := r.pc.left r.busy + r.pipe.left

/-- The downloader is not asked any more. -/
def Ended (r : Run) : Prop := r.pc.past = true ∨ r.downloadComplete = true ∧ r.pc.looping = true

/-- What gets a run on: nothing throws, and the timer goes off only when there is no upload to wait for. -/
def Advances (r : Run) : Event → Prop
  | .clock _ | .threw | .uploadThrew _ => False
  | .tick => r.pipe.inFlight = 0
  | _ => True

theorem Flow.past (h : Flow pc e pc') (hpast : pc.past = true) (hne : e ≠ .threw) : pc'.past = true := by
  cases h with
  | unwind | threw => exact absurd rfl hne
  | _ => first | rfl | cases hpast | exact hpast

theorem Flow.looping (h : Flow pc e pc') (hloop : pc.looping = true) (hne : e ≠ .threw)
    (hpoll : pc' ≠ .polling) : pc'.past = true ∨ pc'.looping = true := by
  cases h with
  | unwind | threw => exact absurd rfl hne
  | headPoll => exact absurd rfl hpoll
  | commit k =>
    cases k with
    | beginUpload => exact .inr rfl
    | _ => cases hloop
  | _ => first | exact .inr rfl | exact .inl rfl | cases hloop

theorem Flow.status_inv {x : Result DownloadStatus} (h : Flow pc (.status x) pc') : pc = .polling := by
  cases h <;> rfl

theorem Flow.polling_inv (h : Flow pc e .polling) : pc = .loopHead ∧ ∃ c reg, e = .head c reg := by
  cases h with
  | headPoll c reg => exact ⟨rfl, c, reg, rfl⟩

/-- Once the download is complete the loop head does not poll again. -/
theorem not_polling (hend : r.Ended) (hs : Step S r e r') (hne : e ≠ .threw) : r'.pc ≠ .polling := by
  intro hpc
  cases ho : e.own with
  | false =>
    rw [hs.pc_eq ho] at hpc
    rw [Ended, hpc] at hend
    rcases hend with h | ⟨-, h⟩ <;> cases h
  | true =>
    have hflow := hs.flow_of_own ho
    rw [hpc] at hflow
    obtain ⟨hhead, c, reg, rfl⟩ := hflow.polling_inv
    rw [Ended, hhead] at hend
    rcases hend with h | ⟨hdone, -⟩
    · cases h
    · cases hs with
      | head _ c reg =>
        unfold Run.onHead at hpc
        rw [hdone] at hpc
        split at hpc
        · cases hpc
        · cases hpc

theorem Ended.step (hend : r.Ended) (hs : Step S r e r') (hne : e ≠ .threw) : r'.Ended := by
  have hpoll := not_polling hend hs hne
  have hdone : r.downloadComplete = true → r.pc.looping = true → r'.downloadComplete = true := by
    intro hd hl
    cases hs.effect with
    | status h =>
      rw [h.status_inv] at hl
      cases hl
    | _ => exact hd
  cases ho : e.own with
  | false =>
    have hpc := hs.pc_eq ho
    rcases hend with h | ⟨hd, h⟩
    · exact .inl (hpc ▸ h)
    · exact .inr ⟨hdone hd h, hpc ▸ h⟩
  | true =>
    have hflow := hs.flow_of_own ho
    rcases hend with h | ⟨hd, h⟩
    · exact .inl (hflow.past h hne)
    · rcases hflow.looping h hne hpoll with hpast | hloop
      · exact .inl hpast
      · exact .inr ⟨hdone hd h, hloop⟩

theorem Flow.left_lt (h : Flow pc e pc') (hne : e ≠ .threw) (hpoll : pc ≠ .polling) (hpoll' : pc' ≠ .polling)
    (hspawn : ∀ file rest, pc ≠ .spawning file rest) (hwait : pc' = .waiting → b = true)
    (htick : e = .tick → b = false) (hstay : pc' ≠ pc) : pc'.left b < pc.left b := by
  cases h with
  | unwind | threw => exact absurd rfl hne
  | pollFailed | pollSpawn | pollRender => exact absurd rfl hpoll
  | headPoll => exact absurd rfl hpoll'
  | spawned => exact absurd rfl (hspawn _ _)
  | drainWait => exact absurd rfl hstay
  | checkWait =>
    rw [hwait rfl]
    decide
  | waited =>
    rw [htick rfl]
    decide
  | commit k => exact Nat.lt_succ_self _
  | _ =>
    cases b <;>
      simp [Pc.left, Pc.ahead, AfterSave.left, AfterSave.ahead, AfterRemove.ahead, AfterEdit.ahead] <;> omega

theorem Flow.waiting_inv (h : Flow pc e .waiting) : pc = .checking ∧ e = .run := by
  cases h
  exact ⟨rfl, rfl⟩

theorem Flow.spawning_inv {file : Path} {rest : List Path} (h : Flow (.spawning file rest) e pc')
    (hne : e ≠ .threw) : e = .run := by
  cases h with
  | unwind | threw => exact absurd rfl hne
  | spawned => rfl

theorem Flow.stay_inv (h : Flow pc e pc) (hne : e ≠ .threw) : ∃ k, pc = .draining k ∧ e = .tick := by
  cases h with
  | unwind | threw => exact absurd rfl hne
  | drainWait k => exact ⟨k, rfl, rfl⟩

/-- The loop goes round again only for an upload. -/
theorem busy_of_waiting (hend : r.Ended) (hs : Run.step S r e = some r') (hflow : Flow r.pc e r'.pc)
    (hpc : r'.pc = .waiting) : r.busy = true := by
  rw [hpc] at hflow
  obtain ⟨hcheck, rfl⟩ := hflow.waiting_inv
  rw [Ended, hcheck] at hend
  rcases hend with h | ⟨hdone, -⟩
  · cases h
  simp only [Run.step, hcheck, Option.some.injEq] at hs
  subst hs
  unfold Run.check at hpc
  rw [hdone] at hpc
  cases hb : r.busy with
  | true => rfl
  | false =>
    have hzero : (r.pipe.inFlight == 0) = true := by simpa [busy] using hb
    rw [hzero] at hpc
    split at hpc
    · cases hpc
    · cases hpc

/-- A run that drains an empty pool is through with it. -/
theorem drained (hs : Run.step S r e = some r') (hflow : Flow r.pc e r'.pc) (hne : e ≠ .threw)
    (hp : r.Advances e) : r'.pc ≠ r.pc := by
  intro hpc
  rw [hpc] at hflow
  obtain ⟨k, hdrain, rfl⟩ := hflow.stay_inv hne
  have hzero : r.pipe.inFlight = 0 := hp
  simp only [Run.step, hdrain, Option.some.injEq] at hs
  subst hs
  rw [hdrain] at hpc
  unfold Run.drain at hpc
  rw [hzero] at hpc
  cases k <;> cases hpc

theorem PipeStep.eq_of_own {p p' : PipelineState} (h : PipeStep pc p e p') (ho : e.own = true)
    (hspawn : ∀ file rest, pc ≠ .spawning file rest) : p' = p := by
  cases h with
  | same => rfl
  | spawn h => exact absurd h (hspawn _ _)
  | started | returned | threw => cases ho

theorem left_congr (hb : r'.busy = r.busy) (hl : r'.pipe.left = r.pipe.left)
    (h : r'.pc.left r.busy < r.pc.left r.busy) : r'.left < r.left := by
  unfold Run.left
  rw [hb, hl]
  exact Nat.add_lt_add_right h _

theorem left_mono (pc : Pc) (b : Bool) : pc.left b ≤ pc.left true := by
  cases b with
  | true => exact Nat.le_refl _
  | false => cases pc <;> simp [Pc.left]

/-- An upload goes on, and the run has no more to do than before. -/
theorem left_upload {p : PipelineState} (hpc : r'.pc = r.pc) (hp : r'.pipe = p) (hb : r.busy = true)
    (hl : p.left + 1 = r.pipe.left) : r'.left < r.left := by
  have hle := left_mono r.pc r'.busy
  unfold Run.left
  rw [hpc, hp, hb]
  omega

theorem left_spawn {file : Path} {rest : List Path} (hpc : r.pc = .spawning file rest)
    (hs : Run.step S r e = some r') (he : e = .run) : r'.left < r.left := by
  subst he
  simp only [Run.step, hpc, Option.some.injEq] at hs
  subst hs
  have hle := r.pipe.left_spawnUpload_le file
  simp only [Run.left, spawnUpload, hpc, Pc.left]
  omega

/-- Every event that gets the run on leaves it less to do. -/
theorem left_step (hi : r.Inv S) (hend : r.Ended) (hs : Run.step S r e = some r') (hp : r.Advances e) :
    r'.left < r.left := by
  have hstep := step_inv hs
  have hne : e ≠ .threw := by
    rintro rfl
    exact hp
  have hbusy : ∀ p, PipelineState.Move r.pipe p → r.busy = true := fun p hm => by
    simpa [busy] using hm.inFlight_ne_zero hi.pipe
  cases ho : e.own with
  | false =>
    cases hstep with
    | clock => exact hp.elim
    | uploadThrew => exact hp.elim
    | uploadStarted _ hu => exact left_upload rfl rfl (hbusy _ (.started _ hu)) (PipelineState.left_started hu)
    | uploadOk _ hu => exact left_upload rfl rfl (hbusy _ (.returned _ _ hu)) (PipelineState.left_returned hu)
    | uploadError hu => exact left_upload rfl rfl (hbusy _ (.returned _ _ hu)) (PipelineState.left_returned hu)
    | _ => cases ho
  | true =>
    have hflow := hstep.flow_of_own ho
    by_cases hspawn : ∃ file rest, r.pc = .spawning file rest
    · obtain ⟨file, rest, hpc⟩ := hspawn
      rw [hpc] at hflow
      exact left_spawn hpc hs (hflow.spawning_inv hne)
    · have hspawn' : ∀ file rest, r.pc ≠ .spawning file rest := fun file rest h => hspawn ⟨file, rest, h⟩
      have hpipe := hstep.pipe.eq_of_own ho hspawn'
      refine left_congr (by rw [busy, hpipe]; rfl) (by rw [hpipe]) (hflow.left_lt hne ?_ (not_polling hend hstep hne)
        hspawn' (busy_of_waiting hend hs hflow) ?_ (drained hs hflow hne hp))
      · intro hpc
        rw [Ended, hpc] at hend
        rcases hend with h | ⟨-, h⟩ <;> cases h
      · rintro rfl
        have hzero : r.pipe.inFlight = 0 := hp
        simp [busy, hzero]

theorem Ended.left_le (hend : r.Ended) : r.left ≤ 16 + 7 * r.pc.toSpawn.length + 2 * r.pipe.uploads.length := by
  have hpc : r.pc.left r.busy ≤ 16 + 7 * r.pc.toSpawn.length := by
    have hspot : r.pc.past = true ∨ r.pc.looping = true := hend.imp_right And.right
    cases hpc : r.pc with
    | saving k | saved k =>
      rw [hpc] at hspot
      cases k with
      | startDownload | attachDownloader => rcases hspot with h | h <;> cases h
      | _ => simp [Pc.left, AfterSave.left, AfterSave.ahead, Pc.toSpawn] <;> omega
    | removing k | editing k =>
      cases k <;> simp [Pc.left, Pc.ahead, AfterRemove.ahead, AfterEdit.ahead, Pc.toSpawn]
    | start | gettingSettings | sendingStatus | creating | created | addingUri | polling =>
      rw [hpc] at hspot
      rcases hspot with h | h <;> cases h
    | _ => cases r.busy <;> simp [Pc.left, Pc.ahead, Pc.toSpawn] <;> omega
  have hpipe := r.pipe.left_le
  unfold Run.left
  omega

/-! ### Something can always happen -/

end Run

/-- An event that the coroutine waits for. -/
def Pc.awaits : Pc → Event
  | gettingSettings => .settings (.ok none)
  | sendingStatus => .sent (.ok ⟨0⟩)
  | creating | saving _ => .commit (.ok ())
  | addingUri => .gid (.ok ⟨""⟩)
  | loopHead => .head true true
  | polling => .status (.error ⟨.unknown, ""⟩)
  | rendering => .rendered
  | waiting | draining _ => .tick
  | removing _ => .removed (.ok ())
  | editing _ => .edited (.ok ())
  | uploadingDirectory _ => .directory (.error ⟨.unknown, ""⟩)
  | uploadingFile _ => .file (.error ⟨.unknown, ""⟩)
  | _ => .run

namespace Run

variable {S : Setup} {r r' : Run} {e : Event} {t t' : List Event} {pc pc' : Pc}

theorem awaits_own (pc : Pc) : pc.awaits.own = true := by
  cases pc <;> rfl

theorem awaits_ne_threw (pc : Pc) : pc.awaits ≠ .threw := by
  cases pc <;> simp [Pc.awaits]

theorem step_awaits (S : Setup) (h : r.pc.over = false) : ∃ r', Run.step S r r.pc.awaits = some r' := by
  cases hpc : r.pc with
  | returned | threw =>
    rw [hpc] at h
    cases h
  | start =>
    simp only [Run.step, hpc, Pc.awaits]
    split
    · exact ⟨_, rfl⟩
    · exact ⟨_, rfl⟩
  | _ => simp [Run.step, hpc, Pc.awaits]

theorem Ended.over (hend : r.Ended) (h : r.pc.over = true) : ∃ exit, r.pc = .returned exit := by
  cases hpc : r.pc with
  | returned exit => exact ⟨exit, rfl⟩
  | threw =>
    rw [Ended, hpc] at hend
    rcases hend with h | ⟨-, h⟩ <;> cases h
  | _ =>
    rw [hpc] at h
    cases h

/-- As long as no upload has thrown, a run that the downloader is through with has returned, or gets on. -/
theorem advances (hi : r.Inv S) (hthrew : r.pipe.count UploadStage.isThrew = 0) (hend : r.Ended) :
    (∃ exit, r.pc = .returned exit) ∨ ∃ e r', r.Advances e ∧ Run.step S r e = some r' := by
  cases hover : r.pc.over with
  | true => exact .inl (hend.over hover)
  | false =>
    refine .inr ?_
    by_cases hwait : r.pc.awaits = .tick ∧ r.pipe.inFlight ≠ 0
    · obtain ⟨i, hs | hr⟩ := PipelineState.exists_upload hi.pipe hthrew hwait.2
      · obtain ⟨p, hp⟩ := Option.isSome_iff_exists.1 hs
        obtain ⟨file, hu, -⟩ := PipelineState.uploadStarted_eq hp
        exact ⟨.uploadStarted i, { r with pipe := p, calls := .uploadFile file :: r.calls }, trivial,
          by simp only [Run.step, Run.uploadStarted, hp, hu]⟩
      · obtain ⟨p, hp⟩ := Option.isSome_iff_exists.1 (hr (.error ⟨.unknown, ""⟩))
        obtain ⟨file, hu, -⟩ := PipelineState.uploadReturned_eq hp
        exact ⟨.uploadReturned i (.error ⟨.unknown, ""⟩), { r with pipe := p }, trivial,
          by simp only [Run.step, Run.uploadReturned, hp, hu]⟩
    · obtain ⟨r', hs⟩ := step_awaits S hover
      refine ⟨r.pc.awaits, r', ?_, hs⟩
      by_cases htick : r.pc.awaits = .tick
      · rw [htick]
        by_contra hne
        exact hwait ⟨htick, hne⟩
      · have hown := awaits_own r.pc
        have hne := awaits_ne_threw r.pc
        revert htick hown hne
        cases r.pc.awaits <;> simp [Advances, Event.own]

theorem Advances.not_throwsUpload (h : r.Advances e) : e.throwsUpload = false := by
  cases e with
  | uploadThrew => exact h.elim
  | _ => rfl

theorem Advances.ne_threw (h : r.Advances e) : e ≠ .threw := by
  rintro rfl
  exact h

theorem count_threw_zero (h : S.machine.Runs S.init t r) (hthrew : ∀ i, .uploadThrew i ∉ t) :
    r.pipe.count UploadStage.isThrew = 0 := by
  rw [count_threw_of_steps h, List.countP_eq_zero]
  intro e he
  cases e with
  | uploadThrew i => exact absurd he (hthrew i)
  | _ => simp [Event.throwsUpload]

/-- What holds of a run that the downloader is through with, for as long as it gets on. -/
structure Closing (S : Setup) (r : Run) : Prop where
  inv : r.Inv S
  ended : r.Ended
  threw : r.pipe.count UploadStage.isThrew = 0

theorem Closing.step (h : r.Closing S) (hp : r.Advances e) (hs : Run.step S r e = some r') : r'.Closing S where
  inv := h.inv.step (step_inv hs)
  ended := h.ended.step (step_inv hs) hp.ne_threw
  threw := by rw [(step_inv hs).pipe.count_threw, h.threw, hp.not_throwsUpload]; rfl

/-- Once the downloader has nothing more to report, the ticks of a run that waits for an upload are all that can
be many: without them it is over after a number of events that is known beforehand, and before that there is
always one that can happen. -/
theorem settles (S : Setup) {t t' : List Event} {r r' : Run} (h : S.machine.Runs S.init t r)
    (hthrew : ∀ i, .uploadThrew i ∉ t) (hend : r.Ended) (h' : S.machine.Steps Advances r t' r') :
    t'.length ≤ 16 + 7 * r.pc.toSpawn.length + 2 * r.pipe.uploads.length ∧
      ((∃ exit, r'.pc = .returned exit) ∨ ∃ e r'', r'.Advances e ∧ Run.step S r' e = some r'') := by
  have hclosing : r.Closing S := ⟨inv_of_steps h, hend, count_threw_zero h hthrew⟩
  have hstep : ∀ s e s', Advances s e → s.Closing S → S.machine.step s e = some s' → s'.Closing S :=
    fun s e s' hp hc hs => hc.step hp hs
  constructor
  · have hlen := h'.length_add_le (μ := left) fun t s e s' hsteps hp hs => by
      have hc := hsteps.invariant hclosing hstep
      exact left_step hc.inv hc.ended hs hp
    have hle := hend.left_le
    omega
  · have hc := h'.invariant hclosing hstep
    exact advances hc.inv hc.threw hc.ended

/-- The download is complete, and its only file is about to be uploaded. -/
def completeOne : List Event :=
  Event.toLoop ++ [.head false false, .status (.ok { state := .complete, files := ["a"] }),
    .run, .run, .commit (.ok ()), .run, .run]

theorem completeOne_runs : ∃ r, (Setup.sample MirrorUrl.useCase 1 true).machine.Runs
    (Setup.sample MirrorUrl.useCase 1 true).init completeOne r ∧ r.downloadComplete = true ∧
      r.pc = .spawnNext [] ∧ r.pipe.uploads.length = 1 := by
  have hobs : ((Setup.sample MirrorUrl.useCase 1 true).machine.run
      (Setup.sample MirrorUrl.useCase 1 true).init completeOne).map
        (fun r => (r.downloadComplete, r.pc, r.pipe.uploads.length)) = some (true, .spawnNext [], 1) := by
    decide +kernel
  obtain ⟨r, hr, ho⟩ := Machine.exists_runs hobs
  simp only [Prod.mk.injEq] at ho
  exact ⟨r, hr, ho⟩

/-- However it goes on from there, it is over after eighteen events. -/
theorem settles_one : ∃ r, r.pc = .spawnNext [] ∧ ∀ t' r',
    (Setup.sample MirrorUrl.useCase 1 true).machine.Steps Advances r t' r' → t'.length ≤ 18 ∧
      ((∃ exit, r'.pc = .returned exit) ∨
        ∃ e r'', r'.Advances e ∧ Run.step (Setup.sample MirrorUrl.useCase 1 true) r' e = some r'') := by
  obtain ⟨r, hr, hdone, hpc, hlen⟩ := completeOne_runs
  refine ⟨r, hpc, fun t' r' h' => ?_⟩
  have hend : r.Ended := .inr ⟨hdone, by rw [hpc]; rfl⟩
  have hs := settles _ hr (by simp [completeOne, Event.toLoop]) hend h'
  rw [hpc, hlen] at hs
  exact hs

theorem Closing.returns (h : r.Closing S) : ∃ t' r' exit, S.machine.Runs r t' r' ∧ r'.pc = .returned exit := by
  generalize hn : r.left = n
  induction n using Nat.strong_induction_on generalizing r with
  | h n ih =>
    rcases advances h.inv h.threw h.ended with ⟨exit, hpc⟩ | ⟨e, r₁, hp, hs⟩
    · exact ⟨[], r, exit, .nil r, hpc⟩
    · have hlt := left_step h.inv h.ended hs hp
      obtain ⟨t', r', exit, hsteps, hpc⟩ := ih _ (hn ▸ hlt) (h.step hp hs) rfl
      exact ⟨e :: t', r', exit, .cons trivial hs hsteps, hpc⟩

/-- An exception is leaving the coroutine, or has left it. -/
def Unwound (r : Run) : Prop := r.pc = .unwinding ∨ r.pc = .threw

theorem Flow.unwound_inv (h : Flow pc e pc') (hpc : pc' = .unwinding ∨ pc' = .threw) :
    e = .threw ∨ pc = .unwinding := by
  cases h with
  | unwind | threw => exact .inl rfl
  | unwound => exact .inr rfl
  | _ => rcases hpc with hpc | hpc <;> cases hpc

theorem not_unwound_step (hs : Step S r e r') (hne : e ≠ .threw) (h : ¬r.Unwound) : ¬r'.Unwound := by
  cases ho : e.own with
  | false =>
    rw [Unwound, hs.pc_eq ho]
    exact h
  | true =>
    intro hpc
    rcases (hs.flow_of_own ho).unwound_inv hpc with he | hpc
    · exact hne he
    · exact h (.inl hpc)

theorem credit_awaits (h : pc.awaits ≠ .tick) : pc.awaits.credit = 0 := by
  cases pc with
  | waiting | draining => exact absurd rfl h
  | _ => rfl

theorem tick_inv (h : pc.awaits = .tick) : pc = .waiting ∨ ∃ k, pc = .draining k := by
  cases pc with
  | waiting => exact .inl rfl
  | draining k => exact .inr ⟨k, rfl⟩
  | _ => cases h

/-- From anywhere the downloader's part can come to an end: it has only to fail, or the task to be cancelled. -/
theorem reaches_end (h : ¬r.Unwound) : ∃ t' r', S.machine.Steps (fun _ e => e.throwsUpload = false) r t' r' ∧ r'.Ended := by
  generalize hn : r.pc.ahead = n
  induction n using Nat.strong_induction_on generalizing r with
  | h n ih =>
    cases hover : r.pc.over with
    | true =>
      refine ⟨[], r, .nil r, .inl ?_⟩
      cases hpc : r.pc with
      | returned => rfl
      | threw => exact absurd (.inr hpc) h
      | _ =>
        rw [hpc] at hover
        cases hover
    | false =>
      obtain ⟨r₁, hs⟩ := step_awaits S hover
      have hq : r.pc.awaits.throwsUpload = false := by cases r.pc <;> rfl
      by_cases htick : r.pc.awaits = .tick
      · rcases tick_inv htick with hpc | ⟨k, hpc⟩
        · have hwaited : S.machine.step r .tick = some { r with pc := .loopHead } := by
            simp only [Setup.machine, Run.step, hpc]
          exact ⟨[.tick, .head true true], { r with pc := .draining .cancel },
            .cons rfl hwaited (.cons rfl rfl (.nil _)), .inl rfl⟩
        · exact ⟨[], r, .nil r, .inl (by rw [hpc]; rfl)⟩
      · have hflow := (step_inv hs).flow_of_own (awaits_own r.pc)
        have hlt := hflow.ahead_le (awaits_ne_threw r.pc)
        rw [credit_awaits htick] at hlt
        obtain ⟨t', r', hsteps, hend⟩ := ih _ (by omega) (not_unwound_step (step_inv hs) (awaits_ne_threw r.pc) h) rfl
        exact ⟨_ :: t', r', .cons hq hs hsteps, hend⟩

theorem not_unwound (h : S.machine.Runs S.init t r) (hthrew : .threw ∉ t) : ¬r.Unwound := by
  have hsteps : S.machine.Steps (fun _ e => e ≠ .threw) S.init t r :=
    h.of_forall_mem fun _ e he heq => hthrew (heq ▸ he)
  refine hsteps.invariant (I := fun r => ¬r.Unwound) ?_ fun s e s' hne hu hs => not_unwound_step (step_inv hs) hne hu
  rintro (hpc | hpc) <;> cases hpc

/-- A run that no exception has left can still return, unless one of its uploads has thrown. -/
theorem can_return_iff (S : Setup) {t : List Event} {r : Run} (h : S.machine.Runs S.init t r)
    (hthrew : .threw ∉ t) :
    (∃ t' r' exit, S.machine.Runs r t' r' ∧ r'.pc = .returned exit) ↔ ∀ i, .uploadThrew i ∉ t := by
  constructor
  · rintro ⟨t', r', exit, h', hpc⟩ i hi
    exact not_returned_of_threw (h.append h') (List.mem_append_left t' hi) exit hpc
  · intro hno
    obtain ⟨t₁, r₁, h₁, hend⟩ := reaches_end (S := S) (not_unwound h hthrew)
    have hclosing : r₁.Closing S := by
      refine ⟨inv_of_steps (h.append h₁.runs), hend, ?_⟩
      refine h₁.invariant (I := fun r => r.pipe.count UploadStage.isThrew = 0) (count_threw_zero h hno)
        fun s e s' hp hc hs => ?_
      rw [(step_inv hs).pipe.count_threw, hc, hp]
      rfl
    obtain ⟨t₂, r₂, exit, h₂, hpc⟩ := hclosing.returns
    exact ⟨t₁ ++ t₂, r₂, exit, h₁.runs.append h₂, hpc⟩

/-- The mirror whose only upload has thrown cannot return any more. -/
theorem throwing_hangs : ∃ r, (Setup.sample MirrorUrl.useCase 1 true).machine.Runs
    (Setup.sample MirrorUrl.useCase 1 true).init throwingTrace r ∧
      ¬∃ t' r' exit, (Setup.sample MirrorUrl.useCase 1 true).machine.Runs r t' r' ∧ r'.pc = .returned exit := by
  have hobs : ((Setup.sample MirrorUrl.useCase 1 true).machine.run
      (Setup.sample MirrorUrl.useCase 1 true).init throwingTrace).map (fun _ => ()) = some () := by
    decide +kernel
  obtain ⟨r, hr, -⟩ := Machine.exists_runs hobs
  refine ⟨r, hr, fun hreturn => ?_⟩
  have hno := (can_return_iff _ hr (by simp [throwingTrace, Event.toLoop])).1 hreturn
  exact hno 0 (by simp [throwingTrace])

end Run

end Cmlb
