import Cmlb.Application.Outcome
import Cmlb.Application.Coverage
import Cmlb.Application.CancelTask

/-!
# Cancelling a run

The checks that keep a task from leaving a terminal state are made on copies: the run checks its own
task, a `CancelTask` call the row it has loaded, and the save that follows replaces whatever the row
holds. What keeps the two apart is the registry. A call that finds the run registered leaves the row
to it, so rows are lost only when the lookup misses at the wrong time (`overtakes`): before
`active_guard` is constructed, or with a stale copy after the run has ended. In the other direction
the flag reaches the run only at the head of the poll loop, so a request is ignored when it arrives
behind the last look at the flag (`ignores`).
-/

namespace Cmlb

def Pc.settled : Pc → Bool
  | .saved (.markFailed _ _) | .saved .markCancelled | .saved .markCompleted | .removing .completed
  | .editing (.failed _ _) | .editing .cancelled | .editing .completed
  | .leaving _ | .returned _ | .unwinding | .threw => true
  | _ => false

/-- Past the poll loop on the way to the `Completed` row. -/
def Pc.pastLoop : Pc → Bool
  | .afterLoop | .saving .beginUploadFallback | .saved .beginUploadFallback | .editing .uploading
  | .uploadingDirectory _ | .uploadingFile _ | .saving .markCompleted => true
  | _ => false

namespace Run

variable {S : Setup} {r r' : Run} {e : Event} {pc pc' : Pc}

theorem Flow.settled (hf : Flow pc e pc') (h : pc.settled = true) : pc'.settled = true := by
  cases hf <;> first | rfl | cases h

theorem settled_step (h : r.pc.settled = true) (hs : Step S r e r') : r'.pc.settled = true := by
  rcases hs.flow with heq | hf
  · rw [heq]
    exact h
  · exact hf.settled h

theorem Flow.not_over (hf : Flow pc e pc') : pc.over = false := by
  cases hf <;> first | rfl | assumption

theorem over_step (h : r.pc.over = true) (hs : Step S r e r') : r'.pc = r.pc := by
  rcases hs.flow with heq | hf
  · exact heq
  · rw [hf.not_over] at h
    cases h

theorem Flow.guarded (hf : Flow pc e pc') (h : pc.guarded = true) :
    pc'.guarded = true ∨ pc'.over = true := by
  cases hf <;> first | exact .inl rfl | exact .inr rfl | cases h

/-- `active_guard` is destroyed when the coroutine ends, and not before. -/
theorem guarded_step (hg : r.pc.guarded = true) (hs : Step S r e r') :
    r'.pc.guarded = true ∨ r'.pc.over = true := by
  rcases hs.flow with heq | hf
  · rw [heq]
    exact .inl hg
  · exact hf.guarded hg

theorem Flow.pastLoop (hf : Flow pc e pc') (h : pc'.pastLoop = true) :
    pc.pastLoop = true ∨ (pc = .checking ∧ e = .run) := by
  cases hf with
  | commit k x => cases k <;> first | exact .inl rfl | cases h
  | checkDone => exact .inr ⟨rfl, rfl⟩
  | _ => first | exact .inl rfl | cases h

/-- The poll loop is left for the completion at its termination check only. -/
theorem pastLoop_step (hs : Step S r e r') (h : r'.pc.pastLoop = true) :
    r.pc.pastLoop = true ∨ (r.pc = .checking ∧ e = .run ∧ r' = r.check) := by
  rcases hs.flow with heq | hf
  · exact .inl (heq ▸ h)
  · rcases hf.pastLoop h with hpast | ⟨hpc, rfl⟩
    · exact .inl hpast
    · refine .inr ⟨hpc, rfl, ?_⟩
      cases hs with
      | check _ => rfl
      | _ hpc' =>
        rw [hpc] at hpc'
        cases hpc'

/-- A save writes the task of a run that is saving. -/
theorem step_commit {x : Result Unit} (hs : Step S r (.commit x) r') :
    (r.pc = .creating ∧ r' = r.onCreated x) ∨ ∃ k, r.pc = .saving k ∧ r' = r.onCommit k x := by
  cases hs with
  | created hpc => exact .inl ⟨hpc, rfl⟩
  | commit hpc => exact .inr ⟨_, hpc, rfl⟩

/-- A terminal task is saved at the end. -/
theorem settled_of_commit (hi : r.Inv S) {x : Result Unit} (hs : Step S r (.commit x) r')
    (ht : r.task.isTerminal = true) : r'.pc.settled = true := by
  have hstate : ∀ {s : TaskState}, r.task.state = s → s.isTerminal = true := fun h => h ▸ ht
  rcases step_commit hs with ⟨hpc, rfl⟩ | ⟨k, hpc, rfl⟩
  · cases hstate (hi.pc hpc : r.Idle ∧ r.task.state = .queued).2
  · have ha := hi.pc hpc
    cases k with
    | startDownload => cases hstate (And.right ha)
    | attachDownloader => cases hstate (And.right ha)
    | beginUpload file rest => cases hstate (Spawning.state ha)
    | beginUploadFallback => cases hstate (And.right ha)
    | _ => rfl

/-- The run persists the task it has when a save succeeds, and nothing else. -/
theorem persisted_step (hs : Step S r e r') :
    r'.persisted = r.persisted ∨ (∃ x, e = .commit x) ∧ r'.persisted = r.task :: r.persisted := by
  unfold persisted
  rcases hs.calls with hc | ⟨c, hc, hl⟩
  · exact .inl (by rw [hc])
  · rw [hc]
    cases hl with
    | save x =>
      cases x with
      | ok u => exact .inr ⟨⟨_, rfl⟩, rfl⟩
      | error err => exact .inl rfl
    | _ => exact .inl rfl

/-- A `Completed` task is saved past the poll loop. -/
theorem pastLoop_of_commit (hi : r.Inv S) {x : Result Unit} (hs : Step S r (.commit x) r')
    (ht : r.task.state = .completed) : r.pc.pastLoop = true := by
  have hstate : ∀ {s : TaskState}, r.task.state = s → s = .completed := fun h => h ▸ ht
  rcases step_commit hs with ⟨hpc, _⟩ | ⟨k, hpc, _⟩
  · cases hstate (hi.pc hpc : r.Idle ∧ r.task.state = .queued).2
  · have ha := hi.pc hpc
    rw [hpc]
    cases k with
    | startDownload => cases hstate (And.right ha)
    | attachDownloader => cases hstate (And.right ha)
    | beginUpload file rest => cases hstate (Spawning.state ha)
    | beginUploadFallback => rfl
    | markFailed stage err => cases hstate (Failed.state ha)
    | markCancelled => cases hstate (And.right ha)
    | markCompleted => rfl

end Run

namespace CancelTask

/-- The call has missed the run in the registry and is going to save `Cancelled`. -/
def Pc.tearing : Pc → Bool
  | .removing _ | .saving _ => true
  | _ => false

/-- The call has told the run, or torn the task down itself. -/
def Pc.acked : Pc → Bool
  | .acknowledging | .removing _ | .saving _ | .saved _ | .notifying | .returned (.ok _) => true
  | _ => false

inductive Step (c : Call) (cell : Cell) : Event → Pc → Cell → Prop
  | quiet {e : Event} {pc : Pc} (ht : pc.tearing = false) (ha : pc.acked = true → c.pc.acked = true) :
      Step c cell e pc cell
  | hit {b : Bool} {task : Task} (ht : c.target = some task) (hb : cell.slot = some b) :
      Step c cell .run .acknowledging { cell with slot := some true }
  | miss {pc : Pc} {task : Task} (ht : c.target = some task) (hb : cell.slot = none)
      (hp : ∀ t, pc = .saving t → t.state = .cancelled) : Step c cell .run pc cell
  | removed {e : Event} {pc : Pc} (ht : c.pc.tearing = true)
      (hp : ∀ t, pc = .saving t → t.state = .cancelled) : Step c cell e pc cell
  | commit {task : Task} (hpc : c.pc = .saving task) (r : Result Unit) :
      Step c cell (.commit r) (.saved r) (CancelTask.commit task r cell)

variable {c : Call} {cell cell' : Cell} {e : Event} {pc : Pc} {now : Time}

theorem markCancelled_saving {task t : Task} (h : markCancelled now task = .saving t) :
    t.state = .cancelled := by
  unfold markCancelled at h
  split at h
  · cases h
  · rename_i t' ht
    cases h
    rw [(Task.transition_eq_ok ht).2]
    rfl

theorem teardown_saving {task t : Task} (h : teardown now task = .saving t) : t.state = .cancelled := by
  unfold teardown at h
  split at h
  · cases h
  · cases h
  · exact markCancelled_saving h

theorem signal_inv {r : Result (Option Task)} (h : signal now r cell c = (pc, cell')) :
    Step c cell .run pc cell' := by
  unfold signal at h
  split at h
  · cases h; exact .quiet rfl nofun
  · rename_i task ht
    cases hb : cell.slot with
    | none =>
      rw [hb] at h
      cases h
      exact .miss ht hb fun t => teardown_saving
    | some b =>
      rw [hb] at h
      cases h
      exact .hit ht hb

theorem step_inv (h : CancelTask.step now c e cell = some (pc, cell')) : Step c cell e pc cell' := by
  unfold CancelTask.step at h
  split at h
  · cases h; exact .quiet rfl nofun
  · cases h; exact .quiet rfl nofun
  · exact signal_inv (Option.some.inj h)
  · rename_i hpc; cases h; exact .quiet rfl fun _ => by rw [hpc]; rfl
  · rename_i hpc; cases h; exact .removed (by rw [hpc]; rfl) fun t => markCancelled_saving
  · rename_i hpc; cases h; exact .commit hpc _
  · cases h; exact .quiet rfl nofun
  · rename_i hpc; cases h; exact .quiet rfl fun _ => by rw [hpc]; rfl
  · rename_i hpc; cases h; exact .quiet rfl fun _ => by rw [hpc]; rfl
  · cases h
  · cases h
  · cases h; exact .quiet rfl nofun
  · cases h

end CancelTask

namespace World

variable {S : Setup} {w w' : World} {e : Event}

inductive Step (S : Setup) (w : World) : Event → World → Prop
  | run {e : Cmlb.Event} {r : Run} (hs : Run.Step S w.run e r) : Step S w (.run e) (w.afterRun e r)
  | request (chat : ChatId) :
      Step S w (.request chat) { w with cancels := w.cancels ++ [{ request := ⟨S.taskId, chat⟩ }] }
  | cancel {i : Nat} {e : CancelTask.Event} {c : CancelTask.Call} {pc : CancelTask.Pc} {cell : Cell}
      (hc : w.cancels[i]? = some c) (hs : CancelTask.Step c w.cell e pc cell) :
      Step S w (.cancel i e) { w with cell := cell, cancels := w.cancels.set i { c with pc := pc } }

theorem step_inv (h : World.step S w e = some w') : Step S w e w' := by
  cases e with
  | run e =>
    dsimp only [World.step] at h
    split at h
    · obtain ⟨r, hr, rfl⟩ := Option.map_eq_some_iff.1 h
      exact .run (Run.step_inv hr)
    · cases h
  | request chat => cases h; exact .request chat
  | cancel i e =>
    dsimp only [World.step] at h
    split at h
    · cases h
    · rename_i c hc
      obtain ⟨⟨pc, cell⟩, hs, rfl⟩ := Option.map_eq_some_iff.1 h
      exact .cancel hc (CancelTask.step_inv hs)

/-- What holds of every call still does after a step of one of them that keeps it. -/
theorem forall_cancels {P : CancelTask.Call → Prop} {i : Nat} {c : CancelTask.Call}
    (h : ∀ d ∈ w.cancels, P d) (hc : P c) : ∀ d ∈ w.cancels.set i c, P d := by
  intro d hd
  rcases List.mem_or_eq_of_mem_set hd with hd | rfl
  · exact h d hd
  · exact hc

/-- The run is registered exactly while `active_guard` is alive. -/
structure Registered (S : Setup) (w : World) : Prop where
  inv : w.run.Inv S
  slot : w.cell.slot.isSome = w.run.pc.guarded

theorem registered_init (S : Setup) : S.world.Registered S := ⟨Run.inv_init S, rfl⟩

theorem Registered.step (h : w.Registered S) (hs : Step S w e w') : w'.Registered S := by
  cases hs with
  | @run e r hs =>
    refine ⟨h.inv.step hs, ?_⟩
    have hslot := h.slot
    show (w.slotAfter r).isSome = r.pc.guarded
    unfold slotAfter
    cases hg' : r.pc.guarded <;> cases hg : w.run.pc.guarded <;>
      simp only [Bool.false_eq_true, if_true, if_false, Option.isSome_none,
        ActiveTaskRegistry.registerTask, Option.isSome_some]
    · exact hslot.trans hg
    · exact hslot.trans hg
  | request chat => exact ⟨h.inv, h.slot⟩
  | cancel hc hs =>
    refine ⟨h.inv, ?_⟩
    cases hs with
    | hit ht hb => have := h.slot; rw [hb] at this; exact this
    | @commit task hpc r => cases r <;> exact h.slot
    | _ => exact h.slot

/-- Without `active_guard` the registry holds nothing. -/
theorem Registered.slot_eq_none (h : w.Registered S) (hg : w.run.pc.guarded = false) :
    w.cell.slot = none := by
  have hs := h.slot
  rw [hg] at hs
  exact Option.isSome_eq_false_iff.1 hs |> Option.isNone_iff_eq_none.1

/-! ### Terminal rows -/

def finished (row : Option Task) : Bool :=
  row.any fun task => task.state == .completed || task.state == .failed

/-- A `CancelTask` call goes to the registry with a live copy and misses the run: it is not
registered yet, or it has ended and the row is `Completed` or `Failed` by now. -/
def overtakes (w : World) (e : Event) : Bool :=
  match e with
  | .cancel i .run =>
    match w.cancels[i]? with
    | some c => c.target.isSome && w.cell.slot.isNone && (!w.run.pc.over || finished w.cell.row)
    | none => false
  | _ => false

/-- What holds as long as no lookup overtakes the run. -/
structure Absorbing (S : Setup) (w : World) : Prop where
  reg : w.Registered S
  alone : ∀ c ∈ w.cancels, c.pc.tearing = true → w.run.pc.over = true
  unfinished : ∀ c ∈ w.cancels, c.pc.tearing = true → finished w.cell.row = false
  cancelled : ∀ c ∈ w.cancels, ∀ t, c.pc = .saving t → t.state = .cancelled
  settled : ∀ t, w.cell.row = some t → t.isTerminal = true → w.run.pc.over = false →
    w.run.pc.settled = true

theorem absorbing_init (S : Setup) : S.world.Absorbing S := by
  have hnone : ∀ c ∈ S.world.cancels, False := fun c hc => by cases hc
  refine ⟨registered_init S, fun c hc => (hnone c hc).elim, fun c hc => (hnone c hc).elim,
    fun c hc => (hnone c hc).elim, fun t ht => ?_⟩
  cases ht

/-- A save of the run is one of a run that has not ended. -/
theorem rowAfter_eq {e : Cmlb.Event} {r : Run} (hs : Run.Step S w.run e r) :
    w.rowAfter e = w.cell.row ∨
      ∃ x, e = .commit x ∧ w.rowAfter e = some w.run.task ∧ w.run.pc.over = false ∧
        w.run.pc.settled = false := by
  cases e with
  | commit x =>
    cases x with
    | error err => exact .inl rfl
    | ok u =>
      refine .inr ⟨_, rfl, rfl, ?_⟩
      rcases Run.step_commit hs with ⟨hpc, _⟩ | ⟨k, hpc, _⟩
      · rw [hpc]; exact ⟨rfl, rfl⟩
      · rw [hpc]; exact ⟨rfl, rfl⟩
  | _ => exact .inl rfl

theorem over_mono {e : Cmlb.Event} {r : Run} (hs : Run.Step S w.run e r) (h : r.pc.over = false) :
    w.run.pc.over = false := by
  by_contra ho
  rw [Bool.not_eq_false] at ho
  rw [Run.over_step ho hs, ho] at h
  cases h

theorem absorbing_run (h : w.Absorbing S) {e : Cmlb.Event} {r : Run} (hs : Run.Step S w.run e r) :
    (w.afterRun e r).Absorbing S := by
  have hover : ∀ c ∈ w.cancels, c.pc.tearing = true → r.pc.over = true := by
    intro c hc ht
    have ho := h.alone c hc ht
    rw [Run.over_step ho hs]
    exact ho
  refine ⟨h.reg.step (.run hs), hover, ?_, h.cancelled, ?_⟩
  · intro c hc ht
    have ho := h.alone c hc ht
    show finished (w.rowAfter e) = false
    rcases rowAfter_eq hs with hrow | ⟨x, _, _, hno, _⟩
    · rw [hrow]; exact h.unfinished c hc ht
    · rw [ho] at hno; cases hno
  · intro t hrow hterm hno
    have hno' := over_mono hs hno
    rcases rowAfter_eq hs with hsame | ⟨x, rfl, hsave, _, _⟩
    · have hrow : w.rowAfter e = some t := hrow
      rw [hsame] at hrow
      exact Run.settled_step (h.settled t hrow hterm hno') hs
    · have hrow : w.rowAfter (.commit x) = some t := hrow
      rw [hsave] at hrow
      cases hrow
      exact Run.settled_of_commit h.reg.inv hs hterm

theorem absorbing_cancel (h : w.Absorbing S) {i : Nat} {e : CancelTask.Event} {c : CancelTask.Call}
    {pc : CancelTask.Pc} {cell : Cell} (hc : w.cancels[i]? = some c)
    (hs : CancelTask.Step c w.cell e pc cell) (hg : w.overtakes (.cancel i e) = false) :
    Absorbing S { w with cell := cell, cancels := w.cancels.set i { c with pc := pc } } := by
  have hmem : c ∈ w.cancels := List.mem_of_getElem? hc
  have hreg := h.reg.step (.cancel (S := S) hc hs)
  cases hs with
  | quiet ht ha =>
    have hnot : pc.tearing ≠ true := by rw [ht]; exact Bool.false_ne_true
    have hsave : ∀ t, pc ≠ .saving t := by
      rintro t rfl
      exact hnot rfl
    refine ⟨hreg, ?_, ?_, ?_, h.settled⟩
    · exact forall_cancels h.alone fun htear => absurd htear hnot
    · exact forall_cancels h.unfinished fun htear => absurd htear hnot
    · exact forall_cancels h.cancelled fun t hpc => absurd hpc (hsave t)
  | hit ht hb =>
    refine ⟨hreg, ?_, ?_, ?_, h.settled⟩
    · exact forall_cancels h.alone fun htear => by cases htear
    · exact forall_cancels h.unfinished fun htear => by cases htear
    · exact forall_cancels h.cancelled fun t hsave => by cases hsave
  | miss ht hb hp =>
    -- the guard: the run has ended and the row is not finished
    have hg' : w.run.pc.over = true ∧ finished w.cell.row = false := by
      simpa [overtakes, hc, ht, hb] using hg
    exact ⟨hreg, fun _ _ _ => hg'.1, fun _ _ _ => hg'.2, forall_cancels h.cancelled hp, h.settled⟩
  | removed ht hp =>
    refine ⟨hreg, fun _ _ _ => h.alone c hmem ht, fun _ _ _ => h.unfinished c hmem ht, ?_, h.settled⟩
    exact forall_cancels h.cancelled hp
  | @commit task hpc r =>
    have htear : c.pc.tearing = true := by rw [hpc]; rfl
    have hover := h.alone c hmem htear
    have hstate := h.cancelled c hmem task hpc
    refine ⟨hreg, fun _ _ _ => hover, fun _ _ _ => ?_, ?_, ?_⟩
    · cases r with
      | error err => exact h.unfinished c hmem htear
      | ok u => simp [CancelTask.commit, finished, hstate]
    · exact forall_cancels h.cancelled fun t hsave => by cases hsave
    · intro t _ _ hno
      change w.run.pc.over = false at hno
      rw [hover] at hno
      cases hno

theorem Absorbing.step (h : w.Absorbing S) (hs : Step S w e w') (hg : w.overtakes e = false) :
    w'.Absorbing S := by
  cases hs with
  | run hs => exact absorbing_run h hs
  | request chat =>
    have hold : ∀ c ∈ w.cancels ++ [{ request := ⟨S.taskId, chat⟩ }], c ∈ w.cancels ∨ c.pc = .finding := by
      intro c hc
      rcases List.mem_append.1 hc with hc | hc
      · exact .inl hc
      · rw [List.mem_singleton] at hc
        exact .inr (by rw [hc])
    refine ⟨h.reg.step (.request chat), ?_, ?_, ?_, h.settled⟩
    · intro c hc ht
      rcases hold c hc with hc | hpc
      · exact h.alone c hc ht
      · rw [hpc] at ht; cases ht
    · intro c hc ht
      rcases hold c hc with hc | hpc
      · exact h.unfinished c hc ht
      · rw [hpc] at ht; cases ht
    · intro c hc t hsave
      rcases hold c hc with hc | hpc
      · exact h.cancelled c hc t hsave
      · rw [hpc] at hsave; cases hsave
  | cancel hc hs => exact absorbing_cancel h hc hs hg

theorem absorb_step (h : w.Absorbing S) (hs : Step S w e w') {t : Task} (hrow : w.cell.row = some t)
    (ht : t.isTerminal = true) : ∃ t', w'.cell.row = some t' ∧ t'.state = t.state := by
  cases hs with
  | @run e r hs =>
    rcases rowAfter_eq hs with hsame | ⟨x, _, _, hno, hset⟩
    · exact ⟨t, hsame.trans hrow, rfl⟩
    · rw [h.settled t hrow ht hno] at hset
      cases hset
  | request chat => exact ⟨t, hrow, rfl⟩
  | @cancel i e c pc cell hc hs =>
    cases hs with
    | @commit task hpc r =>
      cases r with
      | error err => exact ⟨t, hrow, rfl⟩
      | ok u =>
        have hmem : c ∈ w.cancels := List.mem_of_getElem? hc
        have hun := h.unfinished c hmem (by rw [hpc]; rfl)
        refine ⟨task, rfl, (h.cancelled c hmem task hpc).trans ?_⟩
        -- neither `Completed` nor `Failed`, so the row was `Cancelled` before
        rw [hrow] at hun
        simp only [finished, Option.any_some, Bool.or_eq_false_iff, beq_eq_false_iff_ne] at hun
        cases hst : t.state <;> simp_all [Task.isTerminal, TaskState.isTerminal]
    | _ => exact ⟨t, hrow, rfl⟩

/-- As long as no `CancelTask` lookup overtakes the run, a terminal row never changes its state
again. -/
theorem terminal_row_absorbs (S : Setup) {t₁ t₂ : List Event} {w₁ w₂ : World} {task : Task}
    (h₁ : S.worldMachine.Steps (fun w e => overtakes w e = false) S.world t₁ w₁)
    (hrow : w₁.cell.row = some task) (hterm : task.isTerminal = true)
    (h₂ : S.worldMachine.Steps (fun w e => overtakes w e = false) w₁ t₂ w₂) :
    ∃ task', w₂.cell.row = some task' ∧ task'.state = task.state := by
  have habs : w₁.Absorbing S :=
    h₁.invariant (absorbing_init S) fun _ _ _ hg h hs => h.step (step_inv hs) hg
  have hfinal : w₂.Absorbing S ∧ ∃ task', w₂.cell.row = some task' ∧ task'.state = task.state := by
    refine h₂.invariant (I := fun w => w.Absorbing S ∧
      ∃ task', w.cell.row = some task' ∧ task'.state = task.state) ⟨habs, task, hrow, rfl⟩ ?_
    rintro w e w' hg ⟨h, t, ht, hst⟩ hs
    have hs := step_inv hs
    have hterm' : t.isTerminal = true := by
      unfold Task.isTerminal
      rw [hst]
      exact hterm
    obtain ⟨t', ht', hst'⟩ := absorb_step h hs ht hterm'
    exact ⟨h.step hs hg, t', ht', hst'.trans hst⟩
  exact hfinal.2

/-- The run has written its first row and has not resumed yet; a cancel request comes in, finds
nobody registered and marks the row `Cancelled`. -/
def overtakingTrace : List Event :=
  [.run .run, .run (.settings (.ok none)), .run (.sent (.ok ⟨7⟩)), .run (.commit (.ok ())),
    .request ⟨2⟩, .cancel 0 (.find none), .cancel 0 .run, .cancel 0 (.commit (.ok ()))]

set_option maxRecDepth 4000 in
/-- The run goes on and replaces the `Cancelled` row. -/
theorem cancelled_row_overwritten : ¬ ∀ (S : Setup) (t₁ t₂ : List Event) (w₁ w₂ : World) (task : Task),
    S.worldMachine.Runs S.world t₁ w₁ → w₁.cell.row = some task → task.isTerminal = true →
      S.worldMachine.Runs w₁ t₂ w₂ → ∃ task', w₂.cell.row = some task' ∧ task'.state = task.state := by
  intro hall
  have hobs : ((Setup.sample MirrorUrl.useCase 1 true).worldMachine.run
      (Setup.sample MirrorUrl.useCase 1 true).world overtakingTrace).map
        (fun w => (w.cell.row.map (·.state),
          ((Setup.sample MirrorUrl.useCase 1 true).worldMachine.run w
            [.run .run, .run (.commit (.ok ()))]).map (fun w => w.cell.row.map (·.state)))) =
      some (some .cancelled, some (some .downloading)) := by decide
  obtain ⟨w₁, hw₁, ho⟩ := Machine.exists_runs hobs
  simp only [Prod.mk.injEq] at ho
  obtain ⟨task, hrow, hstate⟩ := Option.map_eq_some_iff.1 ho.1
  obtain ⟨w₂, hw₂, ho₂⟩ := Machine.exists_runs ho.2
  obtain ⟨task', hrow', hsame⟩ := hall _ _ _ w₁ w₂ task hw₁ hrow
    (by simp [Task.isTerminal, hstate, TaskState.isTerminal]) hw₂
  rw [hrow', Option.map_some, Option.some.injEq, hsame, hstate] at ho₂
  cases ho₂

/-- A request finds the run registered; the run sees the flag and writes the `Cancelled` row. -/
def signalledTrace : List Event :=
  Event.toLoop.map .run ++ [.request ⟨2⟩, .cancel 0 (.find none), .cancel 0 .run,
    .run (.head false true), .run .tick, .run (.removed (.ok ())), .run (.commit (.ok ()))]

def lateRequest : List Event :=
  [.request ⟨2⟩, .cancel 1 (.find none), .cancel 1 .run, .cancel 0 (.sent (.ok ⟨8⟩))]

set_option maxRecDepth 4000 in
theorem cancelled_row_kept :
    ∃ w₁ w₂ task, (Setup.sample MirrorUrl.useCase 1 true).worldMachine.Runs
        (Setup.sample MirrorUrl.useCase 1 true).world signalledTrace w₁ ∧
      w₁.cell.row = some task ∧ task.state = .cancelled ∧
      (Setup.sample MirrorUrl.useCase 1 true).worldMachine.Runs w₁ lateRequest w₂ ∧
      ∃ task', w₂.cell.row = some task' ∧ task'.state = .cancelled := by
  have hobs : ((Setup.sample MirrorUrl.useCase 1 true).worldMachine.runIf (fun w e => !overtakes w e)
      (Setup.sample MirrorUrl.useCase 1 true).world signalledTrace).map
        (fun w => (w.cell.row.map (·.state),
          ((Setup.sample MirrorUrl.useCase 1 true).worldMachine.runIf (fun w e => !overtakes w e) w
            lateRequest).map (fun w => w.cancels.length))) =
      some (some .cancelled, some 2) := by decide
  have hguard : ∀ (w : World) (e : Event), (!overtakes w e) = true → overtakes w e = false :=
    fun w e h => by simpa using h
  obtain ⟨w₁, hw₁, ho⟩ := Machine.exists_steps hobs
  simp only [Prod.mk.injEq] at ho
  obtain ⟨task, hrow, hstate⟩ := Option.map_eq_some_iff.1 ho.1
  obtain ⟨w₂, hw₂, _⟩ := Machine.exists_steps ho.2
  have hterm : task.isTerminal = true := by simp [Task.isTerminal, hstate, TaskState.isTerminal]
  obtain ⟨task', hrow', hsame⟩ :=
    terminal_row_absorbs _ (hw₁.mono hguard) hrow hterm (hw₂.mono hguard)
  exact ⟨w₁, w₂, task, hw₁.runs, hrow, hstate, hw₂.runs, task', hrow', hsame.trans hstate⟩

/-! ### Acknowledged requests -/

/-- A request is ignored: the lookup misses a run that is not registered yet, or it hits one that
has left the poll loop for its completion; or the run leaves the loop with the flag set. -/
def ignores (w : World) (e : Event) : Bool :=
  match e with
  | .cancel i .run =>
    match w.cancels[i]? with
    | some c => c.target.isSome &&
        (if w.cell.slot.isSome then w.run.pc.pastLoop else !w.run.pc.over)
    | none => false
  | .run .run =>
    w.run.pc == .checking && ActiveTaskRegistry.cancelled w.cell.slot && w.run.check.pc == .afterLoop
  | _ => false

/-- What holds as long as no request is ignored. -/
structure Heeding (S : Setup) (w : World) : Prop where
  reg : w.Registered S
  flagged : w.cell.slot = some true → w.run.pc.pastLoop = false
  acked : ∀ c ∈ w.cancels, c.pc.acked = true → w.cell.slot = some true ∨ w.run.pc.over = true

theorem heeding_init (S : Setup) : S.world.Heeding S := by
  refine ⟨registered_init S, fun h => ?_, fun c hc => ?_⟩
  · cases h
  · cases hc

/-- The flag stays set until the run ends. -/
theorem told_run (h : w.Registered S) {e : Cmlb.Event} {r : Run} (hs : Run.Step S w.run e r)
    (ht : w.cell.slot = some true ∨ w.run.pc.over = true) :
    w.slotAfter r = some true ∨ r.pc.over = true := by
  rcases ht with ht | ht
  · have hg : w.run.pc.guarded = true := by rw [← h.slot, ht]; rfl
    rcases Run.guarded_step hg hs with hg' | ho
    · refine .inl ?_
      unfold slotAfter
      rw [if_pos hg', if_pos hg]
      exact ht
    · exact .inr ho
  · rw [Run.over_step ht hs]
    exact .inr ht

theorem heeding_run (h : w.Heeding S) {e : Cmlb.Event} {r : Run} (hs : Run.Step S w.run e r)
    (hg : w.ignores (.run e) = false) : (w.afterRun e r).Heeding S := by
  refine ⟨h.reg.step (.run hs), fun hslot => ?_, fun c hc ha => told_run h.reg hs (h.acked c hc ha)⟩
  -- the flag was set before: a fresh slot is not flagged
  have hold : w.cell.slot = some true := by
    change w.slotAfter r = some true at hslot
    unfold slotAfter at hslot
    cases hgr : w.run.pc.guarded with
    | true =>
      cases hg' : r.pc.guarded with
      | true => simpa [hgr, hg'] using hslot
      | false => simp [hgr, hg'] at hslot
    | false =>
      rw [h.reg.slot_eq_none hgr] at hslot
      cases hg' : r.pc.guarded <;> simp [hgr, hg', ActiveTaskRegistry.registerTask] at hslot
  by_contra hpast
  rw [Bool.not_eq_false] at hpast
  rcases Run.pastLoop_step hs hpast with hbefore | ⟨hpc, rfl, rfl⟩
  · rw [h.flagged hold] at hbefore
    cases hbefore
  · have hleft : w.run.check.pc = .afterLoop := by
      change w.run.check.pc.pastLoop = true at hpast
      unfold Run.check at hpast ⊢
      split at hpast
      · cases hpast
      · split at hpast
        · rename_i h1 h2; rw [if_neg h1, if_pos h2]
        · cases hpast
    simp [ignores, hpc, hold, hleft, ActiveTaskRegistry.cancelled] at hg

theorem heeding_cancel (h : w.Heeding S) {i : Nat} {e : CancelTask.Event} {c : CancelTask.Call}
    {pc : CancelTask.Pc} {cell : Cell} (hc : w.cancels[i]? = some c)
    (hs : CancelTask.Step c w.cell e pc cell) (hg : w.ignores (.cancel i e) = false) :
    Heeding S { w with cell := cell, cancels := w.cancels.set i { c with pc := pc } } := by
  have hmem : c ∈ w.cancels := List.mem_of_getElem? hc
  have hreg := h.reg.step (.cancel (S := S) hc hs)
  cases hs with
  | quiet ht ha =>
    exact ⟨hreg, h.flagged, forall_cancels h.acked fun had => h.acked c hmem (ha had)⟩
  | hit ht hb =>
    have hpast : w.run.pc.pastLoop = false := by simpa [ignores, hc, ht, hb] using hg
    exact ⟨hreg, fun _ => hpast, fun _ _ _ => .inl rfl⟩
  | miss ht hb hp =>
    have hover : w.run.pc.over = true := by simpa [ignores, hc, ht, hb] using hg
    exact ⟨hreg, h.flagged, fun _ _ _ => .inr hover⟩
  | removed ht hp =>
    have hack : c.pc.acked = true := by
      cases hpc : c.pc <;> rw [hpc] at ht <;> first | rfl | cases ht
    have htold := h.acked c hmem hack
    exact ⟨hreg, h.flagged, fun _ _ _ => htold⟩
  | @commit task hpc r =>
    have htold := h.acked c hmem (by rw [hpc]; rfl)
    cases r <;> exact ⟨hreg, h.flagged, fun _ _ _ => htold⟩

theorem Heeding.step (h : w.Heeding S) (hs : Step S w e w') (hg : w.ignores e = false) :
    w'.Heeding S := by
  cases hs with
  | run hs => exact heeding_run h hs hg
  | request chat =>
    refine ⟨h.reg.step (.request chat), h.flagged, fun c hc ha => ?_⟩
    rcases List.mem_append.1 hc with hc | hc
    · exact h.acked c hc ha
    · rw [List.mem_singleton] at hc
      rw [hc] at ha
      cases ha
  | cancel hc hs => exact heeding_cancel h hc hs hg

/-- The run was told to stop, or has ended, and has not persisted `Completed`. -/
structure Told (S : Setup) (w : World) : Prop where
  heeding : w.Heeding S
  told : w.cell.slot = some true ∨ w.run.pc.over = true
  persisted : ∀ task ∈ w.run.persisted, task.state ≠ .completed

theorem Told.step (h : w.Told S) (hs : Step S w e w') (hg : w.ignores e = false) : w'.Told S := by
  have hh := h.heeding.step hs hg
  cases hs with
  | @run e r hs =>
    refine ⟨hh, told_run h.heeding.reg hs h.told, ?_⟩
    show ∀ task ∈ r.persisted, task.state ≠ .completed
    rcases Run.persisted_step hs with hsame | ⟨⟨x, rfl⟩, hsave⟩
    · rw [hsame]
      exact h.persisted
    · rw [hsave]
      intro task htask
      rcases List.mem_cons.1 htask with rfl | htask
      · -- a flagged run is not past the loop, and one that has ended does not save
        intro hst
        have hpast := Run.pastLoop_of_commit h.heeding.reg.inv hs hst
        rcases h.told with hslot | hover
        · rw [h.heeding.flagged hslot] at hpast
          cases hpast
        · rcases Run.step_commit hs with ⟨hpc, _⟩ | ⟨k, hpc, _⟩ <;> rw [hpc] at hover <;> cases hover
      · exact h.persisted task htask
  | request chat => exact ⟨hh, h.told, h.persisted⟩
  | cancel hc hs =>
    refine ⟨hh, ?_, h.persisted⟩
    cases hs with
    | hit ht hb => exact .inl rfl
    | @commit task hpc r => cases r <;> exact h.told
    | _ => exact h.told

/-- As long as no request is ignored, a run never persists `Completed` after a `CancelTask` call has
returned success before the run saved a terminal state. -/
theorem acknowledged_cancel_honoured (S : Setup) {t₁ t₂ : List Event} {w₁ w₂ : World}
    {c : CancelTask.Call} (h₁ : S.worldMachine.Steps (fun w e => ignores w e = false) S.world t₁ w₁)
    (hc : c ∈ w₁.cancels) (hack : c.pc = .returned (.ok ()))
    (hearly : ∀ task ∈ w₁.run.persisted, task.isTerminal = false)
    (h₂ : S.worldMachine.Steps (fun w e => ignores w e = false) w₁ t₂ w₂) :
    ∀ task ∈ w₂.run.persisted, task.state ≠ .completed := by
  have hheed : w₁.Heeding S :=
    h₁.invariant (heeding_init S) fun _ _ _ hg h hs => h.step (step_inv hs) hg
  have htold : w₁.Told S := by
    refine ⟨hheed, hheed.acked c hc (by rw [hack]; rfl), fun task htask hst => ?_⟩
    have := hearly task htask
    simp [Task.isTerminal, hst, TaskState.isTerminal] at this
  exact (h₂.invariant htold fun _ _ _ hg h hs => h.step (step_inv hs) hg).persisted

theorem not_terminal_of_map {tasks : List Task} {flags : List Bool}
    (h : tasks.map (·.isTerminal) = flags) (hflags : true ∉ flags) :
    ∀ task ∈ tasks, task.isTerminal = false := by
  intro task htask
  rw [← Bool.not_eq_true]
  intro hterminal
  rw [← h, ← hterminal] at hflags
  exact hflags (List.mem_map_of_mem htask)

/-- The request arrives, and is acknowledged, while the fallback is uploading the directory. -/
def ignoredTrace : List Event :=
  Event.toLoop.map .run ++ [.run (.head false false),
    .run (.status (.ok { state := .complete, files := ["a"], savePath := some "d" })),
    .run .rendered, .run .run, .run .run, .run (.commit (.ok ())), .run .run, .run (.edited (.ok ())),
    .request ⟨2⟩, .cancel 0 (.find none), .cancel 0 .run, .cancel 0 (.sent (.ok ⟨8⟩))]

set_option maxRecDepth 4000 in
theorem acknowledged_cancel_ignored : ¬ ∀ (S : Setup) (t₁ t₂ : List Event) (w₁ w₂ : World)
    (c : CancelTask.Call), S.worldMachine.Runs S.world t₁ w₁ → c ∈ w₁.cancels →
      c.pc = .returned (.ok ()) → (∀ task ∈ w₁.run.persisted, task.isTerminal = false) →
      S.worldMachine.Runs w₁ t₂ w₂ → ∀ task ∈ w₂.run.persisted, task.state ≠ .completed := by
  intro hall
  have hobs : ((Setup.sample MirrorUrl.useCase 1 false).worldMachine.run
      (Setup.sample MirrorUrl.useCase 1 false).world ignoredTrace).map
        (fun w => (w.cancels, w.run.persisted.map (·.isTerminal),
          ((Setup.sample MirrorUrl.useCase 1 false).worldMachine.run w
            [.run (.directory (.ok [⟨"x", "", 0, 0⟩])), .run (.commit (.ok ()))]).map
              (fun w => w.run.persisted.head?.map (·.state)))) =
      some ([⟨⟨⟨"t1"⟩, ⟨2⟩⟩, .returned (.ok ())⟩], [false, false, false, false],
        some (some .completed)) := by decide
  obtain ⟨w₁, hw₁, ho⟩ := Machine.exists_runs hobs
  simp only [Prod.mk.injEq] at ho
  obtain ⟨hcs, hper, hrest⟩ := ho
  obtain ⟨w₂, hw₂, ho₂⟩ := Machine.exists_runs hrest
  obtain ⟨task, htask, hst⟩ := Option.map_eq_some_iff.1 ho₂
  have hearly : ∀ task ∈ w₁.run.persisted, task.isTerminal = false := not_terminal_of_map hper (by decide)
  refine hall _ _ _ w₁ w₂ _ hw₁ (by rw [hcs]; exact List.mem_cons_self) rfl hearly hw₂ task ?_ hst
  exact List.mem_of_mem_head? htask

set_option maxRecDepth 4000 in
/-- A request that is acknowledged before the first poll. -/
theorem acknowledged_cancel_seen :
    ∃ w₁ w₂, (Setup.sample LeechUrl.useCase 1 true).worldMachine.Runs
        (Setup.sample LeechUrl.useCase 1 true).world
        (Event.toLoop.map .run ++ [.request ⟨2⟩, .cancel 0 (.find none), .cancel 0 .run,
          .cancel 0 (.sent (.ok ⟨8⟩))]) w₁ ∧
      (Setup.sample LeechUrl.useCase 1 true).worldMachine.Runs w₁
        [.run (.head false true), .run .tick, .run (.removed (.ok ())), .run (.commit (.ok ()))] w₂ ∧
      w₂.run.persisted.length = 4 ∧ ∀ task ∈ w₂.run.persisted, task.state ≠ .completed := by
  have hobs : ((Setup.sample LeechUrl.useCase 1 true).worldMachine.runIf (fun w e => !ignores w e)
      (Setup.sample LeechUrl.useCase 1 true).world
      (Event.toLoop.map .run ++ [.request ⟨2⟩, .cancel 0 (.find none), .cancel 0 .run,
        .cancel 0 (.sent (.ok ⟨8⟩))])).map
        (fun w => (w.cancels, w.run.persisted.map (·.isTerminal),
          ((Setup.sample LeechUrl.useCase 1 true).worldMachine.runIf (fun w e => !ignores w e) w
            [.run (.head false true), .run .tick, .run (.removed (.ok ())), .run (.commit (.ok ()))]).map
              (fun w => w.run.persisted.length))) =
      some ([⟨⟨⟨"t1"⟩, ⟨2⟩⟩, .returned (.ok ())⟩], [false, false, false], some 4) := by decide
  have hguard : ∀ (w : World) (e : Event), (!ignores w e) = true → ignores w e = false :=
    fun w e h => by simpa using h
  obtain ⟨w₁, hw₁, ho⟩ := Machine.exists_steps hobs
  simp only [Prod.mk.injEq] at ho
  obtain ⟨hcs, hper, hrest⟩ := ho
  obtain ⟨w₂, hw₂, hlen⟩ := Machine.exists_steps hrest
  have hearly : ∀ task ∈ w₁.run.persisted, task.isTerminal = false := not_terminal_of_map hper (by decide)
  exact ⟨w₁, w₂, hw₁.runs, hw₂.runs, hlen, acknowledged_cancel_honoured _ (hw₁.mono hguard)
    (by rw [hcs]; exact List.mem_cons_self) rfl hearly (hw₂.mono hguard)⟩

end World

end Cmlb
