import Cmlb.Application.ManyTasks

/-!
# The tasks of a run that is gone

A process that ends leaves the rows of its tasks, and no run of a later process has their ids. Such a row is
not in the registry, so that a cancel does the teardown itself, from what it has loaded, while others may do
the same. `orphan_kept_or_cancelled`: whatever else the bot does, the row stays as it is until its own chat
has it cancelled, and then it stays cancelled; a cancel that reports success has done it.
-/

namespace Cmlb

namespace CancelTask

variable {task : Task} {cell cell' : Cell} {call : Call} {e : Event} {now : Time} {pc : Pc}

/-- The row is that of the task, marked as cancelled at some time. -/
def Done (task : Task) (cell : Cell) : Prop :=
  ∃ now task', task.markCancelled now = .ok task' ∧ cell.row = some task'

/-- Only the task, marked as cancelled at some time, is held. -/
def Cancelled (task : Task) (cell : Cell) : Prop :=
  ∃ now task', task.markCancelled now = .ok task' ∧ cell = ⟨some task', none⟩

/-- What is held under the id of a task that no run has. -/
structure Left (task : Task) (cell : Cell) : Prop where
  slot : cell.slot = none
  row : cell.row = some task ∨ Done task cell

/-- What a call on the task is at. -/
def Handles (task : Task) (cell : Cell) : Pc → Prop
  | .loaded r => ∀ t, r = .ok (some t) → t = task ∨ t.isTerminal = true
  | .removing t => t = task
  | .saving t => ∃ now, task.markCancelled now = .ok t
  | .saved (.ok _) | .notifying | .returned (.ok _) => Done task cell
  | .acknowledging => False
  | _ => True

theorem Done.terminal {t : Task} (h : Done task cell) (ht : cell.row = some t) : t.isTerminal = true := by
  obtain ⟨now, task', hmark, hrow⟩ := h
  cases hrow.symm.trans ht
  rw [(Task.transition_eq_ok hmark).2]
  rfl

theorem Left.cancelled_iff (h : Left task cell) : Cancelled task cell ↔ Done task cell := by
  refine exists₂_congr fun now task' => and_congr_right fun _ => ⟨congrArg Cell.row, fun hrow => ?_⟩
  rw [← hrow, ← h.slot]

theorem handles_markCancelled (now : Time) (task : Task) (cell : Cell) :
    Handles task cell (markCancelled now task) := by
  unfold markCancelled
  split
  · trivial
  · exact ⟨now, ‹_›⟩

theorem handles_teardown (now : Time) (task : Task) (cell : Cell) : Handles task cell (teardown now task) := by
  unfold teardown
  split
  · rfl
  · rfl
  · exact handles_markCancelled now task cell

/-- The call either refuses, or does the teardown of the task. -/
theorem handles_signal (now : Time) {r : Result (Option Task)} (hleft : Left task cell) (hpc : call.pc = .loaded r)
    (hh : Handles task cell call.pc) :
    ∃ pc, signal now r cell call = (pc, cell) ∧ Handles task cell pc := by
  unfold signal
  cases htarget : call.target with
  | none => exact ⟨_, rfl, trivial⟩
  | some t =>
    have ht : t = task := by
      unfold Call.target at htarget
      rw [hpc] at htarget hh
      split at htarget
      · rename_i u hu
        cases hu
        split_ifs at htarget with hok
        cases htarget
        refine (hh t rfl).resolve_right fun hterm => ?_
        rw [hok.2] at hterm
        cases hterm
      · cases htarget
    subst ht
    rw [hleft.slot]
    exact ⟨_, rfl, handles_teardown now t cell⟩

/-- A step of a call on the task leaves what is held, or saves the task as cancelled. -/
theorem left_step (hleft : Left task cell) (hh : Handles task cell call.pc)
    (hs : step now call e cell = some (pc, cell')) :
    Left task cell' ∧ Handles task cell' pc ∧ (cell' = cell ∨ Done task cell' ∧ ∃ t, call.pc = .saving t) := by
  unfold step at hs
  split at hs
  case h_1 =>
    cases hs
    refine ⟨hleft, fun t ht => ?_, .inl rfl⟩
    have hrow := Except.ok.inj ht
    rcases hleft.row with h | h
    · exact .inl (Option.some.inj (hrow.symm.trans h))
    · exact .inr (h.terminal hrow)
  case h_2 =>
    cases hs
    exact ⟨hleft, (fun t ht => nomatch ht), .inl rfl⟩
  case h_3 r hpc =>
    obtain ⟨pc₁, hsignal, hpc₁⟩ := handles_signal now hleft hpc hh
    rw [hsignal] at hs
    cases hs
    exact ⟨hleft, hpc₁, .inl rfl⟩
  case h_4 hpc =>
    rw [hpc] at hh
    exact hh.elim
  case h_5 t r hpc =>
    cases hs
    rw [hpc] at hh
    obtain rfl : t = task := hh
    exact ⟨hleft, handles_markCancelled now t cell, .inl rfl⟩
  case h_6 t r hpc =>
    cases hs
    rw [hpc] at hh
    cases r with
    | error err => exact ⟨hleft, trivial, .inl rfl⟩
    | ok x =>
      obtain ⟨at', hmark⟩ := hh
      have hdone : Done task { cell with row := some t } := ⟨at', t, hmark, rfl⟩
      exact ⟨⟨hleft.slot, .inr hdone⟩, hdone, .inr ⟨hdone, t, hpc⟩⟩
  case h_8 hpc =>
    cases hs
    rw [hpc] at hh
    exact ⟨hleft, hh, .inl rfl⟩
  case h_9 hpc =>
    cases hs
    rw [hpc] at hh
    exact ⟨hleft, hh, .inl rfl⟩
  all_goals cases hs
  all_goals exact ⟨hleft, trivial, .inl rfl⟩

/-- What others do under the id keeps a call where it is. -/
theorem Handles.mono (h : Handles task cell pc) (hdone : Done task cell → Done task cell') : Handles task cell' pc := by
  cases pc with
  | saved r | returned r =>
    cases r with
    | error err => trivial
    | ok x => exact hdone h
  | notifying => exact hdone h
  | _ => exact h

end CancelTask

namespace Bot

open TaskControl

variable {ι κ : Type} [DecidableEq ι] [DecidableEq κ] {op : ι → Op} {setup : κ → Setup} {home : TaskId → ChatId}
  {b b' : Bot ι κ} {id : TaskId} {task : Task} {x : Event ι κ}

/-- The task has been left under an id that no run has. -/
structure Orphaned (op : ι → Op) (home : TaskId → ChatId) (id : TaskId) (task : Task) (b : Bot ι κ) : Prop where
  left : CancelTask.Left task (b.board.cells id)
  asked : (b.board.cells id).row = some task ∨ ∃ i, Issues (op i) ⟨id, home id⟩
  calls : ∀ i call, current (b.commands i) = some call → call.request.taskId = id →
    CancelTask.Handles task (b.board.cells id) call.pc

omit [DecidableEq ι] [DecidableEq κ] in
/-- The cells under an id, and what the calls on it hold. -/
theorem Orphaned.congr (h : b.Orphaned op home id task) (hcell : b'.board.cells id = b.board.cells id)
    (hcalls : ∀ i call, current (b'.commands i) = some call → call.request.taskId = id →
      CancelTask.Handles task (b.board.cells id) call.pc) : b'.Orphaned op home id task where
  left := hcell ▸ h.left
  asked := hcell ▸ h.asked
  calls i call hc hid := hcell ▸ hcalls i call hc hid

omit [DecidableEq ι] [DecidableEq κ] in
theorem Sound.callOk {i : ι} {call : CancelTask.Call} (h : b.Sound op setup home)
    (hc : current (b.commands i) = some call) :
    CallOk home (fun t => (i, t) ∈ b.board.found) call := by
  have hown := h.own i
  cases hpc : b.commands i with
  | cancelling call' =>
    rw [hpc] at hc hown
    cases hc
    exact hown.2
  | sweeping listed rest call' result =>
    rw [hpc] at hc hown
    cases hc
    exact hown.2.1
  | _ =>
    rw [hpc] at hc
    cases hc

omit [DecidableEq κ] in
/-- A step of a command leaves the task so, and cancelled if it is. -/
theorem Orphaned.command {i : ι} {e : TaskControl.Event} {sh' : Board ι} {pc' : TaskControl.Pc}
    (h : b.Orphaned op home id task) (hb : b.Sound op setup home)
    (hact : act op i b.board (b.commands i) e = some (sh', pc')) :
    Orphaned op home id task { b with board := sh', commands := Function.update b.commands i pc' } ∧
      (CancelTask.Done task (b.board.cells id) → CancelTask.Done task (sh'.cells id)) := by
  obtain ⟨-, ⟨hcells, hfresh⟩ | ⟨now, call, y, pc₁, hcall, hx, hafter⟩⟩ := act_cases (hb.shaped i) hact
  · refine ⟨h.congr (congrFun hcells id) fun j call hc hid => ?_, fun hd => congrFun hcells id ▸ hd⟩
    change current (Function.update b.commands i pc' j) = some call at hc
    by_cases hj : j = i
    · subst hj
      rw [Function.update_self] at hc
      rw [hfresh call hc]
      trivial
    · rw [Function.update_of_ne hj] at hc
      exact h.calls j call hc hid
  have hok := hb.callOk hcall
  unfold execute at hx
  rw [hok.touches] at hx
  obtain ⟨⟨pc, cell⟩, hs, hx⟩ := Option.map_eq_some_iff.1 hx
  cases hx
  by_cases hid : call.request.taskId = id
  · rw [hid] at hs
    obtain ⟨hleft, hhandles, hcell⟩ := CancelTask.left_step h.left (h.calls i call hcall hid) hs
    have hdone : CancelTask.Done task (b.board.cells id) → CancelTask.Done task cell := fun hd => by
      rcases hcell with rfl | ⟨hd', -⟩
      exacts [hd, hd']
    have hupdate : Function.update b.board.cells call.request.taskId cell id = cell := by
      rw [hid, Function.update_self]
    refine ⟨⟨?_, ?_, fun j call' hc hid' => ?_⟩, fun hd => (congrArg (CancelTask.Done task) hupdate).mpr (hdone hd)⟩
    · show CancelTask.Left task (Function.update b.board.cells call.request.taskId cell id)
      rw [hupdate]
      exact hleft
    · show (Function.update b.board.cells call.request.taskId cell id).row = some task ∨ _
      rw [hupdate]
      rcases hcell with rfl | ⟨-, t, hpc⟩
      · exact h.asked
      · -- the call saves, so that it is of the chat that the id is at home in
        have hissues := (hb.shaped i).issues hcall
        have hhome := (hok.saving hpc).2.2
        refine .inr ⟨i, ?_⟩
        rw [← hid, hhome]
        exact hissues
    · show CancelTask.Handles task (Function.update b.board.cells call.request.taskId cell id) call'.pc
      rw [hupdate]
      change current (Function.update b.commands i pc' j) = some call' at hc
      by_cases hj : j = i
      · subst hj
        rw [Function.update_self] at hc
        rcases hafter call' hc with rfl | hfinding
        · exact hhandles
        · rw [hfinding]
          trivial
      · rw [Function.update_of_ne hj] at hc
        exact (h.calls j call' hc hid').mono hdone
  · have hsame : Function.update b.board.cells call.request.taskId cell id = b.board.cells id :=
      Function.update_of_ne (Ne.symm hid) ..
    refine ⟨h.congr hsame fun j call' hc hid' => ?_, fun hd => (congrArg (CancelTask.Done task) hsame).mpr hd⟩
    change current (Function.update b.commands i pc' j) = some call' at hc
    by_cases hj : j = i
    · subst hj
      rw [Function.update_self] at hc
      rcases hafter call' hc with rfl | hfinding
      · exact absurd hid' hid
      · rw [hfinding]
        trivial
    · rw [Function.update_of_ne hj] at hc
      exact h.calls j call' hc hid'

theorem Orphaned.step (h : b.Orphaned op home id task) (hb : b.Sound op setup home)
    (hnone : ∀ k, (setup k).taskId ≠ id) (hs : b.step op setup x = some b') :
    b'.Orphaned op home id task ∧
      (CancelTask.Done task (b.board.cells id) → CancelTask.Done task (b'.board.cells id)) := by
  cases x with
  | command i e =>
    obtain ⟨⟨sh', pc'⟩, hact, rfl⟩ := Option.map_eq_some_iff.1 hs
    exact h.command hb hact
  | run k e =>
    obtain ⟨w, -, rfl⟩ := Option.map_eq_some_iff.1 hs
    have hsame : Function.update b.board.cells (setup k).taskId w.cell id = b.board.cells id :=
      Function.update_of_ne (Ne.symm (hnone k)) ..
    exact ⟨h.congr hsame h.calls, fun hd => (congrArg (CancelTask.Done task) hsame).mpr hd⟩

omit [DecidableEq ι] [DecidableEq κ] in
theorem orphaned_start {cells : TaskId → Cell} (horphan : cells id = ⟨some task, none⟩) :
    (start op setup cells).Orphaned op home id task := by
  refine ⟨?_, .inl (congrArg Cell.row horphan), fun i call hc _ => ?_⟩
  · show CancelTask.Left task (cells id)
    rw [horphan]
    exact ⟨rfl, .inl rfl⟩
  · change current (op i).start = some call at hc
    cases hop : op i with
    | cancel =>
      rw [hop] at hc
      cases hc
      trivial
    | _ =>
      rw [hop] at hc
      cases hc

theorem orphaned_of_runs {cells : TaskId → Cell} {t : List (Event ι κ)}
    (hhome : ∀ k, home (setup k).taskId = (setup k).request.chat) (hk : Keyed home cells)
    (horphan : cells id = ⟨some task, none⟩) (hnone : ∀ k, (setup k).taskId ≠ id)
    (h : (machine op setup).Runs (start op setup cells) t b) :
    b.Sound op setup home ∧ b.Orphaned op home id task := by
  refine h.invariant (I := fun b => b.Sound op setup home ∧ b.Orphaned op home id task)
    ⟨sound_start hk, orphaned_start horphan⟩ fun b e b' _ hb hs => ?_
  exact ⟨hb.1.step hhome hs, (hb.2.step hb.1 hnone hs).1⟩

/-- A task that is cancelled stays cancelled. -/
theorem Orphaned.stays {t : List (Event ι κ)} (h : b.Orphaned op home id task) (hb : b.Sound op setup home)
    (hhome : ∀ k, home (setup k).taskId = (setup k).request.chat) (hnone : ∀ k, (setup k).taskId ≠ id)
    (hruns : (machine op setup).Runs b t b') (hc : CancelTask.Cancelled task (b.board.cells id)) :
    CancelTask.Cancelled task (b'.board.cells id) := by
  have hlater : b'.Sound op setup home ∧ b'.Orphaned op home id task ∧
      CancelTask.Done task (b'.board.cells id) := by
    refine hruns.invariant (I := fun b => b.Sound op setup home ∧ b.Orphaned op home id task ∧
      CancelTask.Done task (b.board.cells id)) ⟨hb, h, h.left.cancelled_iff.1 hc⟩ fun b e b' _ hi hs => ?_
    obtain ⟨hb, h, hd⟩ := hi
    obtain ⟨h', hkeeps⟩ := h.step hb hnone hs
    exact ⟨hb.step hhome hs, h', hkeeps hd⟩
  exact hlater.2.1.left.cancelled_iff.2 hlater.2.2

/-- The mirror of another process, whose chat cancels it. -/
def lostTask : Task := { (twoMirrors true).newTask ⟨7⟩ 0 with
  metadata := { ((twoMirrors true).newTask ⟨7⟩ 0).metadata with id := ⟨"t0"⟩ } }

def lostHomes (id : TaskId) : ChatId := ⟨if id = ⟨"t1"⟩ then 2 else 3⟩

def lostCells : TaskId → Cell := Function.update (fun _ => {}) ⟨"t0"⟩ ⟨some lostTask, none⟩

def cancelLost (_ : Unit) : Op := .cancel ⟨⟨"t0"⟩, ⟨3⟩⟩

def lostSetup (_ : Unit) : Setup := twoMirrors false

def cancelledLost : List (Event Unit Unit) :=
  [.command () (.execute 5 (.find none)), .command () (.execute 5 .run), .run () .run,
    .command () (.execute 6 (.commit (.ok ()))), .command () (.execute 6 .run),
    .command () (.execute 6 (.sent (.ok ⟨9⟩)))]

theorem cancelledLost_runs : ∃ b, (machine cancelLost lostSetup).Runs (start cancelLost lostSetup lostCells)
    cancelledLost b ∧ b.commands () = .cancelling ⟨⟨⟨"t0"⟩, ⟨3⟩⟩, .returned (.ok ())⟩ := by
  have hrun : ((machine cancelLost lostSetup).run (start cancelLost lostSetup lostCells) cancelledLost).map
      (fun b => match b.commands () with
        | .cancelling call => some call
        | _ => none) = some (some ⟨⟨⟨"t0"⟩, ⟨3⟩⟩, .returned (.ok ())⟩) := by
    decide +kernel
  obtain ⟨b, hb, ho⟩ := Machine.exists_runs hrun
  refine ⟨b, hb, ?_⟩
  cases hpc : b.commands () with
  | cancelling call =>
    rw [hpc] at ho
    cases ho
    rfl
  | _ =>
    rw [hpc] at ho
    cases ho

/-- The task of a run that is gone stays as it is until its own chat has it cancelled, and then it stays
cancelled, whatever else the bot does; when a cancel reports success it has been done. -/
theorem orphan_kept_or_cancelled (op : ι → Op) (setup : κ → Setup) (home : TaskId → ChatId)
    (cells : TaskId → Cell) (id : TaskId) (task : Task) (t : List (Event ι κ)) (b : Bot ι κ)
    (hhome : ∀ k, home (setup k).taskId = (setup k).request.chat) (hk : Keyed home cells)
    (horphan : cells id = ⟨some task, none⟩) (hnone : ∀ k, (setup k).taskId ≠ id)
    (h : (machine op setup).Runs (start op setup cells) t b) :
    (b.board.cells id = ⟨some task, none⟩ ∨
      (∃ i, Issues (op i) ⟨id, home id⟩) ∧ CancelTask.Cancelled task (b.board.cells id)) ∧
    (CancelTask.Cancelled task (b.board.cells id) → ∀ t' b', (machine op setup).Runs b t' b' →
      CancelTask.Cancelled task (b'.board.cells id)) ∧
    ∀ i x, b.commands i = .cancelling ⟨⟨id, home id⟩, .returned (.ok x)⟩ →
      CancelTask.Cancelled task (b.board.cells id) := by
  obtain ⟨hb, horph⟩ := orphaned_of_runs hhome hk horphan hnone h
  have hkept : (b.board.cells id).row = some task → b.board.cells id = ⟨some task, none⟩ := fun hrow => by
    rw [← hrow, ← horph.left.slot]
  refine ⟨?_, fun hc t' b' h' => horph.stays hb hhome hnone h' hc, fun i x hpc => ?_⟩
  · rcases horph.left.row with hrow | hd
    · exact .inl (hkept hrow)
    · exact horph.asked.imp hkept fun hi => ⟨hi, horph.left.cancelled_iff.2 hd⟩
  · exact horph.left.cancelled_iff.2 (horph.calls i _ (congrArg current hpc) rfl)

/-- The lost mirror is cancelled after its chat has asked for it. -/
theorem lost_cancelled : ∃ b : Bot Unit Unit, CancelTask.Cancelled lostTask (b.board.cells ⟨"t0"⟩) := by
  obtain ⟨b, hb, hpc⟩ := cancelledLost_runs
  refine ⟨b, (orphan_kept_or_cancelled cancelLost lostSetup lostHomes lostCells ⟨"t0"⟩ lostTask cancelledLost b
    (fun _ => rfl) ?_ rfl (fun _ => show (twoMirrors false).taskId ≠ ⟨"t0"⟩ by decide) hb).2.2 () () hpc⟩
  intro id task hrow
  by_cases hid : id = ⟨"t0"⟩
  · subst hid
    cases hrow
    exact ⟨rfl, rfl⟩
  · unfold lostCells at hrow
    rw [Function.update_of_ne hid] at hrow
    cases hrow

end Bot

end Cmlb
