import Cmlb.Application.Cancellation
import Cmlb.Application.TaskControl

/-!
# All tasks at once

`Bot` is the repository and the registry under any number of `execute` runs and of commands on tasks, which
take their steps in any order: the runs `setup`, each on the id that it has drawn, and the commands `op`.
What `incomplete` answers to a `cancel_all` is left open.

The analysis of a single task carries over to each of them: whatever the rest of the bot does, a run and the
commands that reach its task are a `World` (`refines_world`). Where they all come from other chats, the run
is one that has the bot to itself (`as_if_alone`).
-/

namespace Cmlb

structure Bot (ι κ : Type) where
  board : TaskControl.Board ι
  commands : ι → TaskControl.Pc
  runs : κ → Run

namespace Bot

open TaskControl (Op Board act execute)

inductive Event (ι κ : Type)
  | command (i : ι) (e : TaskControl.Event)
  | run (k : κ) (e : Cmlb.Event)

variable {ι κ : Type} [DecidableEq ι] [DecidableEq κ] (op : ι → Op) (setup : κ → Setup)

/-- The run `k` and what is held under its id. -/
def task (b : Bot ι κ) (k : κ) : World := { run := b.runs k, cell := b.board.cells (setup k).taskId }

/-- After a step of the run `k` to the state `w.run`, which leaves `w.cell` under its id. -/
def putTask (b : Bot ι κ) (k : κ) (w : World) : Bot ι κ :=
  { b with
    board := { b.board with cells := Function.update b.board.cells (setup k).taskId w.cell }
    runs := Function.update b.runs k w.run }

def step (b : Bot ι κ) : Event ι κ → Option (Bot ι κ)
  | .command i e => (act op i b.board (b.commands i) e).map fun x =>
      { b with board := x.1, commands := Function.update b.commands i x.2 }
  | .run k e => ((b.task setup k).step (setup k) (.run e)).map (b.putTask setup k)

def machine : Machine (Bot ι κ) (Event ι κ) := ⟨step op setup⟩

def start (cells : TaskId → Cell) : Bot ι κ where
  board := ⟨cells, [], []⟩
  commands i := (op i).start
  runs k := (setup k).init

end Bot

/-! ### The task of a run -/

/-- The task is the one that `execute` has made for its request. -/
def Setup.Owns (S : Setup) (task : Task) : Prop :=
  task.metadata.id = S.taskId ∧ task.metadata.chat = S.request.chat

namespace Run

variable {S : Setup} {r r' : Run} {e : Cmlb.Event} {task task' : Task} {now : Time}

theorem owns_transition {legal : TaskState → Bool} {dst : TaskState} (h : S.Owns task)
    (ht : task.transition legal dst now = .ok task') : S.Owns task' := by
  rw [(Task.transition_eq_ok ht).2]
  exact h

theorem owns_markFailed {reason : String} (h : S.Owns task) : S.Owns (task.orSelf (task.markFailed reason now)) := by
  unfold Task.markFailed
  split_ifs
  · exact h
  · exact h

theorem owns_orSelf {legal : TaskState → Bool} {dst : TaskState} (h : S.Owns task) :
    S.Owns (task.orSelf (task.transition legal dst now)) := by
  unfold Task.orSelf
  split
  · exact owns_transition h ‹_›
  · exact h

theorem owns_finish (h : S.Owns r.task) : S.Owns r.finish.task := by
  unfold finish
  split
  · exact owns_markFailed h
  · exact owns_transition h ‹_›

theorem owns_complete (h : S.Owns r.task) : S.Owns r.complete.task := by
  unfold complete
  split_ifs
  · exact owns_finish h
  · exact owns_finish (r := { r with task := r.task.orSelf (r.task.beginUpload r.now) }) (owns_orSelf h)

/-- A run keeps to its task. -/
theorem owns_step (h : S.Owns r.task) (hs : Step S r e r') : S.Owns r'.task := by
  cases hs with
  | settings hpc x => cases x <;> exact h
  | sent hpc x =>
    cases x with
    | error => exact h
    | ok => exact ⟨rfl, rfl⟩
  | created hpc x => cases x <;> exact h
  | startDownload hpc =>
    unfold startDownload
    split
    · exact owns_markFailed h
    · exact owns_transition h ‹_›
  | @afterSave k hpc => cases k <;> exact h
  | gid hpc x =>
    cases x with
    | error => exact owns_markFailed h
    | ok => exact h
  | head hpc c reg =>
    unfold onHead
    split_ifs <;> exact h
  | status hpc x =>
    rcases onStatus_cases S x r with ⟨st, err, heq⟩ | ⟨st, rfl, -, -, heq⟩
    · rw [heq]
      exact h
    · rw [heq]
      exact h
  | @spawnNext files hpc =>
    unfold spawnNext
    split
    · exact h
    · split_ifs <;> exact h
  | checkQueued hpc =>
    unfold checkQueued
    split_ifs
    · exact h
    · exact h
    · split
      · exact owns_transition h ‹_›
      · exact h
  | check hpc =>
    unfold check
    split_ifs <;> exact h
  | @drain k hpc =>
    unfold drain
    split_ifs
    · cases k with
      | cancel => exact h
      | failTask => exact owns_markFailed h
      | uploadFailed => exact h
    · exact h
  | @removed k hpc x =>
    cases k with
    | cancel => exact owns_orSelf h
    | failUpload => exact owns_markFailed h
    | completed => exact h
  | afterLoop hpc =>
    unfold afterLoop
    split_ifs
    · exact owns_complete h
    · split
      · exact owns_markFailed h
      · exact owns_transition h ‹_›
  | @edited k hpc x =>
    cases k with
    | uploading =>
      show S.Owns r.fallback.task
      unfold fallback
      split
      · exact owns_markFailed h
      · exact h
      · exact h
    | failed | cancelled | completed => exact h
  | @directory path hpc x =>
    unfold onDirectory
    split
    · exact owns_markFailed h
    · dsimp only
      split
      · exact owns_markFailed h
      · exact owns_complete h
  | @file file hpc x =>
    cases x with
    | error => exact owns_markFailed h
    | ok => exact owns_complete h
  | threw => exact h
  | _ => exact h

/-- The task that the event stores. -/
def stored (r : Run) : Cmlb.Event → Option Task
  | .commit (.ok _) => some r.task
  | _ => none

/-- Exactly the saves that succeed are persisted. -/
theorem persisted_eq (hs : Step S r e r') : r'.persisted = (r.stored e).toList ++ r.persisted := by
  rcases persisted_step hs with heq | ⟨⟨x, rfl⟩, -⟩
  · cases e with
    | commit x =>
      cases x with
      | error err => exact heq
      | ok u => rcases step_commit hs with ⟨-, rfl⟩ | ⟨k, -, rfl⟩ <;> rfl
    | _ => exact heq
  · rcases step_commit hs with ⟨-, rfl⟩ | ⟨k, -, rfl⟩ <;> cases x <;> rfl

theorem owns_persisted (h : S.Owns r.task) (hp : ∀ task ∈ r.persisted, S.Owns task) (hs : Step S r e r') :
    ∀ task ∈ r'.persisted, S.Owns task := by
  intro task ht
  rw [persisted_eq hs] at ht
  rcases List.mem_append.1 ht with ht | ht
  · unfold stored at ht
    split at ht
    · rw [List.mem_singleton.1 ht]
      exact h
    · cases ht
  · exact hp task ht

end Run

theorem Run.step_clock (S : Setup) (r : Run) (now : Time) : r.step S (.clock now) = some { r with now := now } := by
  obtain ⟨pc, _, _, _, _, _, _, _, _, _, _⟩ := r
  cases pc <;> rfl

namespace World

/-- The clock moves, and nothing else. -/
theorem step_clock (S : Setup) (w : World) (now : Time) :
    w.step S (.run (.clock now)) = some { w with run := { w.run with now := now } } := by
  have hslot : w.slotAfter { w.run with now := now } = w.cell.slot := by
    unfold slotAfter
    split_ifs <;> rfl
  show (w.run.step S (.clock now)).map (w.afterRun (.clock now)) = _
  rw [Run.step_clock]
  show some (afterRun w (.clock now) _) = _
  unfold afterRun
  rw [hslot]
  rfl

end World

/-! ### Commands from other chats -/

/-- The run does not see its flag set. -/
def Event.Unflagged : Event → Prop
  | .head _ registryCancelled => registryCancelled = false
  | _ => True

namespace World

variable {S : Setup} {w w' : World} {e : Event} {cell cell' : Cell} {c : CancelTask.Call}

/-- The call is from another chat, and goes no further than the check of the chat. -/
def Refused (S : Setup) (c : CancelTask.Call) : Prop :=
  c.request.chat ≠ S.request.chat ∧
    match c.pc with
    | .finding | .returned _ | .threw => True
    | .loaded r => ∀ task, r = .ok (some task) → S.Owns task
    | _ => False

theorem Refused.target (h : Refused S c) : c.target = none := by
  unfold CancelTask.Call.target
  split
  · rename_i task hpc
    have hloaded := h.2
    rw [hpc] at hloaded
    refine if_neg fun hok => h.1 ?_
    rw [← hok.1]
    exact (hloaded task rfl).2
  · rfl

theorem Refused.step {now : Time} {x : CancelTask.Event} {pc : CancelTask.Pc} (h : Refused S c)
    (hrow : ∀ task, cell.row = some task → S.Owns task)
    (hs : CancelTask.step now c x cell = some (pc, cell')) : cell' = cell ∧ Refused S { c with pc := pc } := by
  have hpc := h.2
  unfold CancelTask.step at hs
  split at hs
  case h_1 =>
    cases hs
    exact ⟨rfl, h.1, fun task ht => hrow task (Except.ok.inj ht)⟩
  case h_2 =>
    cases hs
    exact ⟨rfl, h.1, fun task ht => nomatch ht⟩
  case h_3 r _ =>
    unfold CancelTask.signal at hs
    rw [h.target] at hs
    cases hs
    exact ⟨rfl, h.1, trivial⟩
  case h_12 =>
    cases hs
    exact ⟨rfl, h.1, trivial⟩
  all_goals simp_all

/-- What is held under the id is what the run alone has put there. -/
structure Unheeded (S : Setup) (w : World) : Prop where
  task : S.Owns w.run.task
  persisted : ∀ task ∈ w.run.persisted, S.Owns task
  row : w.cell.row = w.run.persisted.head?
  slot : w.cell.slot = if w.run.pc.guarded then some false else none
  refused : ∀ c ∈ w.cancels, Refused S c

theorem unheeded_init (S : Setup) : S.world.Unheeded S where
  task := ⟨rfl, rfl⟩
  persisted := by simp [Setup.world, Setup.init, Run.persisted]
  row := rfl
  slot := rfl
  refused := by simp [Setup.world]

theorem Unheeded.row_owned (h : w.Unheeded S) {task : Task} (hrow : w.cell.row = some task) : S.Owns task := by
  rw [h.row] at hrow
  exact h.persisted task (List.mem_of_mem_head? hrow)

theorem Unheeded.run {x : Cmlb.Event} {r : Run} (h : w.Unheeded S) (hs : Run.Step S w.run x r) :
    (w.afterRun x r).Unheeded S where
  task := Run.owns_step h.task hs
  persisted := Run.owns_persisted h.task h.persisted hs
  row := by
    show w.rowAfter x = r.persisted.head?
    rw [Run.persisted_eq hs]
    cases x with
    | commit u =>
      cases u with
      | error => exact h.row
      | ok => rfl
    | _ => exact h.row
  slot := by
    show w.slotAfter r = if r.pc.guarded then some false else none
    have hslot := h.slot
    unfold slotAfter
    by_cases hg : w.run.pc.guarded
    · rw [if_pos hg, if_pos hg]
      rw [if_pos hg] at hslot
      rw [hslot]
    · rw [if_neg hg, if_neg hg]
      rw [if_neg hg] at hslot
      rw [hslot]
      rfl
  refused := h.refused

theorem Unheeded.step (h : w.Unheeded S) (hs : w.step S e = some w')
    (hchat : ∀ chat, e = .request chat → chat ≠ S.request.chat) : w'.Unheeded S := by
  cases e with
  | run x =>
    dsimp only [World.step] at hs
    split_ifs at hs
    obtain ⟨r, hr, rfl⟩ := Option.map_eq_some_iff.1 hs
    exact h.run (Run.step_inv hr)
  | request chat =>
    cases hs
    refine ⟨h.task, h.persisted, h.row, h.slot, fun c hc => ?_⟩
    rcases List.mem_append.1 hc with hc | hc
    · exact h.refused c hc
    · rw [List.mem_singleton.1 hc]
      exact ⟨hchat chat rfl, trivial⟩
  | cancel i x =>
    dsimp only [World.step] at hs
    split at hs
    · cases hs
    · rename_i c hc
      obtain ⟨⟨pc, cell⟩, hcancel, rfl⟩ := Option.map_eq_some_iff.1 hs
      obtain ⟨rfl, hrefused⟩ :=
        (h.refused c (List.mem_of_getElem? hc)).step (fun _ => h.row_owned) hcancel
      exact ⟨h.task, h.persisted, h.row, h.slot, forall_cancels h.refused hrefused⟩

/-- The flag is not set in such a world. -/
theorem Unheeded.unflagged (h : w.Unheeded S) {x : Cmlb.Event} (hread : w.readsFlag x = true) : x.Unflagged := by
  cases x with
  | head c reg =>
    have hslot := h.slot
    simp only [readsFlag, beq_iff_eq] at hread
    show reg = false
    rw [hread, hslot]
    split_ifs <;> rfl
  | _ => trivial

/-- Cancels from other chats do not matter: the run is one with no cancels at all. -/
theorem unheeded_of_steps {t : List Event}
    (h : S.worldMachine.Steps (fun _ e => ∀ chat, e = .request chat → chat ≠ S.request.chat) S.world t w) :
    w.Unheeded S ∧ ∃ t', S.machine.Steps (fun _ e => e.Unflagged) S.init t' w.run := by
  induction h with
  | nil => exact ⟨unheeded_init S, [], .nil _⟩
  | @snoc w₁ w₂ t e _ hchat hs ih =>
    obtain ⟨hw, t', hrun⟩ := ih
    refine ⟨hw.step hs hchat, ?_⟩
    cases e with
    | run x =>
      dsimp only [Setup.worldMachine, World.step] at hs
      split_ifs at hs with hread
      obtain ⟨r, hr, rfl⟩ := Option.map_eq_some_iff.1 hs
      exact ⟨t' ++ [x], hrun.snoc (hw.unflagged hread) hr⟩
    | request chat =>
      cases hs
      exact ⟨t', hrun⟩
    | cancel i x =>
      dsimp only [Setup.worldMachine, World.step] at hs
      split at hs
      · cases hs
      · obtain ⟨y, -, rfl⟩ := Option.map_eq_some_iff.1 hs
        exact ⟨t', hrun⟩

end World

namespace Bot

open TaskControl

variable {ι κ : Type} {op : ι → Op} {setup : κ → Setup} {i : ι} {sh sh' : Board ι} {pc pc' : TaskControl.Pc}
  {e : TaskControl.Event}

/-! ### What a command is at -/

/-- The call of `CancelTask::execute` that a command is in. -/
def current : TaskControl.Pc → Option CancelTask.Call
  | .cancelling call | .sweeping _ _ call _ => some call
  | _ => none

/-- The requests that a command makes. -/
def Issues : Op → CancelTaskRequest → Prop
  | .cancel request, r => r = request
  | .cancelAll chat, r => r.chat = chat
  | .pause _, _ | .resume _, _ => False

/-- What a command can be at. -/
def Shaped (o : Op) : TaskControl.Pc → Prop
  | .cancelling call => o = .cancel call.request
  | .listing => ∃ chat, o = .cancelAll chat
  | .sweeping _ _ call _ => o = .cancelAll call.request.chat
  | _ => True

theorem Shaped.issues {o : Op} {call : CancelTask.Call} (h : Shaped o pc) (hc : current pc = some call) :
    Issues o call.request := by
  cases pc with
  | cancelling => cases hc; rw [show o = _ from h]; rfl
  | sweeping => cases hc; rw [show o = _ from h]; rfl
  | _ => cases hc

theorem sweep_cases (chat : ChatId) (listed rest : List Task) (result : CancelAllResult) :
    (∃ result', sweep chat listed rest result = .reporting listed result') ∨
      ∃ rest' taskId, sweep chat listed rest result = .sweeping listed rest' { request := ⟨taskId, chat⟩ } result := by
  induction rest with
  | nil => exact .inl ⟨result, rfl⟩
  | cons task rest ih =>
    unfold sweep
    split_ifs
    · exact ih
    · exact .inr ⟨rest, _, rfl⟩

/-- The sweep is at a call of the chat that it has not made yet, or at none. -/
theorem sweep_fresh (chat : ChatId) (listed rest : List Task) (result : CancelAllResult) :
    Shaped (.cancelAll chat) (sweep chat listed rest result) ∧
      ∀ call, current (sweep chat listed rest result) = some call → call.pc = .finding := by
  rcases sweep_cases chat listed rest result with ⟨result', h⟩ | ⟨rest', taskId, h⟩
  · rw [h]
    exact ⟨trivial, fun call hc => nomatch hc⟩
  · rw [h]
    refine ⟨rfl, fun call hc => ?_⟩
    cases hc
    rfl

theorem resumeSweep_cases (chat : ChatId) (listed rest : List Task) (call : CancelTask.Call)
    (result : CancelAllResult) (pc : CancelTask.Pc) (hchat : call.request.chat = chat) :
    Shaped (.cancelAll chat) (resumeSweep chat listed rest call result pc) ∧
      ∀ call', current (resumeSweep chat listed rest call result pc) = some call' →
        call' = { call with pc := pc } ∨ call'.pc = .finding := by
  cases pc with
  | returned r =>
    obtain ⟨hshape, hfresh⟩ := sweep_fresh chat listed rest (result.count r)
    exact ⟨hshape, fun call' hc => .inr (hfresh call' hc)⟩
  | threw => exact ⟨trivial, fun call' hc => nomatch hc⟩
  | _ => exact ⟨congrArg Op.cancelAll hchat.symm, fun call' hc => .inl (Option.some.inj hc).symm⟩

theorem controlStep_cases {c : Control} {request : CancelTaskRequest}
    (h : controlStep i c request sh pc e = some (sh', pc')) :
    sh'.cells = sh.cells ∧ current pc' = none ∧ ∀ o, Shaped o pc' := by
  unfold controlStep at h
  split at h
  case h_3 r =>
    split at h
    · cases h
      exact ⟨rfl, rfl, fun _ => trivial⟩
    · cases h
      exact ⟨rfl, rfl, fun _ => trivial⟩
  all_goals cases h
  all_goals exact ⟨rfl, rfl, fun _ => trivial⟩

/-- A step of a command is one of the call that it is in, or it leaves the cells and is at a new call. -/
theorem act_cases (hshape : Shaped (op i) pc) (h : act op i sh pc e = some (sh', pc')) : Shaped (op i) pc' ∧
    ((sh'.cells = sh.cells ∧ ∀ call, current pc' = some call → call.pc = .finding) ∨
      ∃ now call x pc₁, current pc = some call ∧ execute i now call x sh = some (sh', pc₁) ∧
        ∀ call', current pc' = some call' → call' = { call with pc := pc₁ } ∨ call'.pc = .finding) := by
  unfold act at h
  split at h
  case h_1 call now x =>
    obtain ⟨⟨sh₁, pc₁⟩, hx, h⟩ := Option.map_eq_some_iff.1 h
    cases h
    exact ⟨hshape, .inr ⟨now, call, x, pc₁, rfl, hx, fun call' hc => .inl (Option.some.inj hc).symm⟩⟩
  case h_2 =>
    cases h
    exact ⟨trivial, .inl ⟨rfl, fun call hc => nomatch hc⟩⟩
  case h_3 tasks =>
    cases h
    obtain ⟨chat, hop⟩ := hshape
    rw [hop]
    obtain ⟨hsweep, hfresh⟩ := sweep_fresh chat tasks tasks {}
    exact ⟨hsweep, .inl ⟨rfl, hfresh⟩⟩
  case h_4 listed rest call result now x =>
    obtain ⟨⟨sh₁, pc₁⟩, hx, h⟩ := Option.map_eq_some_iff.1 h
    cases h
    have hop : op i = .cancelAll call.request.chat := hshape
    rw [hop]
    obtain ⟨hsweep, hcall⟩ := resumeSweep_cases call.request.chat listed rest call result pc₁ rfl
    exact ⟨hsweep, .inr ⟨now, call, x, pc₁, rfl, hx, hcall⟩⟩
  case h_8 =>
    split at h
    · cases h
    · obtain ⟨hcells, hnone, hany⟩ := controlStep_cases h
      exact ⟨hany _, .inl ⟨hcells, fun call hc => by rw [hnone] at hc; cases hc⟩⟩
  all_goals
    cases h
    exact ⟨trivial, .inl ⟨rfl, fun call hc => nomatch hc⟩⟩

/-! ### Invariant -/

variable [DecidableEq ι] [DecidableEq κ] {home : TaskId → ChatId} {b b' : Bot ι κ} {k : κ} {x : Event ι κ}

/-- Rows are under their own ids and at home in one chat, and the commands and the runs work with such. -/
structure Sound (op : ι → Op) (setup : κ → Setup) (home : TaskId → ChatId) (b : Bot ι κ) : Prop where
  keyed : Keyed home b.board.cells
  own : ∀ i, Own home op i b.board (b.commands i)
  shaped : ∀ i, Shaped (op i) (b.commands i)
  owns : ∀ k, (setup k).Owns (b.runs k).task

omit [DecidableEq ι] [DecidableEq κ] in
theorem sound_start {cells : TaskId → Cell} (hk : Keyed home cells) :
    (start op setup cells).Sound op setup home where
  keyed := hk
  own i :=
    have hinv : Inv home op (TaskControl.start op cells) := inv_start hk
    hinv.own i
  shaped i := by
    show Shaped (op i) (op i).start
    cases hop : op i with
    | cancel => rfl
    | cancelAll chat => exact ⟨chat, rfl⟩
    | pause | resume => trivial
  owns k := ⟨rfl, rfl⟩

omit [DecidableEq ι] [DecidableEq κ] in
theorem task_step {e : Cmlb.Event} {w : World} (h : (b.task setup k).step (setup k) (.run e) = some w) :
    ∃ r, (b.task setup k).readsFlag e = true ∧ (b.runs k).step (setup k) e = some r ∧
      w = (b.task setup k).afterRun e r := by
  dsimp only [World.step] at h
  split_ifs at h with hread
  obtain ⟨r, hr, rfl⟩ := Option.map_eq_some_iff.1 h
  exact ⟨r, hread, hr, rfl⟩

omit [DecidableEq ι] in
theorem Sound.run {e : Cmlb.Event} {r : Run} (h : b.Sound op setup home)
    (hhome : ∀ k, home (setup k).taskId = (setup k).request.chat) (hr : Run.Step (setup k) (b.runs k) e r) :
    (b.putTask setup k ((b.task setup k).afterRun e r)).Sound op setup home where
  keyed id task hrow := by
    change (Function.update b.board.cells (setup k).taskId _ id).row = some task at hrow
    by_cases hid : id = (setup k).taskId
    · subst hid
      rw [Function.update_self] at hrow
      change (b.task setup k).rowAfter e = some task at hrow
      unfold World.rowAfter at hrow
      split at hrow
      · cases hrow
        obtain ⟨hown, hchat⟩ := h.owns k
        exact ⟨hown, hchat.trans (hhome k).symm⟩
      · exact h.keyed _ task hrow
    · rw [Function.update_of_ne hid] at hrow
      exact h.keyed id task hrow
  own i := (h.own i).mono fun x hx => hx
  shaped := h.shaped
  owns k' := by
    show (setup k').Owns (Function.update b.runs k r k').task
    by_cases hk : k' = k
    · subst hk
      rw [Function.update_self]
      exact Run.owns_step (h.owns k') hr
    · rw [Function.update_of_ne hk]
      exact h.owns k'

omit [DecidableEq κ] in
theorem Sound.command (h : b.Sound op setup home) (hact : act op i b.board (b.commands i) e = some (sh', pc')) :
    Sound op setup home { b with board := sh', commands := Function.update b.commands i pc' } := by
  obtain ⟨hf, ho⟩ := act_framed h.keyed (h.own i) hact
  refine ⟨hf.keyed, fun j => ?_, fun j => ?_, h.owns⟩
  · show Own home op j sh' (Function.update b.commands i pc' j)
    by_cases hj : j = i
    · subst hj
      rwa [Function.update_self]
    · rw [Function.update_of_ne hj]
      exact (h.own j).mono hf.found
  · show Shaped (op j) (Function.update b.commands i pc' j)
    by_cases hj : j = i
    · subst hj
      rw [Function.update_self]
      exact (act_cases (h.shaped j) hact).1
    · rw [Function.update_of_ne hj]
      exact h.shaped j

theorem Sound.step (h : b.Sound op setup home) (hhome : ∀ k, home (setup k).taskId = (setup k).request.chat)
    (hs : b.step op setup x = some b') : b'.Sound op setup home := by
  cases x with
  | command i e =>
    obtain ⟨⟨sh', pc'⟩, hact, rfl⟩ := Option.map_eq_some_iff.1 hs
    exact h.command hact
  | run k e =>
    obtain ⟨w, hw, rfl⟩ := Option.map_eq_some_iff.1 hs
    obtain ⟨r, -, hr, rfl⟩ := task_step hw
    exact h.run hhome (Run.step_inv hr)

/-! ### The world of one task -/

variable {w : World}

/-- The requests under the id come from commands that make them. -/
def Asked (op : ι → Op) (S : Setup) (_ : World) (e : World.Event) : Prop :=
  ∀ chat, e = .request chat → ∃ i, Issues (op i) ⟨S.taskId, chat⟩

/-- `w` has the run `k` and what is held under its id, and at `place i` the call on that id that the command
`i` is in, if it has taken a step. -/
structure Shows (setup : κ → Setup) (k : κ) (b : Bot ι κ) (w : World) (place : ι → Option Nat) : Prop where
  run : w.run = b.runs k
  cell : w.cell = b.board.cells (setup k).taskId
  placed : ∀ i n, place i = some n → ∃ call, current (b.commands i) = some call ∧ w.cancels[n]? = some call
  fresh : ∀ i call, current (b.commands i) = some call → call.request.taskId = (setup k).taskId →
    place i = none → call.pc = .finding
  apart : ∀ i j n, place i = some n → place j = some n → i = j

variable {place : ι → Option Nat} {call : CancelTask.Call}

omit [DecidableEq κ] in
/-- A command that leaves the id alone, and whose call on it, if any, is a new one. -/
theorem Shows.leave (h : Shows setup k b w place)
    (hcell : sh'.cells (setup k).taskId = b.board.cells (setup k).taskId)
    (hfresh : ∀ call, current pc' = some call → call.request.taskId = (setup k).taskId → call.pc = .finding) :
    Shows setup k { b with board := sh', commands := Function.update b.commands i pc' } w
      (Function.update place i none) where
  run := h.run
  cell := h.cell.trans hcell.symm
  placed j n hn := by
    obtain ⟨rfl, hnone⟩ | ⟨hj, hn⟩ := eq_of_update_eq hn
    · cases hnone
    · obtain ⟨call, hc, hw⟩ := h.placed j n hn
      exact ⟨call, (congrArg current (Function.update_of_ne hj ..)).trans hc, hw⟩
  fresh j call hc hid hn := by
    change current (Function.update b.commands i pc' j) = some call at hc
    by_cases hj : j = i
    · subst hj
      rw [Function.update_self] at hc
      exact hfresh call hc hid
    · rw [Function.update_of_ne hj] at hc hn
      exact h.fresh j call hc hid hn
  apart j j' n hn hn' := by
    obtain ⟨rfl, hnone⟩ | ⟨-, hn⟩ := eq_of_update_eq hn
    · cases hnone
    · obtain ⟨rfl, hnone⟩ | ⟨-, hn'⟩ := eq_of_update_eq hn'
      · cases hnone
      · exact h.apart j j' n hn hn'

omit [DecidableEq κ] in
/-- The new calls of a command have a place in some continuation of the world. -/
theorem Shows.asked (h : Shows setup k b w place) (hshape : Shaped (op i) (b.commands i))
    (hc : current (b.commands i) = some call) (hid : call.request.taskId = (setup k).taskId) :
    ∃ t w' place' n, (setup k).worldMachine.Steps (Asked op (setup k)) w t w' ∧
      Shows setup k b w' place' ∧ place' i = some n := by
  cases hn : place i with
  | some n => exact ⟨[], w, place, n, .nil w, h, hn⟩
  | none =>
    obtain ⟨⟨taskId, chat⟩, pc⟩ := call
    cases hid
    cases h.fresh i _ hc rfl hn
    have hasked : Asked op (setup k) w (.request chat) := by
      rintro chat' ⟨⟩
      exact ⟨i, hshape.issues hc⟩
    refine ⟨[.request chat], _, Function.update place i (some w.cancels.length), w.cancels.length,
      .snoc (.nil w) hasked rfl, ⟨h.run, h.cell, fun j n hj => ?_, fun j call' hc' hid' hj => ?_,
        fun j j' n hj hj' => ?_⟩, Function.update_self ..⟩
    · obtain ⟨rfl, hlen⟩ | ⟨-, hj⟩ := eq_of_update_eq hj
      · cases hlen
        exact ⟨_, hc, List.getElem?_concat_length⟩
      · obtain ⟨call', hc', hw⟩ := h.placed j n hj
        exact ⟨call', hc', (List.getElem?_append_left (List.getElem?_eq_some_iff.1 hw).1).trans hw⟩
    · obtain ⟨rfl, hsome⟩ | ⟨-, hj⟩ := eq_of_update_eq hj
      · cases hsome
      · exact h.fresh j call' hc' hid' hj
    · have hlt : ∀ j, place j ≠ some w.cancels.length := by
        intro j hj
        obtain ⟨call', -, hw⟩ := h.placed j _ hj
        exact absurd (List.getElem?_eq_some_iff.1 hw).1 (lt_irrefl _)
      rcases eq_of_update_eq hj with ⟨rfl, hlen⟩ | ⟨-, hold⟩
      · cases hlen
        rcases eq_of_update_eq hj' with ⟨rfl, -⟩ | ⟨-, hold'⟩
        · rfl
        · exact absurd hold' (hlt j')
      · rcases eq_of_update_eq hj' with ⟨rfl, hlen⟩ | ⟨-, hold'⟩
        · cases hlen
          exact absurd hold (hlt j)
        · exact h.apart j j' n hold hold'

omit [DecidableEq κ] in
/-- A step of a call that has a place. -/
theorem Shows.step_call {now : Time} {y : CancelTask.Event} {pc₁ : CancelTask.Pc} {cell : Cell} {n : Nat}
    (h : Shows setup k b w place) (hn : place i = some n) (hc : current (b.commands i) = some call)
    (hs : CancelTask.step now call y (b.board.cells (setup k).taskId) = some (pc₁, cell))
    (hcell : sh'.cells (setup k).taskId = cell)
    (hnext : ∀ call', current pc' = some call' → call' = { call with pc := pc₁ } ∨ call'.pc = .finding) :
    ∃ t w' place', (setup k).worldMachine.Steps (Asked op (setup k)) w t w' ∧
      Shows setup k { b with board := sh', commands := Function.update b.commands i pc' } w' place' := by
  obtain ⟨call₀, hc₀, hw⟩ := h.placed i n hn
  cases hc.symm.trans hc₀
  -- the call has its own reading of the clock
  have hclock := World.step_clock (setup k) w now
  have hcancel : World.step (setup k) { w with run := { w.run with now := now } } (.cancel n y) =
      some { w with run := { w.run with now := now }, cell := cell
                    cancels := w.cancels.set n { call with pc := pc₁ } } := by
    dsimp only [World.step]
    rw [hw]
    dsimp only
    rw [h.cell, hs]
    rfl
  have hback := World.step_clock (setup k) { w with
    run := { w.run with now := now }, cell := cell, cancels := w.cancels.set n { call with pc := pc₁ } } w.run.now
  have hother : ∀ e : World.Event, (∀ chat, e ≠ .request chat) → ∀ w', Asked op (setup k) w' e :=
    fun e he w' chat heq => absurd heq (he chat)
  have hsteps := (((Machine.Steps.nil (M := (setup k).worldMachine) w).snoc
    (hother (.run (.clock now)) (by simp) w) hclock).snoc (hother (.cancel n y) (by simp) _) hcancel).snoc
    (hother (.run (.clock w.run.now)) (by simp) _) hback
  have hlen : n < w.cancels.length := (List.getElem?_eq_some_iff.1 hw).1
  by_cases hsame : current pc' = some { call with pc := pc₁ }
  · refine ⟨_, _, place, hsteps, h.run, hcell.symm, fun j m hj => ?_, fun j call' hc' hid hj => ?_, h.apart⟩
    · by_cases hji : j = i
      · subst hji
        cases hn.symm.trans hj
        refine ⟨_, (congrArg current (Function.update_self ..)).trans hsame, ?_⟩
        exact List.getElem?_set_self hlen
      · obtain ⟨call', hc', hw'⟩ := h.placed j m hj
        refine ⟨call', (congrArg current (Function.update_of_ne hji ..)).trans hc', ?_⟩
        have hne : n ≠ m := fun heq => hji (h.apart j i n (heq ▸ hj) hn)
        exact (List.getElem?_set_ne hne).trans hw'
    · change current (Function.update b.commands i pc' j) = some call' at hc'
      by_cases hji : j = i
      · subst hji
        rw [hn] at hj
        cases hj
      · rw [Function.update_of_ne hji] at hc'
        exact h.fresh j call' hc' hid hj
  · refine ⟨_, _, Function.update place i none, hsteps, h.run, hcell.symm, fun j m hj => ?_,
      fun j call' hc' hid hj => ?_, fun j j' m hj hj' => ?_⟩
    · rcases eq_of_update_eq hj with ⟨-, hnone⟩ | ⟨hji, hold⟩
      · cases hnone
      · obtain ⟨call', hc', hw'⟩ := h.placed j m hold
        refine ⟨call', (congrArg current (Function.update_of_ne hji ..)).trans hc', ?_⟩
        have hne : n ≠ m := fun heq => hji (h.apart j i n (heq ▸ hold) hn)
        exact (List.getElem?_set_ne hne).trans hw'
    · change current (Function.update b.commands i pc' j) = some call' at hc'
      by_cases hji : j = i
      · subst hji
        rw [Function.update_self] at hc'
        rcases hnext call' hc' with rfl | hnew
        · exact absurd hc' hsame
        · exact hnew
      · rw [Function.update_of_ne hji] at hc' hj
        exact h.fresh j call' hc' hid hj
    · rcases eq_of_update_eq hj with ⟨-, hnone⟩ | ⟨-, hold⟩
      · cases hnone
      · rcases eq_of_update_eq hj' with ⟨-, hnone⟩ | ⟨-, hold'⟩
        · cases hnone
        · exact h.apart j j' m hold hold'

omit [DecidableEq κ] in
theorem Shows.command (h : Shows setup k b w place) (hb : b.Sound op setup home)
    (hact : act op i b.board (b.commands i) e = some (sh', pc')) :
    ∃ t w' place', (setup k).worldMachine.Steps (Asked op (setup k)) w t w' ∧
      Shows setup k { b with board := sh', commands := Function.update b.commands i pc' } w' place' := by
  rcases (act_cases (hb.shaped i) hact).2 with ⟨hcells, hfresh⟩ | ⟨now, call, y, pc₁, hc, hx, hnext⟩
  · exact ⟨[], w, _, .nil w, h.leave (congrFun hcells _) fun call hc _ => hfresh call hc⟩
  · obtain ⟨⟨pc₂, cell⟩, hs, heq⟩ := Option.map_eq_some_iff.1 hx
    obtain ⟨hboard, rfl⟩ := Prod.mk.inj heq
    have hcells : sh'.cells = Function.update b.board.cells (touches call) cell := by rw [← hboard]
    -- a call works under the id of its request
    have htouch : touches call = call.request.taskId := by
      have hown := hb.own i
      cases hpc : b.commands i with
      | cancelling =>
        rw [hpc] at hc hown
        cases hc
        exact hown.2.touches
      | sweeping =>
        rw [hpc] at hc hown
        cases hc
        exact hown.2.1.touches
      | _ =>
        rw [hpc] at hc
        cases hc
    rw [htouch] at hs
    by_cases hid : call.request.taskId = (setup k).taskId
    · rw [hid] at hs
      obtain ⟨t₁, w₁, place₁, n, hsteps, h₁, hn⟩ := h.asked (hb.shaped i) hc hid
      have hcell : sh'.cells (setup k).taskId = cell := by
        rw [hcells, htouch, hid]
        exact Function.update_self ..
      obtain ⟨t₂, w₂, place₂, hsteps', h₂⟩ := h₁.step_call hn hc hs hcell hnext
      exact ⟨t₁ ++ t₂, w₂, place₂, hsteps.append hsteps', h₂⟩
    · refine ⟨[], w, _, .nil w, h.leave ?_ fun call' hc' hid' => ?_⟩
      · rw [hcells, htouch]
        exact Function.update_of_ne (Ne.symm hid) ..
      · rcases hnext call' hc' with rfl | hnew
        · exact absurd hid' hid
        · exact hnew

omit [DecidableEq ι] in
theorem Shows.run_step {k' : κ} {y : Cmlb.Event} {r : Run} (h : Shows setup k b w place)
    (hone : ∀ k', k' ≠ k → (setup k').taskId ≠ (setup k).taskId)
    (hread : (b.task setup k').readsFlag y = true) (hr : (b.runs k').step (setup k') y = some r) :
    ∃ t w', (setup k).worldMachine.Steps (Asked op (setup k)) w t w' ∧
      Shows setup k (b.putTask setup k' ((b.task setup k').afterRun y r)) w' place := by
  by_cases hk : k' = k
  · subst hk
    have hsame : w = { b.task setup k' with cancels := w.cancels } := by
      obtain ⟨run, cell, cancels⟩ := w
      cases h.run
      cases h.cell
      rfl
    have hs : w.step (setup k') (.run y) = some (w.afterRun y r) := by
      have hflag : w.readsFlag y = true := by
        rw [hsame]
        exact hread
      dsimp only [World.step]
      rw [if_pos hflag, h.run, hr]
      rfl
    have hrun : Function.update b.runs k' r k' = r := Function.update_self ..
    refine ⟨[.run y], _, .snoc (.nil w) (fun chat heq => by cases heq) hs, hrun.symm, ?_, h.placed, h.fresh,
      h.apart⟩
    show (w.afterRun y r).cell = Function.update b.board.cells (setup k').taskId _ (setup k').taskId
    rw [Function.update_self, hsame]
    rfl
  · refine ⟨[], w, .nil w, h.run.trans (Function.update_of_ne (Ne.symm hk) ..).symm,
      h.cell.trans ?_, h.placed, h.fresh, h.apart⟩
    exact (Function.update_of_ne (Ne.symm (hone k' hk)) ..).symm

theorem Shows.step (h : Shows setup k b w place) (hb : b.Sound op setup home)
    (hone : ∀ k', k' ≠ k → (setup k').taskId ≠ (setup k).taskId) (hs : b.step op setup x = some b') :
    ∃ t w' place', (setup k).worldMachine.Steps (Asked op (setup k)) w t w' ∧ Shows setup k b' w' place' := by
  cases x with
  | command i e =>
    obtain ⟨⟨sh', pc'⟩, hact, rfl⟩ := Option.map_eq_some_iff.1 hs
    exact h.command hb hact
  | run k' y =>
    obtain ⟨w₁, hw, rfl⟩ := Option.map_eq_some_iff.1 hs
    obtain ⟨r, hread, hr, rfl⟩ := task_step hw
    have hrun : ∃ t w', (setup k).worldMachine.Steps (Asked op (setup k)) w t w' ∧ Shows setup k _ w' place :=
      h.run_step hone hread hr
    obtain ⟨t, w', hsteps, hshows⟩ := hrun
    exact ⟨t, w', place, hsteps, hshows⟩

theorem shows_of_runs {cells : TaskId → Cell} {t : List (Event ι κ)}
    (hhome : ∀ k, home (setup k).taskId = (setup k).request.chat) (hk : Keyed home cells)
    (hnew : cells (setup k).taskId = {}) (hone : ∀ k', k' ≠ k → (setup k').taskId ≠ (setup k).taskId)
    (h : (machine op setup).Runs (start op setup cells) t b) :
    b.Sound op setup home ∧ ∃ t' w place,
      (setup k).worldMachine.Steps (Asked op (setup k)) (setup k).world t' w ∧ Shows setup k b w place := by
  induction h with
  | nil =>
    refine ⟨sound_start hk, [], (setup k).world, fun _ => none, .nil _, rfl, hnew.symm, fun i n hn => (by cases hn),
      fun i call hc _ _ => ?_, fun i j n hn => (by cases hn)⟩
    change current (op i).start = some call at hc
    cases hop : op i with
    | cancel =>
      rw [hop] at hc
      cases hc
      rfl
    | _ =>
      rw [hop] at hc
      cases hc
  | snoc _ _ hs ih =>
    obtain ⟨hb, t', w, place, hsteps, hshows⟩ := ih
    obtain ⟨t'', w', place', hsteps', hshows'⟩ := hshows.step hb hone hs
    exact ⟨hb.step hhome hs, t' ++ t'', w', place', hsteps.append hsteps', hshows'⟩

/-- Two mirrors, in the chats 2 and 3. -/
def twoMirrors (other : Bool) : Setup :=
  { Setup.sample MirrorUrl.useCase 1 true with
    request := { url := "https://host/file", user := ⟨1⟩, chat := ⟨if other then 3 else 2⟩ }
    taskId := ⟨if other then "t2" else "t1"⟩ }

def twoHomes (id : TaskId) : ChatId := ⟨if id = ⟨"t2"⟩ then 3 else 2⟩

def sweepThree (_ : Unit) : Op := .cancelAll ⟨3⟩

/-- Both are in their poll loops when a `/cancelall` in chat 3 comes to the second. -/
def sweptOne : List (Event Unit Bool) :=
  Cmlb.Event.toLoop.map (.run false) ++ Cmlb.Event.toLoop.map (.run true) ++
    [.command () (.listed (.ok [(twoMirrors false).newTask ⟨7⟩ 0, (twoMirrors true).newTask ⟨7⟩ 0])),
      .command () (.execute 5 (.find none)), .command () (.execute 5 .run),
      .run false (.head false false), .run true (.head false true)]

theorem sweptOne_runs : ∃ b, (machine sweepThree twoMirrors).Runs (start sweepThree twoMirrors fun _ => {})
    sweptOne b ∧ (b.runs false).pc = .polling ∧ (b.runs true).pc = .draining .cancel := by
  have hrun : ((machine sweepThree twoMirrors).run (start sweepThree twoMirrors fun _ => {}) sweptOne).map
      (fun b => ((b.runs false).pc, (b.runs true).pc)) = some (.polling, .draining .cancel) := by
    decide +kernel
  obtain ⟨b, hb, ho⟩ := Machine.exists_runs hrun
  exact ⟨b, hb, (Prod.mk.inj ho).1, (Prod.mk.inj ho).2⟩

theorem home_twoMirrors (other : Bool) : twoHomes (twoMirrors other).taskId = (twoMirrors other).request.chat := by
  cases other <;> rfl

theorem taskId_twoMirrors {one other : Bool} (h : other ≠ one) :
    (twoMirrors other).taskId ≠ (twoMirrors one).taskId := by
  revert h
  revert one other
  decide

/-- Among all the others a run, with the commands that reach its task, is a world of its own: nothing is
held under its id that the run and the requests for that id do not explain. -/
theorem refines_world (op : ι → Op) (setup : κ → Setup) (home : TaskId → ChatId) (cells : TaskId → Cell)
    (k : κ) (t : List (Event ι κ)) (b : Bot ι κ) (hhome : ∀ k, home (setup k).taskId = (setup k).request.chat)
    (hk : Keyed home cells) (hnew : cells (setup k).taskId = {})
    (hone : ∀ k', k' ≠ k → (setup k').taskId ≠ (setup k).taskId)
    (h : (machine op setup).Runs (start op setup cells) t b) :
    ∃ t' w, (setup k).worldMachine.Steps (Asked op (setup k)) (setup k).world t' w ∧ w.run = b.runs k ∧
      w.cell = b.board.cells (setup k).taskId := by
  obtain ⟨-, t', w, place, hsteps, hshows⟩ := shows_of_runs hhome hk hnew hone h
  exact ⟨t', w, hsteps, hshows.run, hshows.cell⟩

/-- The mirror that the sweep has stopped is a world that has been asked for it. -/
theorem swept_world : ∃ t' w, (twoMirrors true).worldMachine.Steps (Asked sweepThree (twoMirrors true))
    (twoMirrors true).world t' w ∧ w.run.pc = .draining .cancel := by
  obtain ⟨b, hb, -, hpc⟩ := sweptOne_runs
  obtain ⟨t', w, hsteps, hrun, -⟩ := refines_world sweepThree twoMirrors twoHomes (fun _ => {}) true sweptOne b
    home_twoMirrors (fun _ _ h => nomatch h) rfl (fun _ h => taskId_twoMirrors h) hb
  exact ⟨t', w, hsteps, by rw [hrun, hpc]⟩

/-- Whatever is cancelled elsewhere, one task at a time or a whole chat: a run whose task no command of its
own chat asks for goes as if it had the bot to itself, its flag is never set, and the row under its id is the
task that it saved last. -/
theorem as_if_alone (op : ι → Op) (setup : κ → Setup) (home : TaskId → ChatId) (cells : TaskId → Cell)
    (k : κ) (t : List (Event ι κ)) (b : Bot ι κ) (hhome : ∀ k, home (setup k).taskId = (setup k).request.chat)
    (hk : Keyed home cells) (hnew : cells (setup k).taskId = {})
    (hone : ∀ k', k' ≠ k → (setup k').taskId ≠ (setup k).taskId)
    (hno : ∀ i, ¬Issues (op i) ⟨(setup k).taskId, (setup k).request.chat⟩)
    (h : (machine op setup).Runs (start op setup cells) t b) :
    (∃ t', (setup k).machine.Steps (fun _ e => e.Unflagged) (setup k).init t' (b.runs k)) ∧
      b.board.cells (setup k).taskId = ⟨(b.runs k).persisted.head?,
        if (b.runs k).pc.guarded then some false else none⟩ := by
  obtain ⟨-, t', w, place, hsteps, hshows⟩ := shows_of_runs hhome hk hnew hone h
  have hothers := hsteps.mono fun w e hasked chat heq => show chat ≠ (setup k).request.chat from fun hchat => by
    obtain ⟨i, hi⟩ := hasked chat heq
    exact hno i (hchat ▸ hi)
  obtain ⟨hw, t'', hrun⟩ := World.unheeded_of_steps hothers
  rw [hshows.run] at hrun
  refine ⟨⟨t'', hrun⟩, ?_⟩
  have hrow := hw.row
  have hslot := hw.slot
  rw [hshows.run, hshows.cell] at hrow hslot
  cases hcell : b.board.cells (setup k).taskId with
  | mk row slot =>
    rw [hcell] at hrow hslot
    cases hrow
    cases hslot
    rfl

/-- The mirror of the other chat polls on, and its flag is not set. -/
theorem polls_on : ∃ b : Bot Unit Bool, (b.runs true).pc = .draining .cancel ∧
    (b.board.cells ⟨"t1"⟩).slot = some false := by
  obtain ⟨b, hb, hpoll, hpc⟩ := sweptOne_runs
  have hcell := (as_if_alone sweepThree twoMirrors twoHomes (fun _ => {}) false sweptOne b home_twoMirrors
    (fun _ _ h => nomatch h) rfl (fun _ h => taskId_twoMirrors h) (fun _ => show (⟨2⟩ : ChatId) ≠ ⟨3⟩ by decide) hb).2
  have hslot := congrArg Cell.slot hcell
  rw [hpoll] at hslot
  exact ⟨b, hpc, hslot⟩

end Bot

end Cmlb
