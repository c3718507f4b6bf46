import Cmlb.Application.Execute

/-!
# `CancelTask::execute` and the run it cancels

Everything here happens under one task id. `Cell` is what the repository and the registry hold under
it: the row, and the slot of `ActiveTaskRegistry` with its flag. `tasks_.save` is an unconditional
upsert, so a save replaces the row whatever it holds.

A `World` is one `execute` run and any number of `CancelTask::execute` calls on its task, which take
their steps in any order. As in `Run`, an answer of the repository and the resumption of the
coroutine that awaits it are two steps. Registry accesses have no suspension point around them: the
slot is created with the step that constructs `active_guard` and removed with the step that destroys
it, and the lookup of `CancelTask` is part of the step that resumes it.
-/

namespace Cmlb

/-- What the repository and `ActiveTaskRegistry` hold under one task id. -/
structure Cell where
  row : Option Task := none
  slot : Option Bool := none
deriving DecidableEq

namespace ActiveTaskRegistry

/-- `register_task`: an existing flag is kept. -/
def registerTask (slot : Option Bool) : Option Bool := some (slot.getD false)

/-- `cancel`: whether the task is registered, and the slot with its flag set. -/
def cancel : Option Bool → Bool × Option Bool
  | none => (false, none)
  | some _ => (true, some true)

def cancelled (slot : Option Bool) : Bool := slot == some true

end ActiveTaskRegistry

structure CancelTaskRequest where
  taskId : TaskId
  chat : ChatId
deriving DecidableEq

namespace CancelTask

inductive Pc
  | finding
  | loaded (r : Result (Option Task))
  -- A registered run was signalled, the acknowledgement is being sent
  | acknowledging
  | removing (task : Task)
  | saving (task : Task)
  | saved (r : Result Unit)
  | notifying
  | returned (r : Result Unit)
  | threw
deriving DecidableEq

inductive Event
  -- The repository answers `find`, with an error if there is one
  | find (err : Option AppError)
  | run
  | removed (r : Result Unit)
  | commit (r : Result Unit)
  | sent (r : Result MessageId)
  | threw
deriving DecidableEq

structure Call where
  request : CancelTaskRequest
  pc : Pc := .finding
deriving DecidableEq

/-- The loaded task, if the call goes on to the registry with it. -/
def Call.target (c : Call) : Option Task :=
  match c.pc with
  | .loaded (.ok (some task)) =>
    if task.metadata.chat = c.request.chat ∧ task.isTerminal = false then some task else none
  | _ => none

def Call.refusal (c : Call) : Result (Option Task) → AppError
  | .error err => err
  | .ok none => ⟨.notFound, "cancel: task not found"⟩
  | .ok (some task) =>
    if task.metadata.chat ≠ c.request.chat then
      ⟨.permissionDenied, "cancel: task belongs to a different chat"⟩
    else ⟨.invalidState, "cancel: task already in a terminal state"⟩

def markCancelled (now : Time) (task : Task) : Pc :=
  match task.markCancelled now with
  | .error err => .returned (.error err)
  | .ok task => .saving task

/-- No live coroutine: the teardown is done here. -/
def teardown (now : Time) (task : Task) : Pc :=
  match task.downloaderId, task.downloaderKind with
  | some _, .aria2 | some _, .qbittorrent => .removing task
  | _, _ => markCancelled now task

/-- The rest of the first resumption: the checks, then `active_tasks_.cancel`. -/
def signal (now : Time) (r : Result (Option Task)) (cell : Cell) (c : Call) : Pc × Cell :=
  match c.target with
  | none => (.returned (.error (c.refusal r)), cell)
  | some task =>
    let (hit, slot) := ActiveTaskRegistry.cancel cell.slot
    if hit then (.acknowledging, { cell with slot := slot })
    else (teardown now task, cell)

def commit (task : Task) (r : Result Unit) (cell : Cell) : Cell :=
  match r with
  | .ok _ => { cell with row := some task }
  | .error _ => cell

def step (now : Time) (c : Call) (e : Event) (cell : Cell) : Option (Pc × Cell) :=
  match c.pc, e with
  | .finding, .find none => some (.loaded (.ok cell.row), cell)
  | .finding, .find (some err) => some (.loaded (.error err), cell)
  | .loaded r, .run => some (signal now r cell c)
  | .acknowledging, .sent _ => some (.returned (.ok ()), cell)
  | .removing task, .removed _ => some (markCancelled now task, cell)
  | .saving task, .commit r => some (.saved r, commit task r cell)
  | .saved (.error err), .run => some (.returned (.error err), cell)
  | .saved (.ok _), .run => some (.notifying, cell)
  | .notifying, .sent _ => some (.returned (.ok ()), cell)
  | .returned _, .threw | .threw, .threw => none
  | _, .threw => some (.threw, cell)
  | _, _ => none

end CancelTask

structure World where
  run : Run
  cell : Cell := {}
  cancels : List CancelTask.Call := []
deriving DecidableEq

namespace World

inductive Event
  | run (e : Cmlb.Event)
  | request (chat : ChatId)
  | cancel (i : Nat) (e : CancelTask.Event)
deriving DecidableEq

def readsFlag (w : World) : Cmlb.Event → Bool
  | .head _ registryCancelled => registryCancelled == ActiveTaskRegistry.cancelled w.cell.slot
  | _ => true

/-- The row after a step of the run: a successful save writes the task as it was passed. -/
def rowAfter (w : World) : Cmlb.Event → Option Task
  | .commit (.ok _) => some w.run.task
  | _ => w.cell.row

/-- The slot after the run has moved to `r`: `active_guard` registers and unregisters. -/
def slotAfter (w : World) (r : Run) : Option Bool :=
  if r.pc.guarded then
    if w.run.pc.guarded then w.cell.slot else ActiveTaskRegistry.registerTask w.cell.slot
  else if w.run.pc.guarded then none
  else w.cell.slot

def afterRun (w : World) (e : Cmlb.Event) (r : Run) : World :=
  { w with run := r, cell := ⟨w.rowAfter e, w.slotAfter r⟩ }

def step (S : Setup) (w : World) : Event → Option World
  | .run e => if w.readsFlag e then (w.run.step S e).map (w.afterRun e) else none
  | .request chat => some { w with cancels := w.cancels ++ [{ request := ⟨S.taskId, chat⟩ }] }
  | .cancel i e =>
    match w.cancels[i]? with
    | none => none
    | some c =>
      (CancelTask.step w.run.now c e w.cell).map fun (pc, cell) =>
        { w with cell := cell, cancels := w.cancels.set i { c with pc := pc } }

end World

def Setup.world (S : Setup) : World := { run := S.init }

def Setup.worldMachine (S : Setup) : Machine World World.Event := ⟨World.step S⟩

end Cmlb
