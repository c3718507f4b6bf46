import Cmlb.Lib.Interleave
import Cmlb.Application.CancelTask

/-!
# Commands on the tasks of one chat

`CancelTask::execute`, `CancelTask::cancel_all`, `PauseTask::execute` and `ResumeTask::execute` on
the whole repository. `Board` has the row and the registry slot of every task id; beside them it
keeps the rows that `find` has returned and the calls to the downloaders, each with the run they
belong to. Everyone else may change the board at any time (`env`), but a task id stays with one chat:
`home id`. `save` writes under the id of the task it is given.

Nothing that a run does reaches a task of another chat, and the counts of `cancel_all` cover the
listed tasks of its chat (`chat_scoped`).
-/

namespace Cmlb

namespace TaskControl

inductive Verb
  | pause | resume | remove
deriving DecidableEq

structure DownloaderCall where
  verb : Verb
  kind : DownloaderKind
  gid : Gid
deriving DecidableEq

structure Board (ι : Type) where
  cells : TaskId → Cell
  found : List (ι × Task)
  calls : List (ι × DownloaderCall)

structure CancelAllResult where
  cancelled : Nat := 0
  failed : Nat := 0
deriving DecidableEq

inductive Op
  | cancel (request : CancelTaskRequest)
  | cancelAll (chat : ChatId)
  | pause (request : CancelTaskRequest)
  | resume (request : CancelTaskRequest)

def Op.chat : Op → ChatId
  | .cancel request | .pause request | .resume request => request.chat
  | .cancelAll chat => chat

inductive Pc
  | cancelling (call : CancelTask.Call)
  -- `cancel_all`: in `incomplete`, in `execute` for one of the listed tasks, sending the summary
  | listing
  | sweeping (listed rest : List Task) (call : CancelTask.Call) (result : CancelAllResult)
  | reporting (listed : List Task) (result : CancelAllResult)
  | swept (listed : List Task) (r : Result CancelAllResult)
  -- `PauseTask` and `ResumeTask`
  | finding
  | loaded (r : Result (Option Task))
  | calling
  | notifying
  | returned (r : Result Unit)
  | threw

inductive Event
  -- a step of `CancelTask::execute`
  | execute (now : Time) (e : CancelTask.Event)
  | listed (r : Result (List Task))
  | find (err : Option AppError)
  | run
  | called (r : Result Unit)
  | sent (r : Result MessageId)
  | threw

/-- What `PauseTask` and `ResumeTask` differ in: the downloader call and the texts. -/
structure Control where
  verb : Verb
  name : String
  unbound : String

def pauseTask : Control := ⟨.pause, "pause", "pause: task has no downloader binding (still queued?)"⟩

def resumeTask : Control := ⟨.resume, "resume", "resume: task has no downloader binding"⟩

def Op.control : Op → Option (Control × CancelTaskRequest)
  | .pause request => some (pauseTask, request)
  | .resume request => some (resumeTask, request)
  | _ => none

/-- The checks between `find` and the downloader. -/
def Control.check (c : Control) (request : CancelTaskRequest) : Result (Option Task) → Result Task
  | .error err => .error err
  | .ok none => .error ⟨.notFound, c.name ++ ": task not found"⟩
  | .ok (some task) =>
    if task.metadata.chat ≠ request.chat then
      .error ⟨.permissionDenied, c.name ++ ": task belongs to a different chat"⟩
    else if task.isTerminal then
      .error ⟨.invalidState, c.name ++ ": task already in a terminal state"⟩
    else if task.downloaderId = none ∨ task.downloaderKind = .none then .error ⟨.invalidState, c.unbound⟩
    else .ok task

def callFor (verb : Verb) (task : Task) : List DownloaderCall :=
  task.downloaderId.toList.map fun gid => ⟨verb, task.downloaderKind, gid⟩

variable {ι : Type}

/-- The id under which the next step of the call reads and writes. -/
def touches (call : CancelTask.Call) : TaskId :=
  match call.pc with
  | .saving task => task.metadata.id
  | _ => call.request.taskId

def foundBy (i : ι) (call : CancelTask.Call) (pc : CancelTask.Pc) : List (ι × Task) :=
  match call.pc, pc with
  | .finding, .loaded (.ok (some task)) => [(i, task)]
  | _, _ => []

def removedBy (i : ι) : CancelTask.Pc → List (ι × DownloaderCall)
  | .removing task => (callFor .remove task).map (i, ·)
  | _ => []

/-- A step of `CancelTask::execute`. -/
def execute (i : ι) (now : Time) (call : CancelTask.Call) (e : CancelTask.Event) (sh : Board ι) :
    Option (Board ι × CancelTask.Pc) :=
  (CancelTask.step now call e (sh.cells (touches call))).map fun x =>
    ({ cells := Function.update sh.cells (touches call) x.2
       found := foundBy i call x.1 ++ sh.found
       calls := removedBy i x.1 ++ sh.calls }, x.1)

/-- On to the next of the listed tasks that is in the chat. -/
def sweep (chat : ChatId) (listed : List Task) : List Task → CancelAllResult → Pc
  | [], result => .reporting listed result
  | task :: rest, result =>
    if task.metadata.chat ≠ chat then sweep chat listed rest result
    else .sweeping listed rest { request := ⟨task.metadata.id, chat⟩ } result

def CancelAllResult.count (result : CancelAllResult) : Result Unit → CancelAllResult
  | .ok _ => { result with cancelled := result.cancelled + 1 }
  | .error _ => { result with failed := result.failed + 1 }

/-- The sweep after a step of its current `execute`. -/
def resumeSweep (chat : ChatId) (listed rest : List Task) (call : CancelTask.Call)
    (result : CancelAllResult) : CancelTask.Pc → Pc
  | .returned r => sweep chat listed rest (result.count r)
  | .threw => .threw
  | pc => .sweeping listed rest { call with pc := pc } result

/-- `PauseTask` and `ResumeTask`. -/
def controlStep (i : ι) (c : Control) (request : CancelTaskRequest) (sh : Board ι) :
    Pc → Event → Option (Board ι × Pc)
  | .finding, .find (some err) => some (sh, .loaded (.error err))
  | .finding, .find none =>
    let row := (sh.cells request.taskId).row
    some ({ sh with found := row.toList.map (i, ·) ++ sh.found }, .loaded (.ok row))
  | .loaded r, .run =>
    match c.check request r with
    | .error err => some (sh, .returned (.error err))
    | .ok task =>
      some ({ sh with calls := (callFor c.verb task).map (i, ·) ++ sh.calls }, .calling)
  | .calling, .called (.error err) => some (sh, .returned (.error err))
  | .calling, .called (.ok _) => some (sh, .notifying)
  | .notifying, .sent _ => some (sh, .returned (.ok ()))
  | .finding, .threw | .calling, .threw | .notifying, .threw => some (sh, .threw)
  | _, _ => none

variable (op : ι → Op)

def act (i : ι) (sh : Board ι) (pc : Pc) (e : Event) : Option (Board ι × Pc) :=
  match pc, e with
  | .cancelling call, .execute now e =>
    (execute i now call e sh).map fun x => (x.1, .cancelling { call with pc := x.2 })
  | .listing, .listed (.error err) => some (sh, .swept [] (.error err))
  | .listing, .listed (.ok tasks) => some (sh, sweep (op i).chat tasks tasks {})
  | .sweeping listed rest call result, .execute now e =>
    (execute i now call e sh).map fun x => (x.1, resumeSweep (op i).chat listed rest call result x.2)
  | .reporting listed result, .sent _ => some (sh, .swept listed (.ok result))
  | .listing, .threw | .reporting _ _, .threw => some (sh, .threw)
  | pc, e =>
    match (op i).control with
    | none => none
    | some (c, request) => controlStep i c request sh pc e

def commands : Interleaving ι (Board ι) Pc (TaskId → Cell) Event where
  env sh cells := some { sh with cells := cells }
  act := act op

def Op.start : Op → Pc
  | .cancel request => .cancelling { request := request }
  | .cancelAll _ => .listing
  | .pause _ | .resume _ => .finding

def start (cells : TaskId → Cell) : Sys ι (Board ι) Pc := ⟨⟨cells, [], []⟩, fun i => (op i).start⟩

/-- A row stands under its own id, and in the chat of that id. -/
def Keyed (home : TaskId → ChatId) (cells : TaskId → Cell) : Prop :=
  ∀ id task, (cells id).row = some task → task.metadata.id = id ∧ task.metadata.chat = home id

/-- Whoever else writes keeps to that. -/
def Others (home : TaskId → ChatId) : SysEvent ι (TaskId → Cell) Event → Prop
  | .env cells => Keyed home cells
  | .act _ _ => True

/-! ### A step of `CancelTask::execute` -/

section Execute

variable {now : Time} {call : CancelTask.Call} {e : CancelTask.Event} {pc : CancelTask.Pc} {cell cell' : Cell}

theorem target_inv {task : Task} (h : call.target = some task) :
    call.pc = .loaded (.ok (some task)) ∧ task.metadata.chat = call.request.chat := by
  unfold CancelTask.Call.target at h
  split at h
  · rename_i t hpc
    split at h
    · cases h
      exact ⟨hpc, And.left ‹_›⟩
    · cases h
  · cases h

/-- What `execute` does with what it has loaded. -/
theorem signal_cases (now : Time) (r : Result (Option Task)) (cell : Cell) (call : CancelTask.Call) :
    (∃ x, CancelTask.signal now r cell call = (.returned x, cell)) ∨
    ∃ task, call.target = some task ∧
      ((∃ slot, CancelTask.signal now r cell call = (.acknowledging, { cell with slot := slot })) ∨
        CancelTask.signal now r cell call = (CancelTask.teardown now task, cell)) := by
  unfold CancelTask.signal
  split
  · exact .inl ⟨_, rfl⟩
  · rename_i task ht
    rcases cell.slot with _ | b
    · exact .inr ⟨task, ht, .inr rfl⟩
    · exact .inr ⟨task, ht, .inl ⟨_, rfl⟩⟩

/-- Only the slot of a task that passed the checks, or the row of the task being saved, changes. -/
theorem step_cell (h : CancelTask.step now call e cell = some (pc, cell')) :
    cell' = cell ∨ (∃ task, call.target = some task ∧ cell'.row = cell.row) ∨
    ∃ task, call.pc = .saving task ∧ cell'.row = some task := by
  unfold CancelTask.step at h
  split at h
  case h_3 r hpc =>
    rcases signal_cases now r cell call with ⟨x, hs⟩ | ⟨task, ht, ⟨slot, hs⟩ | hs⟩ <;>
      rw [hs] at h <;> cases h
    · exact .inl rfl
    · exact .inr (.inl ⟨task, ht, rfl⟩)
    · exact .inl rfl
  case h_6 task r hpc =>
    cases h
    cases r with
    | error err => exact .inl rfl
    | ok x => exact .inr (.inr ⟨task, hpc, rfl⟩)
  all_goals cases h
  all_goals exact .inl rfl

/-- The same task, as far as its id and its chat go. -/
def SameTask (task task' : Task) : Prop :=
  task'.metadata.id = task.metadata.id ∧ task'.metadata.chat = task.metadata.chat

theorem markCancelled_same {task task' : Task} (h : CancelTask.markCancelled now task = .saving task') :
    SameTask task task' := by
  unfold CancelTask.markCancelled at h
  split at h
  · cases h
  · rename_i t ht
    cases h
    rw [(Task.transition_eq_ok ht).2]
    exact ⟨rfl, rfl⟩

/-- Where the task comes from that the call goes on with. -/
def After (call : CancelTask.Call) (cell : Cell) : CancelTask.Pc → Prop
  | .loaded r => call.pc = .finding ∧ ∀ task, r = .ok (some task) → cell.row = some task
  | .removing task => call.target = some task
  | .saving task' => ∃ task, (call.target = some task ∨ call.pc = .removing task) ∧ SameTask task task'
  | _ => True

theorem after_markCancelled {task : Task} (h : call.target = some task ∨ call.pc = .removing task) :
    After call cell (CancelTask.markCancelled now task) := by
  cases hm : CancelTask.markCancelled now task with
  | saving task' => exact ⟨task, h, markCancelled_same hm⟩
  | loaded r =>
    unfold CancelTask.markCancelled at hm
    split at hm <;> cases hm
  | removing task' =>
    unfold CancelTask.markCancelled at hm
    split at hm <;> cases hm
  | _ => trivial

theorem step_after (h : CancelTask.step now call e cell = some (pc, cell')) : After call cell pc := by
  unfold CancelTask.step at h
  split at h
  case h_1 hpc =>
    cases h
    exact ⟨hpc, fun task ht => Except.ok.inj ht⟩
  case h_2 hpc =>
    cases h
    exact ⟨hpc, fun task ht => nomatch ht⟩
  case h_3 r hpc =>
    rcases signal_cases now r cell call with ⟨x, hs⟩ | ⟨task, ht, ⟨slot, hs⟩ | hs⟩ <;>
      rw [hs] at h <;> cases h
    · trivial
    · trivial
    · unfold CancelTask.teardown
      split
      · exact ht
      · exact ht
      · exact after_markCancelled (.inl ht)
  case h_5 task r hpc =>
    cases h
    exact after_markCancelled (.inr hpc)
  all_goals cases h
  all_goals trivial

end Execute

/-! ### What a run holds -/

variable {op} {home : TaskId → ChatId} {i : ι} {sh sh' : Board ι}

/-- The tasks a call of `execute` works with. -/
def CallOk (home : TaskId → ChatId) (found : Task → Prop) (call : CancelTask.Call) : Prop :=
  match call.pc with
  | .loaded r => ∀ task, r = .ok (some task) →
      found task ∧ task.metadata.id = call.request.taskId ∧ task.metadata.chat = home call.request.taskId
  | .removing task | .saving task => task.metadata.id = call.request.taskId ∧
      task.metadata.chat = call.request.chat ∧ home call.request.taskId = call.request.chat
  | _ => True

/-- A call to a downloader is on the binding of a task of the chat, which the run has found. -/
def CallFor (chat : ChatId) (sh : Board ι) (x : ι × DownloaderCall) : Prop :=
  ∃ task, (x.1, task) ∈ sh.found ∧ task.metadata.chat = chat ∧
    task.downloaderId = some x.2.gid ∧ task.downloaderKind = x.2.kind

/-- What a step of run `i` leaves as it was, and what it may add. -/
structure Framed (home : TaskId → ChatId) (i : ι) (chat : ChatId) (sh sh' : Board ι) : Prop where
  cells : ∀ id, home id ≠ chat → sh'.cells id = sh.cells id
  keyed : Keyed home sh'.cells
  found : ∀ x ∈ sh.found, x ∈ sh'.found
  calls : ∀ x ∈ sh'.calls, x ∈ sh.calls ∨ x.1 = i ∧ CallFor chat sh' x

theorem Framed.refl (hk : Keyed home sh.cells) {chat : ChatId} : Framed home i chat sh sh :=
  ⟨fun _ _ => rfl, hk, fun _ h => h, fun _ h => .inl h⟩

theorem mem_callFor {verb : Verb} {task : Task} {x : ι × DownloaderCall}
    (h : x ∈ (callFor verb task).map (i, ·)) :
    x.1 = i ∧ task.downloaderId = some x.2.gid ∧ task.downloaderKind = x.2.kind := by
  simp only [callFor, List.mem_map, Option.mem_toList] at h
  obtain ⟨call, ⟨gid, hgid, rfl⟩, rfl⟩ := h
  exact ⟨rfl, hgid, rfl⟩

/-- A task that passed the checks is at home in the chat of the request. -/
theorem CallOk.target {found : Task → Prop} {call : CancelTask.Call} {task : Task}
    (h : CallOk home found call) (ht : call.target = some task) :
    found task ∧ task.metadata.id = call.request.taskId ∧ task.metadata.chat = call.request.chat ∧
      home call.request.taskId = call.request.chat := by
  obtain ⟨hpc, hchat⟩ := target_inv ht
  unfold CallOk at h
  rw [hpc] at h
  obtain ⟨hf, hid, hhome⟩ := h task rfl
  exact ⟨hf, hid, hchat, hhome.symm.trans hchat⟩

theorem CallOk.saving {found : Task → Prop} {call : CancelTask.Call} {task : Task}
    (h : CallOk home found call) (hpc : call.pc = .saving task) :
    task.metadata.id = call.request.taskId ∧ task.metadata.chat = call.request.chat ∧
      home call.request.taskId = call.request.chat := by
  unfold CallOk at h
  rwa [hpc] at h

theorem CallOk.touches {found : Task → Prop} {call : CancelTask.Call} (h : CallOk home found call) :
    touches call = call.request.taskId := by
  unfold TaskControl.touches
  split
  · exact (h.saving ‹_›).1
  · rfl

section

variable {now : Time} {call : CancelTask.Call} {e : CancelTask.Event} {pc : CancelTask.Pc}

/-- The cell under the id of the request changes only when that is a task of the request's chat. -/
theorem execute_cells (hk : Keyed home sh.cells) (hc : CallOk home (fun t => (i, t) ∈ sh.found) call)
    {cell : Cell} (hs : CancelTask.step now call e (sh.cells call.request.taskId) = some (pc, cell)) :
    (home call.request.taskId ≠ call.request.chat → cell = sh.cells call.request.taskId) ∧
    ∀ task, cell.row = some task →
      task.metadata.id = call.request.taskId ∧ task.metadata.chat = home call.request.taskId := by
  rcases step_cell hs with rfl | ⟨task, ht, hrow⟩ | ⟨task, hpc, hrow⟩
  · exact ⟨fun _ => rfl, hk _⟩
  · refine ⟨fun hne => absurd (hc.target ht).2.2.2 hne, ?_⟩
    rw [hrow]
    exact hk _
  · obtain ⟨hid, hchat, hhome⟩ := hc.saving hpc
    refine ⟨fun hne => absurd hhome hne, fun t h => ?_⟩
    cases hrow.symm.trans h
    exact ⟨hid, hchat.trans hhome.symm⟩

theorem execute_callOk (hk : Keyed home sh.cells) (hc : CallOk home (fun t => (i, t) ∈ sh.found) call)
    (ha : After call (sh.cells call.request.taskId) pc) :
    CallOk home (fun t => (i, t) ∈ foundBy i call pc ++ sh.found) { call with pc := pc } := by
  cases pc with
  | loaded r =>
    intro task hr
    subst hr
    obtain ⟨hpc, hrow⟩ := ha
    obtain ⟨hid, hchat⟩ := hk _ task (hrow task rfl)
    refine ⟨List.mem_append_left _ ?_, hid, hchat⟩
    simp [foundBy, hpc]
  | removing task => exact (hc.target ha).2
  | saving task' =>
    obtain ⟨task, ht | hpc, hsame⟩ := ha
    · obtain ⟨-, hid, hchat, hhome⟩ := hc.target ht
      exact ⟨hsame.1.trans hid, hsame.2.trans hchat, hhome⟩
    · unfold CallOk at hc
      rw [hpc] at hc
      exact ⟨hsame.1.trans hc.1, hsame.2.trans hc.2.1, hc.2.2⟩
  | _ => trivial

theorem execute_framed (hk : Keyed home sh.cells) (hc : CallOk home (fun t => (i, t) ∈ sh.found) call)
    (h : execute i now call e sh = some (sh', pc)) :
    Framed home i call.request.chat sh sh' ∧
      CallOk home (fun t => (i, t) ∈ sh'.found) { call with pc := pc } := by
  unfold execute at h
  rw [hc.touches] at h
  obtain ⟨⟨pc, cell⟩, hs, h⟩ := Option.map_eq_some_iff.1 h
  cases h
  obtain ⟨hcell, hrow⟩ := execute_cells hk hc hs
  have ha := step_after hs
  refine ⟨⟨fun id hid => ?_, fun id task ht => ?_, fun x hx => List.mem_append_right _ hx, fun x hx => ?_⟩,
    execute_callOk hk hc ha⟩
  · by_cases hi : id = call.request.taskId
    · subst hi
      rw [hcell hid, Function.update_eq_self]
    · exact Function.update_of_ne hi _ _
  · change (Function.update sh.cells call.request.taskId cell id).row = some task at ht
    by_cases hi : id = call.request.taskId
    · subst hi
      rw [Function.update_self] at ht
      exact hrow task ht
    · rw [Function.update_of_ne hi] at ht
      exact hk id task ht
  · rcases List.mem_append.1 hx with hx | hx
    · cases pc with
      | removing task =>
        obtain ⟨hi, hgid, hkind⟩ := mem_callFor hx
        obtain ⟨hfound, -, hchat, -⟩ := hc.target ha
        exact .inr ⟨hi, task, List.mem_append_right _ (hi ▸ hfound), hchat, hgid, hkind⟩
      | _ => cases hx
    · exact .inl hx

end

/-! ### Every step -/

/-- The tasks of the chat. -/
def inChat (chat : ChatId) (tasks : List Task) : Nat := tasks.countP (·.metadata.chat = chat)

def CancelAllResult.total (result : CancelAllResult) : Nat := result.cancelled + result.failed

/-- What run `i` is about to do concerns tasks of its chat, and a sweep has counted what it has
passed. -/
def Own (home : TaskId → ChatId) (op : ι → Op) (i : ι) (sh : Board ι) : Pc → Prop
  | .cancelling call => call.request.chat = (op i).chat ∧ CallOk home (fun t => (i, t) ∈ sh.found) call
  | .sweeping listed rest call result => call.request.chat = (op i).chat ∧
      CallOk home (fun t => (i, t) ∈ sh.found) call ∧
      result.total + 1 + inChat (op i).chat rest = inChat (op i).chat listed
  | .reporting listed result => result.total = inChat (op i).chat listed
  | .swept listed r => ∀ result, r = .ok result → result.total = inChat (op i).chat listed
  | .loaded r => ∀ task, r = .ok (some task) → (i, task) ∈ sh.found
  | _ => True

theorem CallOk.mono {found found' : Task → Prop} {call : CancelTask.Call} (h : CallOk home found call)
    (hf : ∀ t, found t → found' t) : CallOk home found' call := by
  unfold CallOk at h ⊢
  split
  · rename_i hpc
    rw [hpc] at h
    exact fun task ht => ⟨hf _ (h task ht).1, (h task ht).2⟩
  all_goals simp_all

theorem Own.mono {pc : Pc} (h : Own home op i sh pc) (hf : ∀ x ∈ sh.found, x ∈ sh'.found) :
    Own home op i sh' pc := by
  cases pc with
  | cancelling call => exact ⟨h.1, h.2.mono fun t => hf _⟩
  | sweeping listed rest call result => exact ⟨h.1, h.2.1.mono fun t => hf _, h.2.2⟩
  | loaded r => exact fun task hr => hf _ (h task hr)
  | _ => exact h

theorem inChat_cons (chat : ChatId) (task : Task) (rest : List Task) :
    inChat chat (task :: rest) = inChat chat rest + if task.metadata.chat = chat then 1 else 0 := by
  simp [inChat, List.countP_cons]

/-- A sweep passes over the tasks of other chats. -/
theorem own_sweep {listed rest : List Task} {result : CancelAllResult}
    (h : result.total + inChat (op i).chat rest = inChat (op i).chat listed) :
    Own home op i sh (sweep (op i).chat listed rest result) := by
  induction rest with
  | nil => exact h
  | cons task rest ih =>
    rw [inChat_cons] at h
    unfold sweep
    split
    · rename_i hne
      rw [if_neg hne] at h
      exact ih h
    · rename_i heq
      rw [if_pos (not_not.1 heq)] at h
      exact ⟨rfl, trivial, by omega⟩

theorem total_count (result : CancelAllResult) (r : Result Unit) :
    (result.count r).total = result.total + 1 := by
  cases r <;> simp [CancelAllResult.count, CancelAllResult.total] <;> omega

theorem check_eq_ok {c : Control} {request : CancelTaskRequest} {r : Result (Option Task)} {task : Task}
    (h : c.check request r = .ok task) : r = .ok (some task) ∧ task.metadata.chat = request.chat := by
  unfold Control.check at h
  split at h
  · cases h
  · cases h
  · rename_i t
    split_ifs at h with hchat
    cases h
    exact ⟨rfl, not_not.1 hchat⟩

theorem Op.control_chat {o : Op} {c : Control} {request : CancelTaskRequest}
    (h : o.control = some (c, request)) : request.chat = o.chat := by
  cases o <;> cases h <;> rfl

theorem controlStep_framed {c : Control} {request : CancelTaskRequest} {pc pc' : Pc} {e : Event}
    (hr : request.chat = (op i).chat) (hk : Keyed home sh.cells) (ho : Own home op i sh pc)
    (h : controlStep i c request sh pc e = some (sh', pc')) :
    Framed home i (op i).chat sh sh' ∧ Own home op i sh' pc' := by
  unfold controlStep at h
  split at h
  case h_1 =>
    cases h
    exact ⟨.refl hk, fun task h => nomatch h⟩
  case h_2 =>
    cases h
    refine ⟨⟨fun _ _ => rfl, hk, fun x hx => List.mem_append_right _ hx, fun x hx => .inl hx⟩, ?_⟩
    intro task ht
    refine List.mem_append_left _ ?_
    simp [Except.ok.inj ht]
  case h_3 r =>
    split at h
    · cases h
      exact ⟨.refl hk, trivial⟩
    · rename_i task hcheck
      cases h
      obtain ⟨rfl, hchat⟩ := check_eq_ok hcheck
      refine ⟨⟨fun _ _ => rfl, hk, fun x hx => hx, fun x hx => ?_⟩, trivial⟩
      rcases List.mem_append.1 hx with hx | hx
      · obtain ⟨hi, hgid, hkind⟩ := mem_callFor hx
        exact .inr ⟨hi, task, hi ▸ ho task rfl, hchat.trans hr, hgid, hkind⟩
      · exact .inl hx
  all_goals cases h
  all_goals exact ⟨.refl hk, trivial⟩

theorem own_resumeSweep {listed rest : List Task} {call : CancelTask.Call} {result : CancelAllResult}
    {pc : CancelTask.Pc} (hr : call.request.chat = (op i).chat)
    (hc : CallOk home (fun t => (i, t) ∈ sh.found) { call with pc := pc })
    (hn : result.total + 1 + inChat (op i).chat rest = inChat (op i).chat listed) :
    Own home op i sh (resumeSweep (op i).chat listed rest call result pc) := by
  cases pc with
  | returned r =>
    refine own_sweep ?_
    rw [total_count]
    exact hn
  | threw => trivial
  | _ => exact ⟨hr, hc, hn⟩

theorem act_framed {pc pc' : Pc} {e : Event} (hk : Keyed home sh.cells) (ho : Own home op i sh pc)
    (h : act op i sh pc e = some (sh', pc')) :
    Framed home i (op i).chat sh sh' ∧ Own home op i sh' pc' := by
  unfold act at h
  split at h
  case h_1 call now e =>
    obtain ⟨⟨sh₁, pc₁⟩, hx, h⟩ := Option.map_eq_some_iff.1 h
    cases h
    obtain ⟨hf, hc⟩ := execute_framed hk ho.2 hx
    exact ⟨ho.1 ▸ hf, ho.1, hc⟩
  case h_2 =>
    cases h
    exact ⟨.refl hk, fun result h => nomatch h⟩
  case h_3 tasks =>
    cases h
    exact ⟨.refl hk, own_sweep (by simp [CancelAllResult.total])⟩
  case h_4 listed rest call result now e =>
    obtain ⟨⟨sh₁, pc₁⟩, hx, h⟩ := Option.map_eq_some_iff.1 h
    cases h
    obtain ⟨hf, hc⟩ := execute_framed hk ho.2.1 hx
    exact ⟨ho.1 ▸ hf, own_resumeSweep ho.1 hc ho.2.2⟩
  case h_5 listed result r =>
    cases h
    refine ⟨.refl hk, fun result h => ?_⟩
    cases h
    exact ho
  case h_6 =>
    cases h
    exact ⟨.refl hk, trivial⟩
  case h_7 =>
    cases h
    exact ⟨.refl hk, trivial⟩
  case h_8 =>
    split at h
    · cases h
    · exact controlStep_framed (Op.control_chat ‹_›) hk ho h

/-! ### Whole runs -/

variable [DecidableEq ι] {cells : TaskId → Cell} {s : Sys ι (Board ι) Pc}
  {t : List (SysEvent ι (TaskId → Cell) Event)}

structure Inv (home : TaskId → ChatId) (op : ι → Op) (s : Sys ι (Board ι) Pc) : Prop where
  keyed : Keyed home s.shared.cells
  own : ∀ i, Own home op i s.shared (s.locals i)
  calls : ∀ x ∈ s.shared.calls, CallFor (op x.1).chat s.shared x

omit [DecidableEq ι] in
theorem inv_start (hk : Keyed home cells) : Inv home op (start op cells) := by
  refine ⟨hk, fun i => ?_, fun x hx => nomatch hx⟩
  show Own home op i _ (op i).start
  cases hop : op i with
  | cancel request => exact ⟨by rw [hop]; rfl, trivial⟩
  | _ => trivial

theorem Inv.step {s' : Sys ι (Board ι) Pc} {e : SysEvent ι (TaskId → Cell) Event} (hI : Inv home op s)
    (he : Others home e) (hs : (commands op).machine.step s e = some s') : Inv home op s' := by
  obtain ⟨sh', w'⟩ := s'
  rcases Interleaving.step_inv hs with ⟨cells, rfl, henv, rfl⟩ | ⟨i, x, pc', rfl, hact, rfl⟩
  · cases henv
    exact ⟨he, fun i => (hI.own i).mono fun x hx => hx, hI.calls⟩
  · obtain ⟨hf, ho⟩ := act_framed hI.keyed (hI.own i) hact
    refine ⟨hf.keyed, fun j => ?_, fun x hx => ?_⟩
    · show Own home op j sh' (Function.update s.locals i pc' j)
      by_cases hj : j = i
      · subst hj
        rwa [Function.update_self]
      · rw [Function.update_of_ne hj]
        exact (hI.own j).mono hf.found
    · rcases hf.calls x hx with hx | ⟨hi, hx⟩
      · obtain ⟨task, hfound, hrest⟩ := hI.calls x hx
        exact ⟨task, hf.found _ hfound, hrest⟩
      · rw [hi]
        exact hx

/-- A step of a command for the chat `c`. -/
def IssuedFor (op : ι → Op) (c : ChatId) : SysEvent ι (TaskId → Cell) Event → Prop
  | .env _ => False
  | .act i _ => (op i).chat = c

/-- Any number of steps of commands for the chat `c`. -/
theorem cells_issuedFor {c : ChatId} {s' : Sys ι (Board ι) Pc} (hI : Inv home op s)
    (h : (commands op).machine.Steps (fun _ e => IssuedFor op c e) s t s') :
    Inv home op s' ∧ ∀ id, home id ≠ c → s'.shared.cells id = s.shared.cells id := by
  induction h with
  | nil => exact ⟨hI, fun _ _ => rfl⟩
  | @snoc s₁ s₂ t e _ he hs ih =>
    obtain ⟨hI₁, hcells⟩ := ih
    cases e with
    | env cells => exact he.elim
    | act i x =>
      have hothers : Others home (.act i x : SysEvent ι (TaskId → Cell) Event) := trivial
      refine ⟨hI₁.step hothers hs, fun id hid => ?_⟩
      rcases Interleaving.step_inv hs with ⟨y, hy, -⟩ | ⟨j, y, pc', hy, hact, -⟩
      · cases hy
      · cases hy
        have hf := (act_framed hI₁.keyed (hI₁.own i) hact).1
        rw [hf.cells id (he.symm ▸ hid), hcells id hid]

/-- Wherever the runs stand, and whatever others have done to the repository and the registry, the
commands for a chat leave every row and every flag of other chats alone; the downloader calls made
are on tasks of the chat; and `cancel_all` counts every listed task of its chat, once. -/
theorem chat_scoped (hk : Keyed home cells)
    (h : (commands op).machine.Steps (fun _ e => Others home e) (start op cells) t s) :
    (∀ c t' s', (commands op).machine.Steps (fun _ e => IssuedFor op c e) s t' s' →
      ∀ id, home id ≠ c → s'.shared.cells id = s.shared.cells id) ∧
    (∀ i call, (i, call) ∈ s.shared.calls → ∃ task, (i, task) ∈ s.shared.found ∧
      task.metadata.chat = (op i).chat ∧ task.downloaderId = some call.gid ∧
      task.downloaderKind = call.kind) ∧
    ∀ i listed result, s.locals i = .swept listed (.ok result) →
      result.cancelled + result.failed = listed.countP (·.metadata.chat = (op i).chat) := by
  have hI := h.invariant (inv_start hk) fun s e s' he hI hs => hI.step he hs
  refine ⟨fun c t' s' hc => (cells_issuedFor hI hc).2, fun i call hcall => hI.calls (i, call) hcall, ?_⟩
  intro i listed result hpc
  have ho := hI.own i
  rw [hpc] at ho
  exact ho result rfl

/-- Two parked tasks, of different chats. -/
def parked (id : String) (chat : Int) : Task where
  metadata := ⟨⟨id⟩, ⟨1⟩, ⟨chat⟩, ⟨0⟩, .mirror, "magnet:" ++ id, 0, 0⟩
  state := .downloading
  downloaderId := some ⟨id⟩
  downloaderKind := .aria2

def twoTasks (id : TaskId) : Cell :=
  if id = ⟨"a"⟩ then ⟨some (parked "a" 1), none⟩
  else if id = ⟨"b"⟩ then ⟨some (parked "b" 2), some false⟩
  else {}

def twoChats (id : TaskId) : ChatId := if id = ⟨"b"⟩ then ⟨2⟩ else ⟨1⟩

theorem twoTasks_keyed : Keyed twoChats twoTasks := by
  intro id task h
  unfold twoTasks at h
  split_ifs at h with ha hb
  · cases h
    subst ha
    exact ⟨rfl, rfl⟩
  · cases h
    subst hb
    exact ⟨rfl, rfl⟩

/-- `/cancelall` in chat 1, with both tasks listed. -/
def cancelAllRun : List (SysEvent Unit (TaskId → Cell) Event) :=
  [.act () (.listed (.ok [parked "b" 2, parked "a" 1])), .act () (.execute 5 (.find none)),
    .act () (.execute 5 .run), .act () (.execute 5 (.removed (.ok ()))),
    .act () (.execute 5 (.commit (.ok ()))), .act () (.execute 5 .run),
    .act () (.execute 5 (.sent (.ok ⟨3⟩))), .act () (.sent (.ok ⟨4⟩))]

theorem cancelAll_scoped : ∃ s,
    (commands fun _ : Unit => .cancelAll ⟨1⟩).machine.Runs (start (fun _ => .cancelAll ⟨1⟩) twoTasks)
      cancelAllRun s ∧
    s.shared.cells ⟨"b"⟩ = twoTasks ⟨"b"⟩ ∧ s.shared.calls = [((), ⟨.remove, .aria2, ⟨"a"⟩⟩)] ∧
    (s.shared.cells ⟨"a"⟩).row.map (·.state) = some .cancelled := by
  have hrun : ((commands fun _ : Unit => .cancelAll ⟨1⟩).machine.run
      (start (fun _ => .cancelAll ⟨1⟩) twoTasks) cancelAllRun).map
      (fun s => (s.shared.calls, (s.shared.cells ⟨"a"⟩).row.map (·.state))) =
      some ([((), ⟨.remove, .aria2, ⟨"a"⟩⟩)], some .cancelled) := by
    decide +kernel
  obtain ⟨s, hs, ho⟩ := Machine.exists_runs hrun
  simp only [Prod.mk.injEq] at ho
  have hissued := hs.of_forall_mem (P := fun _ e => IssuedFor (fun _ => .cancelAll ⟨1⟩) ⟨1⟩ e)
    (by simp [cancelAllRun, IssuedFor, Op.chat])
  have hb := (chat_scoped twoTasks_keyed (.nil _)).1 ⟨1⟩ cancelAllRun s hissued ⟨"b"⟩ (by decide)
  exact ⟨s, hs, hb, ho.1, ho.2⟩

end TaskControl

end Cmlb
