import Mathlib.Data.List.Basic
import Cmlb.Persistence.TimeCodec

/-!
# The task repository (`sqlite_task_repository.cpp`)

The table `tasks` is a list of rows with a value in each column; a statement gets back the values that
were bound to it. A failing connection or statement is an error without an effect and is left out.
Loading builds a `Task` with the ordinary constructor and drives it with the ordinary transitions,
each of which reads the clock: `clock k` is the `k`-th reading while a row is loaded.

`load_rowOf` says what comes back of a saved task, which is all but the time stamps
(`save_round_trip`); `load_preserves_iff` says for which rows the stamp of the last change survives.
-/

namespace Cmlb

def TaskKind.toString : TaskKind → String
  | mirror => "Mirror"
  | leech => "Leech"
  | clone => "Clone"

def DownloaderKind.toString : DownloaderKind → String
  | none => "None"
  | aria2 => "Aria2"
  | qbittorrent => "Qbittorrent"

namespace Persistence

open TimeCodec

inductive SqlValue
  | null
  | integer (n : Int)
  | text (s : String)
deriving DecidableEq

namespace SqlValue

/-- A column read as `std::int64_t`, `std::string` and `std::unique_ptr<std::string>`. -/
def toInt : SqlValue → Int
  | integer n => n
  | _ => 0

def toText : SqlValue → String
  | text s => s
  | _ => ""

def toTextPtr : SqlValue → Option String
  | text s => some s
  | _ => none

def ofTextPtr : Option String → SqlValue
  | some s => text s
  | none => null

@[simp] theorem toTextPtr_ofTextPtr (s : Option String) : (ofTextPtr s).toTextPtr = s := by
  cases s <;> rfl

end SqlValue

/-- A row, in the order of `kColumns`. -/
structure TaskRow where
  id : SqlValue
  userId : SqlValue
  chatId : SqlValue
  statusMessageId : SqlValue
  kind : SqlValue
  state : SqlValue
  sourceUrl : SqlValue
  errorMessage : SqlValue
  createdAt : SqlValue
  updatedAt : SqlValue
  downloaderKind : SqlValue
  downloaderId : SqlValue
deriving DecidableEq

/-! ### The string codecs -/

def parseKind (s : String) : Result TaskKind :=
  if s = "Mirror" then .ok .mirror
  else if s = "Leech" then .ok .leech
  else if s = "Clone" then .ok .clone
  else .error ⟨.deserialization, "Unknown TaskKind: " ++ s⟩

def parseDownloaderKind (s : String) : Result DownloaderKind :=
  if s = "None" then .ok .none
  else if s = "Aria2" then .ok .aria2
  else if s = "Qbittorrent" then .ok .qbittorrent
  else .error ⟨.deserialization, "Unknown DownloaderKind: " ++ s⟩

def parseState (s : String) : Result TaskState :=
  if s = "Queued" then .ok .queued
  else if s = "Downloading" then .ok .downloading
  else if s = "Processing" then .ok .processing
  else if s = "Uploading" then .ok .uploading
  else if s = "Completed" then .ok .completed
  else if s = "Failed" then .ok .failed
  else if s = "Cancelled" then .ok .cancelled
  else .error ⟨.deserialization, "Unknown TaskState: " ++ s⟩

theorem parseKind_toString (k : TaskKind) : parseKind k.toString = .ok k := by
  cases k <;> rfl

theorem parseDownloaderKind_toString (k : DownloaderKind) : parseDownloaderKind k.toString = .ok k := by
  cases k <;> rfl

theorem parseState_toString (s : TaskState) : parseState s.toString = .ok s := by
  cases s <;> rfl

/-! ### `save` -/

/-- The row of a task. The four cases are the four statements: a value that is absent is a `NULL` in
the text of the statement, the others are bound. -/
def rowOf (task : Task) : TaskRow :=
  let md := task.metadata
  let id := .text md.id.value
  let user := .integer md.user.value
  let chat := .integer md.chat.value
  let msg := .integer md.statusMessage.value
  let kind := .text md.kind.toString
  let state := .text task.state.toString
  let url := .text md.sourceUrl
  let created := .text (toIso8601 md.createdAt)
  let updated := .text (toIso8601 md.updatedAt)
  let downloaderKind := .text task.downloaderKind.toString
  match task.errorMessage, task.downloaderId with
  | some err, some did => ⟨id, user, chat, msg, kind, state, url, .text err, created, updated,
      downloaderKind, .text did.value⟩
  | some err, none => ⟨id, user, chat, msg, kind, state, url, .text err, created, updated,
      downloaderKind, .null⟩
  | none, some did => ⟨id, user, chat, msg, kind, state, url, .null, created, updated,
      downloaderKind, .text did.value⟩
  | none, none => ⟨id, user, chat, msg, kind, state, url, .null, created, updated,
      downloaderKind, .null⟩

/-- The four statements write one row: an absent value is a `NULL`. -/
theorem rowOf_eq (t : Task) : rowOf t =
    { id := .text t.metadata.id.value
      userId := .integer t.metadata.user.value
      chatId := .integer t.metadata.chat.value
      statusMessageId := .integer t.metadata.statusMessage.value
      kind := .text t.metadata.kind.toString
      state := .text t.state.toString
      sourceUrl := .text t.metadata.sourceUrl
      errorMessage := .ofTextPtr t.errorMessage
      createdAt := .text (toIso8601 t.metadata.createdAt)
      updatedAt := .text (toIso8601 t.metadata.updatedAt)
      downloaderKind := .text t.downloaderKind.toString
      downloaderId := .ofTextPtr (t.downloaderId.map Gid.value) } := by
  unfold rowOf
  cases t.errorMessage <;> cases t.downloaderId <;> rfl

/-- The rows of `tasks`. -/
structure TaskTable where
  rows : List TaskRow := []

/-- `INSERT OR REPLACE` on the primary key. -/
def TaskTable.save (db : TaskTable) (task : Task) : TaskTable :=
  ⟨db.rows.filter (·.id ≠ (rowOf task).id) ++ [rowOf task]⟩

def TaskTable.remove (db : TaskTable) (id : TaskId) : TaskTable :=
  ⟨db.rows.filter (·.id ≠ .text id.value)⟩

/-! ### Loading -/

/-- The lambda `fail` of `reconstitute`. -/
def failStep (step : String) (r : Result Task) : Result Task :=
  match r with
  | .ok task => .ok task
  | .error err => .error ⟨.deserialization, "reconstitute step '" ++ step ++ "' failed: " ++ err.message⟩

/-- The lambda `attach_downloader_if_set`. -/
def attachDownloaderIfSet (kind : DownloaderKind) (id : Option String) (now : Time) (task : Task) : Task :=
  match kind, id with
  | .none, _ | _, none => task
  | kind, some id => task.attachDownloader ⟨id⟩ kind now

def reconstitute (clock : Nat → Time) (metadata : TaskMetadata) (target : TaskState)
    (errorMessage : Option String) (downloaderKind : DownloaderKind) (downloaderId : Option String) :
    Result Task :=
  let task : Task := { metadata := metadata }
  let attach := attachDownloaderIfSet downloaderKind downloaderId
  match target with
  | .queued => .ok (attach (clock 0) task)
  | .downloading => do
    let task ← failStep "start_download" (task.startDownload (clock 0))
    return attach (clock 1) task
  | .processing => do
    let task ← failStep "start_download" (task.startDownload (clock 0))
    let task ← failStep "begin_processing" (task.beginProcessing (clock 1))
    return attach (clock 2) task
  | .uploading => do
    let task ← failStep "start_download" (task.startDownload (clock 0))
    let task ← failStep "begin_upload" (task.beginUpload (clock 1))
    return attach (clock 2) task
  | .completed => do
    let task ← failStep "start_download" (task.startDownload (clock 0))
    let task ← failStep "begin_upload" (task.beginUpload (clock 1))
    let task ← failStep "mark_completed" (task.markCompleted (clock 2))
    return attach (clock 3) task
  | .failed =>
    failStep "mark_failed" ((attach (clock 0) task).markFailed (errorMessage.getD "(unknown)") (clock 1))
  | .cancelled => failStep "mark_cancelled" ((attach (clock 0) task).markCancelled (clock 1))

/-- What `find` and `collect_tasks` do with a row. -/
def load (clock : Nat → Time) (row : TaskRow) : Result Task := do
  let kind ← parseKind row.kind.toText
  let state ← parseState row.state.toText
  let createdAt ← parseIso8601 row.createdAt.toText
  let updatedAt ← parseIso8601 row.updatedAt.toText
  let downloaderKind ← parseDownloaderKind row.downloaderKind.toText
  let metadata : TaskMetadata :=
    { id := ⟨row.id.toText⟩
      user := ⟨row.userId.toInt⟩
      chat := ⟨row.chatId.toInt⟩
      statusMessage := ⟨row.statusMessageId.toInt⟩
      kind := kind
      sourceUrl := row.sourceUrl.toText
      createdAt := createdAt
      updatedAt := updatedAt }
  reconstitute clock metadata state row.errorMessage.toTextPtr downloaderKind row.downloaderId.toTextPtr

namespace TaskTable

/-- `clock row` are the clock readings while `row` is loaded. -/
def find (db : TaskTable) (clock : TaskRow → Nat → Time) (id : TaskId) : Result (Option Task) :=
  match db.rows.find? (·.id = .text id.value) with
  | none => .ok none
  | some row => (load (clock row) row).map some

/-- The first row that does not load is the error of the whole call. -/
def collectTasks (clock : TaskRow → Nat → Time) (rows : List TaskRow) : Result (List Task) :=
  rows.mapM fun row => load (clock row) row

def isTerminalState (row : TaskRow) : Bool :=
  row.state.toText == "Completed" || row.state.toText == "Failed" || row.state.toText == "Cancelled"

/-- `ORDER BY created_at ASC`; rows of one time come in some order. -/
def incomplete (db : TaskTable) (clock : TaskRow → Nat → Time) : Result (List Task) :=
  collectTasks clock ((db.rows.filter fun row => !isTerminalState row).mergeSort
    fun r₁ r₂ => decide (r₁.createdAt.toText ≤ r₂.createdAt.toText))

/-- `ORDER BY created_at DESC`. -/
def forUser (db : TaskTable) (clock : TaskRow → Nat → Time) (user : UserId) : Result (List Task) :=
  collectTasks clock ((db.rows.filter fun row => row.userId = .integer user.value).mergeSort
    fun r₁ r₂ => decide (r₂.createdAt.toText ≤ r₁.createdAt.toText))

end TaskTable

/-! ### Reachable tasks -/

/-- A call of one of the mutators of `Task`. -/
inductive TaskOp
  | startDownload
  | beginProcessing
  | beginUpload
  | markCompleted
  | markFailed (reason : String)
  | markCancelled
  | attachDownloader (id : Gid) (kind : DownloaderKind)
deriving DecidableEq

/-- The task after the call; a rejected transition leaves it as it was. -/
def TaskOp.apply (now : Time) (t : Task) : TaskOp → Task
  | startDownload => t.orSelf (t.startDownload now)
  | beginProcessing => t.orSelf (t.beginProcessing now)
  | beginUpload => t.orSelf (t.beginUpload now)
  | markCompleted => t.orSelf (t.markCompleted now)
  | markFailed reason => t.orSelf (t.markFailed reason now)
  | markCancelled => t.orSelf (t.markCancelled now)
  | attachDownloader id kind => t.attachDownloader id kind now

/-- A downloader is attached with a kind other than `None`. -/
def TaskOp.Binds : TaskOp → Prop
  | attachDownloader _ kind => kind ≠ .none
  | _ => True

/-- The tasks that a constructor and calls in `P` lead to, at times that a `time_point` can hold. -/
inductive Reachable (P : TaskOp → Prop) : Task → Prop
  | construct (md : TaskMetadata) (hc : Time.Fits md.createdAt) (hu : Time.Fits md.updatedAt) :
      Reachable P { metadata := md }
  | call {t : Task} (op : TaskOp) (now : Time) (h : Reachable P t) (hop : P op)
      (hnow : Time.Fits now) : Reachable P (op.apply now t)

/-- What every reachable task is like: only a failed task has an error message, and a failed task
always has one. -/
structure Sound (t : Task) : Prop where
  error : t.errorMessage.isSome = true ↔ t.state = .failed
  unbound : t.downloaderId = none → t.downloaderKind = .none
  created : Time.Fits t.metadata.createdAt
  updated : Time.Fits t.metadata.updatedAt

variable {t t' : Task} {now : Time} {P : TaskOp → Prop} {op : TaskOp}

theorem Sound.transition {legal : TaskState → Bool} {dst : TaskState} (h : Sound t)
    (hnow : Time.Fits now) (hlegal : legal .failed = false) (hdst : dst ≠ .failed) :
    Sound (t.orSelf (t.transition legal dst now)) := by
  unfold Task.transition
  split
  · rename_i hl
    have hne : t.state ≠ .failed := fun hs => by
      rw [hs, hlegal] at hl
      cases hl
    have herr : t.errorMessage.isSome ≠ true := fun he => hne (h.error.1 he)
    exact ⟨iff_of_false herr hdst, h.unbound, h.created, hnow⟩
  · exact h

theorem Sound.apply (h : Sound t) (hnow : Time.Fits now) : Sound (op.apply now t) := by
  cases op with
  | startDownload => exact h.transition hnow rfl (by decide)
  | beginProcessing => exact h.transition hnow rfl (by decide)
  | beginUpload => exact h.transition hnow rfl (by decide)
  | markCompleted => exact h.transition hnow rfl (by decide)
  | markCancelled => exact h.transition hnow rfl (by decide)
  | markFailed reason =>
    simp only [TaskOp.apply, Task.markFailed]
    split
    · exact h
    · exact ⟨iff_of_true rfl rfl, h.unbound, h.created, hnow⟩
  | attachDownloader id kind => exact ⟨h.error, (fun hid => by cases hid), h.created, hnow⟩

theorem Reachable.sound (h : Reachable P t) : Sound t := by
  induction h with
  | construct md hc hu => exact ⟨iff_of_false (by simp) (by simp), fun _ => rfl, hc, hu⟩
  | call op now _ _ hnow ih => exact ih.apply hnow

/-- A bound task has a downloader of some kind. -/
theorem Reachable.bound (h : Reachable TaskOp.Binds t) :
    t.downloaderId ≠ none → t.downloaderKind ≠ .none := by
  have hkeep : ∀ {legal dst now} {t : Task}, (t.downloaderId ≠ none → t.downloaderKind ≠ .none) →
      (t.orSelf (t.transition legal dst now)).downloaderId ≠ none →
      (t.orSelf (t.transition legal dst now)).downloaderKind ≠ .none := by
    intro legal dst now t ih
    unfold Task.transition
    split <;> exact ih
  induction h with
  | construct => exact fun hid => absurd rfl hid
  | call op now _ hop _ ih =>
    cases op with
    | startDownload | beginProcessing | beginUpload | markCompleted | markCancelled => exact hkeep ih
    | markFailed reason =>
      simp only [TaskOp.apply, Task.markFailed]
      split <;> exact ih
    | attachDownloader id kind => exact fun _ => hop

/-! ### What comes back -/

/-- Neither a transition nor `attach_downloader` is called. -/
def Untouched (target : TaskState) (kind : DownloaderKind) (id : Option String) : Prop :=
  target = .queued ∧ (kind = .none ∨ id = none)

/-- What `reconstitute` builds. -/
structure Reconstituted (clock : Nat → Time) (md : TaskMetadata) (target : TaskState)
    (err : Option String) (kind : DownloaderKind) (id : Option String) (t : Task) : Prop where
  state : t.state = target
  error : t.errorMessage = if target = .failed then some (err.getD "(unknown)") else none
  downloaderId : t.downloaderId = if kind = .none then none else id.map Gid.mk
  downloaderKind : t.downloaderKind = if id = none then .none else kind
  metadata : t.metadata = { md with updatedAt := t.metadata.updatedAt }
  untouched : Untouched target kind id → t.metadata.updatedAt = md.updatedAt
  touched : ¬ Untouched target kind id → ∃ k, t.metadata.updatedAt = clock k

theorem reconstitute_spec (clock : Nat → Time) (md : TaskMetadata) (target : TaskState)
    (err : Option String) (kind : DownloaderKind) (id : Option String) :
    ∃ t, reconstitute clock md target err kind id = .ok t ∧
      Reconstituted clock md target err kind id t := by
  cases target with
  | queued =>
    cases kind <;> cases id <;> refine ⟨_, rfl, rfl, rfl, rfl, rfl, rfl, ?_, ?_⟩ <;>
      simp [Untouched, attachDownloaderIfSet, Task.attachDownloader, Task.touch]
  | downloading | processing | uploading | completed | failed | cancelled =>
    -- every other target is reached by a transition, which stamps the clock
    cases kind <;> cases id <;> refine ⟨_, rfl, rfl, rfl, rfl, rfl, rfl, ?_, ?_⟩ <;>
      first | exact fun h => by cases h.1 | exact fun _ => ⟨_, rfl⟩

/-- The metadata as `load` gets it from the row of a saved task. -/
def stored (md : TaskMetadata) : TaskMetadata :=
  { md with createdAt := Time.floorMs md.createdAt, updatedAt := Time.floorMs md.updatedAt }

theorem load_rowOf (clock : Nat → Time) (h : Sound t) :
    load clock (rowOf t) = reconstitute clock (stored t.metadata) t.state t.errorMessage
      t.downloaderKind (t.downloaderId.map Gid.value) := by
  have hc := parseIso8601_toIso8601 h.created
  have hu := parseIso8601_toIso8601 h.updated
  unfold load
  rw [rowOf_eq]
  simp only [SqlValue.toText, SqlValue.toInt, SqlValue.toTextPtr_ofTextPtr, parseKind_toString,
    parseState_toString, parseDownloaderKind_toString, hc, hu]
  rfl

theorem load_id {clock : Nat → Time} (h : Sound t) (hload : load clock (rowOf t) = .ok t') :
    t'.metadata.id = t.metadata.id := by
  rw [load_rowOf clock h] at hload
  obtain ⟨u, hu, hr⟩ := reconstitute_spec clock (stored t.metadata) t.state t.errorMessage
    t.downloaderKind (t.downloaderId.map Gid.value)
  cases hload.symm.trans hu
  rw [hr.metadata]
  rfl

/-- `t'` is `t` up to the time stamps: `created_at` is floored, `updated_at` is not constrained. -/
structure SameTask (t t' : Task) : Prop where
  state : t'.state = t.state
  errorMessage : t'.errorMessage = t.errorMessage
  downloaderId : t'.downloaderId = t.downloaderId
  downloaderKind : t'.downloaderKind = t.downloaderKind
  metadata : t'.metadata = { t.metadata with
    createdAt := Time.floorMs t.metadata.createdAt, updatedAt := t'.metadata.updatedAt }

/-- The row of a task whose downloader has a kind comes back as the task. -/
theorem load_same (clock : Nat → Time) (h : Reachable TaskOp.Binds t) :
    ∃ t', load clock (rowOf t) = .ok t' ∧ SameTask t t' := by
  have hs := h.sound
  rw [load_rowOf clock hs]
  obtain ⟨t', ht', hr⟩ := reconstitute_spec clock (stored t.metadata) t.state t.errorMessage
    t.downloaderKind (t.downloaderId.map Gid.value)
  refine ⟨t', ht', hr.state, ?_, ?_, ?_, hr.metadata⟩
  · rw [hr.error]
    by_cases hf : t.state = .failed
    · obtain ⟨err, herr⟩ := Option.isSome_iff_exists.1 (hs.error.2 hf)
      rw [if_pos hf, herr]
      rfl
    · rw [if_neg hf]
      exact (Option.not_isSome_iff_eq_none.1 fun he => hf (hs.error.1 he)).symm
  · rw [hr.downloaderId]
    cases hid : t.downloaderId with
    | none => simp
    | some g => simp [h.bound (by rw [hid]; simp)]
  · rw [hr.downloaderKind]
    cases hid : t.downloaderId with
    | none => simp [hs.unbound hid]
    | some g => simp

/-! ### The table -/

/-- The tables that saves of reachable tasks and removals lead to. -/
inductive Reached (P : TaskOp → Prop) : TaskTable → Prop
  | empty : Reached P {}
  | save {db : TaskTable} {t : Task} (h : Reached P db) (ht : Reachable P t) : Reached P (db.save t)
  | remove {db : TaskTable} (h : Reached P db) (id : TaskId) : Reached P (db.remove id)

variable {db : TaskTable} {row row' : TaskRow}

theorem mem_save : row ∈ (db.save t).rows ↔
    row ∈ db.rows ∧ row.id ≠ (rowOf t).id ∨ row = rowOf t := by
  simp [TaskTable.save]

theorem mem_remove {id : TaskId} : row ∈ (db.remove id).rows ↔
    row ∈ db.rows ∧ row.id ≠ .text id.value := by
  simp [TaskTable.remove]

theorem Reached.exists_task (h : Reached P db) (hrow : row ∈ db.rows) :
    ∃ t, Reachable P t ∧ row = rowOf t := by
  induction h with
  | empty => cases hrow
  | save _ ht ih =>
    rcases mem_save.1 hrow with ⟨hrow, -⟩ | rfl
    · exact ih hrow
    · exact ⟨_, ht, rfl⟩
  | remove _ id ih => exact ih (mem_remove.1 hrow).1

/-- `id` is the primary key. -/
theorem Reached.unique (h : Reached P db) (hrow : row ∈ db.rows) (hrow' : row' ∈ db.rows)
    (hid : row.id = row'.id) : row = row' := by
  induction h with
  | empty => cases hrow
  | save _ _ ih =>
    rcases mem_save.1 hrow with ⟨hr, hne⟩ | rfl <;> rcases mem_save.1 hrow' with ⟨hr', hne'⟩ | rfl
    exacts [ih hr hr', absurd hid hne, absurd hid.symm hne', rfl]
  | remove _ id ih => exact ih (mem_remove.1 hrow).1 (mem_remove.1 hrow').1

/-- `find` loads the row with the id. -/
theorem Reached.find_eq (h : Reached P db) (clock : TaskRow → Nat → Time) (id : TaskId)
    (hrow : row ∈ db.rows) (hid : row.id = .text id.value) :
    db.find clock id = (load (clock row) row).map some := by
  unfold TaskTable.find
  cases hfind : db.rows.find? (·.id = .text id.value) with
  | none => exact absurd hid (by simpa using List.find?_eq_none.1 hfind row hrow)
  | some row' =>
    have hid' : row'.id = .text id.value := by simpa using List.find?_some hfind
    rw [h.unique hrow (List.mem_of_find?_eq_some hfind) (hid.trans hid'.symm)]

/-- When every row loads, the call returns the tasks of the rows. -/
theorem collectTasks_ok (clock : TaskRow → Nat → Time) (rows : List TaskRow)
    (h : ∀ row ∈ rows, ∃ t, load (clock row) row = .ok t) :
    ∃ ts, TaskTable.collectTasks clock rows = .ok ts ∧
      ∀ t, t ∈ ts ↔ ∃ row ∈ rows, load (clock row) row = .ok t := by
  induction rows with
  | nil => exact ⟨[], rfl, by simp⟩
  | cons row rows ih =>
    obtain ⟨t, ht⟩ := h row (.head _)
    obtain ⟨ts, hts, hmem⟩ := ih fun row' hrow' => h row' (.tail _ hrow')
    refine ⟨t :: ts, ?_, fun u => ?_⟩
    · unfold TaskTable.collectTasks at hts ⊢
      rw [List.mapM_cons, ht, hts]
      rfl
    · rw [List.mem_cons, hmem, List.exists_mem_cons_iff, ht, Except.ok.injEq, eq_comm]

/-- Every row of a table loads. -/
theorem Reached.loads (h : Reached P db) (clock : TaskRow → Nat → Time) (hrow : row ∈ db.rows) :
    ∃ t, load (clock row) row = .ok t := by
  obtain ⟨t, ht, rfl⟩ := h.exists_task hrow
  rw [load_rowOf _ ht.sound]
  obtain ⟨t', ht', -⟩ := reconstitute_spec (clock (rowOf t)) (stored t.metadata) t.state
    t.errorMessage t.downloaderKind (t.downloaderId.map Gid.value)
  exact ⟨t', ht'⟩

/-- A query returns the tasks of the rows it selects, whatever the order. -/
theorem Reached.collect_ok (h : Reached P db) (clock : TaskRow → Nat → Time) (keep : TaskRow → Bool)
    (le : TaskRow → TaskRow → Bool) :
    ∃ ts, TaskTable.collectTasks clock ((db.rows.filter keep).mergeSort le) = .ok ts ∧
      ∀ t, t ∈ ts ↔ ∃ row ∈ db.rows, keep row = true ∧ load (clock row) row = .ok t := by
  obtain ⟨ts, hts, hmem⟩ := collectTasks_ok clock ((db.rows.filter keep).mergeSort le)
    fun row hrow => h.loads clock (List.mem_filter.1 (List.mem_mergeSort.1 hrow)).1
  refine ⟨ts, hts, fun t => ?_⟩
  rw [hmem]
  simp only [List.mem_mergeSort, List.mem_filter, and_assoc]

theorem Reached.incomplete_ok (h : Reached P db) (clock : TaskRow → Nat → Time) :
    ∃ ts, db.incomplete clock = .ok ts ∧ ∀ t, t ∈ ts ↔
      ∃ row ∈ db.rows, TaskTable.isTerminalState row = false ∧ load (clock row) row = .ok t := by
  obtain ⟨ts, hts, hmem⟩ := h.collect_ok clock (fun row => !TaskTable.isTerminalState row)
    fun r₁ r₂ => decide (r₁.createdAt.toText ≤ r₂.createdAt.toText)
  exact ⟨ts, hts, fun t => by simpa using hmem t⟩

theorem Reached.forUser_ok (h : Reached P db) (clock : TaskRow → Nat → Time) (user : UserId) :
    ∃ ts, db.forUser clock user = .ok ts ∧ ∀ t, t ∈ ts ↔
      ∃ row ∈ db.rows, row.userId = .integer user.value ∧ load (clock row) row = .ok t := by
  obtain ⟨ts, hts, hmem⟩ := h.collect_ok clock (fun row => row.userId = .integer user.value)
    fun r₁ r₂ => decide (r₂.createdAt.toText ≤ r₁.createdAt.toText)
  exact ⟨ts, hts, fun t => by simpa using hmem t⟩

theorem isTerminalState_rowOf (t : Task) : TaskTable.isTerminalState (rowOf t) = t.isTerminal := by
  unfold TaskTable.isTerminalState Task.isTerminal
  rw [rowOf_eq]
  cases t.state <;> rfl

/-- A saved task comes back from `find`, and from `incomplete` and `for_user` where it qualifies, up to
the time stamps. -/
theorem save_round_trip (db : TaskTable) (hdb : Reached TaskOp.Binds db) (t : Task)
    (ht : Reachable TaskOp.Binds t) (clock : TaskRow → Nat → Time) :
    (∃ t', (db.save t).find clock t.metadata.id = .ok (some t') ∧ SameTask t t') ∧
    (t.isTerminal = false →
      ∃ ts, (db.save t).incomplete clock = .ok ts ∧ ∃ t' ∈ ts, SameTask t t') ∧
    ∃ ts, (db.save t).forUser clock t.metadata.user = .ok ts ∧ ∃ t' ∈ ts, SameTask t t' := by
  have hdb := hdb.save ht
  have hrow : rowOf t ∈ (db.save t).rows := mem_save.2 (.inr rfl)
  obtain ⟨t', hload, hsame⟩ := load_same (clock (rowOf t)) ht
  refine ⟨⟨t', ?_, hsame⟩, fun hlive => ?_, ?_⟩
  · rw [hdb.find_eq clock _ hrow (by rw [rowOf_eq]), hload]
    rfl
  · obtain ⟨ts, hts, hmem⟩ := hdb.incomplete_ok clock
    refine ⟨ts, hts, t', (hmem t').2 ⟨rowOf t, hrow, ?_, hload⟩, hsame⟩
    rw [isTerminalState_rowOf, hlive]
  · obtain ⟨ts, hts, hmem⟩ := hdb.forUser_ok clock t.metadata.user
    exact ⟨ts, hts, t', (hmem t').2 ⟨rowOf t, hrow, by rw [rowOf_eq], hload⟩, hsame⟩

/-! ### Loading and saving again -/

/-- The task `t` is returned by `find`, `incomplete` or `for_user`. -/
def TaskTable.Returns (db : TaskTable) (clock : TaskRow → Nat → Time) (t : Task) : Prop :=
  (∃ id, db.find clock id = .ok (some t)) ∨
  (∃ ts, db.incomplete clock = .ok ts ∧ t ∈ ts) ∨
  ∃ user ts, db.forUser clock user = .ok ts ∧ t ∈ ts

/-- What is returned was loaded from a row. -/
theorem Reached.exists_row {clock : TaskRow → Nat → Time} (h : Reached P db)
    (hret : db.Returns clock t) :
    ∃ row ∈ db.rows, load (clock row) row = .ok t := by
  rcases hret with ⟨id, hfind⟩ | ⟨ts, hts, ht⟩ | ⟨user, ts, hts, ht⟩
  · unfold TaskTable.find at hfind
    split at hfind
    · cases hfind
    · rename_i row hrow
      refine ⟨row, List.mem_of_find?_eq_some hrow, ?_⟩
      cases hload : load (clock row) row with
      | error err =>
        rw [hload] at hfind
        cases hfind
      | ok t' =>
        rw [hload] at hfind
        cases hfind
        rfl
  · obtain ⟨ts', hts', hmem⟩ := h.incomplete_ok clock
    cases hts.symm.trans hts'
    obtain ⟨row, hrow, -, hload⟩ := (hmem t).1 ht
    exact ⟨row, hrow, hload⟩
  · obtain ⟨ts', hts', hmem⟩ := h.forUser_ok clock user
    cases hts.symm.trans hts'
    obtain ⟨row, hrow, -, hload⟩ := (hmem t).1 ht
    exact ⟨row, hrow, hload⟩

/-- A task that differs only in the fractions of its milliseconds has the same row. -/
theorem rowOf_stored (t : Task) : rowOf { t with metadata := stored t.metadata } = rowOf t := by
  rw [rowOf_eq, rowOf_eq]
  simp only [stored, toIso8601_floorMs]

theorem rowOf_queued_iff : (rowOf t).state = .text "Queued" ∧ (rowOf t).downloaderId = .null ↔
    t.state = .queued ∧ t.downloaderId = none := by
  rw [rowOf_eq]
  have hstate : SqlValue.text t.state.toString = .text "Queued" ↔ t.state = .queued := by
    cases t.state <;> simp [TaskState.toString]
  have hid : SqlValue.ofTextPtr (t.downloaderId.map Gid.value) = .null ↔ t.downloaderId = none := by
    cases t.downloaderId <;> simp [SqlValue.ofTextPtr]
  rw [hstate, hid]

/-- A loaded queued task without a downloader is the saved one, to the millisecond. -/
theorem load_queued (clock : Nat → Time) (h : Sound t) (hq : t.state = .queued)
    (hid : t.downloaderId = none) :
    load clock (rowOf t) = .ok { t with metadata := stored t.metadata } := by
  have hkind := h.unbound hid
  have herr : t.errorMessage = none := by
    refine Option.not_isSome_iff_eq_none.1 fun he => ?_
    rw [h.error.1 he] at hq
    cases hq
  rw [load_rowOf clock h]
  obtain ⟨md, state, errorMessage, downloaderId, downloaderKind⟩ := t
  simp only at hq hid hkind herr
  subst hq hid hkind herr
  rfl

/-- The stamp of the last change is lost, or the binding is, for every other task. -/
theorem load_changed (h : Sound t) (hne : ¬ (t.state = .queued ∧ t.downloaderId = none)) {now : Time}
    (hnow : now ≠ Time.floorMs t.metadata.updatedAt) (hload : load (fun _ => now) (rowOf t) = .ok t') :
    t'.metadata.updatedAt ≠ Time.floorMs t.metadata.updatedAt ∨ rowOf t' ≠ rowOf t := by
  rw [load_rowOf _ h] at hload
  obtain ⟨u, hu, hr⟩ := reconstitute_spec (fun _ => now) (stored t.metadata) t.state t.errorMessage
    t.downloaderKind (t.downloaderId.map Gid.value)
  cases hload.symm.trans hu
  by_cases hunt : Untouched t.state t.downloaderKind (t.downloaderId.map Gid.value)
  · -- queued with an id but no kind: the id is dropped
    right
    have hid : t.downloaderId ≠ none := fun hid => hne ⟨hunt.1, hid⟩
    have hkind : t.downloaderKind = .none := hunt.2.resolve_right fun hmap => by
      rw [Option.map_eq_none_iff] at hmap
      exact hid hmap
    have hdrop : t'.downloaderId = none := by rw [hr.downloaderId, if_pos hkind]
    obtain ⟨g, hg⟩ := Option.ne_none_iff_exists'.1 hid
    intro heq
    have hcol := congrArg TaskRow.downloaderId heq
    simp [rowOf_eq, hdrop, hg, SqlValue.ofTextPtr] at hcol
  · left
    obtain ⟨k, hk⟩ := hr.touched hunt
    rw [hk]
    exact hnow

theorem exists_other_ms (t : Time) : ∃ now : Time, Time.Fits now ∧ now ≠ Time.floorMs t := by
  by_cases h : Time.floorMs t = 0
  · exact ⟨1000000, by decide, by rw [h]; decide⟩
  · exact ⟨0, by decide, fun h' => h h'.symm⟩

/-- A row of the table is loaded with its `updated_at` and is left as it was by saving the loaded task,
whatever the clock, exactly if it is the row of a queued task that no downloader has accepted. -/
theorem load_preserves_iff (db : TaskTable) (hdb : Reached (fun _ => True) db) (row : TaskRow)
    (hrow : row ∈ db.rows) :
    (∀ clock t', (∀ r k, Time.Fits (clock r k)) → db.Returns clock t' →
      .text t'.metadata.id.value = row.id →
      parseIso8601 row.updatedAt.toText = .ok t'.metadata.updatedAt ∧ rowOf t' = row) ↔
    row.state = .text "Queued" ∧ row.downloaderId = .null := by
  obtain ⟨t, ht, rfl⟩ := hdb.exists_task hrow
  have hstamp : parseIso8601 (rowOf t).updatedAt.toText = .ok (Time.floorMs t.metadata.updatedAt) := by
    rw [rowOf_eq]
    exact parseIso8601_toIso8601 ht.sound.updated
  rw [rowOf_queued_iff, hstamp]
  constructor
  · intro hall
    by_contra hne
    obtain ⟨now, hfits, hnow⟩ := exists_other_ms t.metadata.updatedAt
    obtain ⟨t', hload⟩ := hdb.loads (fun _ _ => now) hrow
    have hfind : db.find (fun _ _ => now) t.metadata.id = .ok (some t') := by
      rw [hdb.find_eq _ _ hrow (by rw [rowOf_eq]), hload]
      rfl
    have hid := load_id ht.sound hload
    have hkept := hall (fun _ _ => now) t' (fun _ _ => hfits) (.inl ⟨_, hfind⟩) (by rw [hid, rowOf_eq])
    rcases load_changed ht.sound hne hnow hload with h | h
    · exact h (Except.ok.inj hkept.1).symm
    · exact h hkept.2
  · rintro ⟨hq, hid⟩ clock t' - hret hsame
    obtain ⟨row', hrow', hload⟩ := hdb.exists_row hret
    obtain ⟨u, hu, rfl⟩ := hdb.exists_task hrow'
    have hidu := load_id hu.sound hload
    have heq : rowOf u = rowOf t := by
      refine hdb.unique hrow' hrow ?_
      rw [← hsame, hidu, rowOf_eq]
    rw [heq, load_queued _ ht.sound hq hid] at hload
    cases hload
    exact ⟨rfl, rowOf_stored t⟩

/-! ### One task -/

/-- A task of the year 2023 that has failed while aria2 had it. -/
def failedTask : Task :=
  let md : TaskMetadata := ⟨⟨"t1"⟩, ⟨42⟩, ⟨-100⟩, ⟨7⟩, .mirror, "https://x", 1700000000123456789,
    1700000000123456789⟩
  let ops := [.startDownload, .attachDownloader ⟨"g1"⟩ .aria2, .markFailed "timeout"]
  ops.foldl (fun t op => TaskOp.apply 1700000001000000000 t op) { metadata := md }

theorem reachable_failedTask : Reachable TaskOp.Binds failedTask :=
  .call (.markFailed "timeout") _ (.call (.attachDownloader ⟨"g1"⟩ .aria2) _
    (.call .startDownload _ (.construct _ (by decide) (by decide)) trivial (by decide))
    (by simp [TaskOp.Binds]) (by decide)) trivial (by decide)

theorem failedTask_round_trip :
    ∃ t', (TaskTable.save {} failedTask).find (fun _ _ => 0) ⟨"t1"⟩ = .ok (some t') ∧
      t'.errorMessage = some "timeout" ∧ t'.metadata.createdAt = 1700000000123000000 := by
  obtain ⟨t', hfind, hsame⟩ :=
    (save_round_trip {} .empty failedTask reachable_failedTask fun _ _ => 0).1
  exact ⟨t', hfind, hsame.errorMessage, by rw [hsame.metadata]; rfl⟩

/-- A new task. -/
def queuedTask : Task := { metadata := failedTask.metadata }

theorem queuedTask_preserved :
    ∃ t', (TaskTable.save {} queuedTask).find (fun _ _ => 0) ⟨"t1"⟩ = .ok (some t') ∧
      rowOf t' = rowOf queuedTask := by
  have ht : Reachable (fun _ => True) queuedTask := .construct _ (by decide) (by decide)
  have hdb : Reached (fun _ => True) (TaskTable.save {} queuedTask) := .save .empty ht
  have hrow : rowOf queuedTask ∈ (TaskTable.save {} queuedTask).rows := mem_save.2 (.inr rfl)
  obtain ⟨t', hload⟩ := hdb.loads (fun _ _ => 0) hrow
  have hfind : (TaskTable.save {} queuedTask).find (fun _ _ => 0) ⟨"t1"⟩ = .ok (some t') := by
    rw [hdb.find_eq _ ⟨"t1"⟩ hrow rfl, hload]
    rfl
  refine ⟨t', hfind, ?_⟩
  refine ((load_preserves_iff _ hdb _ hrow).2 ⟨rfl, rfl⟩ (fun _ _ => 0) t' (fun _ _ => by decide)
    (.inl ⟨_, hfind⟩) ?_).2
  rw [load_id ht.sound hload]
  rfl

/-- The failed task is loaded a second after it was saved, and comes back with that second's stamp. -/
theorem failedTask_restamped :
    ∃ t', (TaskTable.save {} failedTask).find (fun _ _ => 1700000002000000000) ⟨"t1"⟩ = .ok (some t') ∧
      t'.metadata.updatedAt = 1700000002000000000 ∧
      parseIso8601 (rowOf failedTask).updatedAt.toText = .ok 1700000001000000000 ∧
      rowOf t' ≠ rowOf failedTask := by
  have ht := reachable_failedTask
  have hdb : Reached TaskOp.Binds (TaskTable.save {} failedTask) := .save .empty ht
  have hrow : rowOf failedTask ∈ (TaskTable.save {} failedTask).rows := mem_save.2 (.inr rfl)
  have hstamp : parseIso8601 (rowOf failedTask).updatedAt.toText = .ok 1700000001000000000 :=
    parseIso8601_toIso8601 (by decide)
  have hfind : (TaskTable.save {} failedTask).find (fun _ _ => 1700000002000000000) ⟨"t1"⟩ =
      (reconstitute (fun _ => 1700000002000000000) (stored failedTask.metadata) .failed
        (some "timeout") .aria2 (some "g1")).map some := by
    rw [hdb.find_eq _ ⟨"t1"⟩ hrow rfl, load_rowOf _ ht.sound]
    rfl
  have hother : ∀ u : Task, u.metadata.updatedAt = 1700000002000000000 →
      rowOf u ≠ rowOf failedTask := by
    intro u hu heq
    have hparse := congrArg (fun row => parseIso8601 row.updatedAt.toText) heq
    simp only [hstamp] at hparse
    rw [rowOf_eq, SqlValue.toText, hu, parseIso8601_toIso8601 (by decide)] at hparse
    cases hparse
  exact ⟨_, hfind, rfl, hstamp, hother _ rfl⟩

end Persistence

end Cmlb
