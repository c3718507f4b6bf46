import Cmlb.Lib.Calls
import Cmlb.Lib.UniqueKeys
import Cmlb.Persistence.RepositoryCall
import Cmlb.Persistence.TimeOrder

/-!
# The task repository as a map

After any calls of `save` and `remove`, failed ones among them, the table stands for a map from ids to the
tasks that were saved last (`tasks_refine_map`): `find` looks a task up, and the two queries list what they
are to list, each task once and in its order. What is read is what was saved, but for the stamps
(`SameTask`).
-/

namespace Cmlb.Persistence

open TimeCodec UniqueKeys

/-- A call that changes the tasks, with what it gets from outside. -/
inductive TaskCall
  | save (env : CallEnv) (task : Task)
  | remove (env : CallEnv) (id : TaskId)

abbrev TaskMap := TaskId → Option Task

namespace TaskCall

def onTable (db : TaskTable) : TaskCall → Result Unit × TaskTable
  | save env task => env.call "save(Task)" db (.ok (), db.save task)
  | remove env id => env.call "remove(TaskId)" db
    (if db.rows.all fun row => row.id ≠ .text id.value then
      .error ⟨.notFound, "remove(TaskId): no task with id " ++ id.value⟩
    else .ok (), db.remove id)

/-- What the calls are for: the task under an id is set or erased. -/
def onMap (m : TaskMap) : TaskCall → Result Unit × TaskMap
  | save env task => env.call "save(Task)" m (.ok (), Function.update m task.metadata.id (some task))
  | remove env id => env.call "remove(TaskId)" m
    (match m id with
      | none => .error ⟨.notFound, "remove(TaskId): no task with id " ++ id.value⟩
      | some _ => .ok (), Function.update m id none)

/-- A task that is saved is one that a use case can have. -/
def Proper : TaskCall → Prop
  | save _ task => Reachable TaskOp.Binds task
  | remove .. => True

end TaskCall

/-- The tasks of a table, in the order of its rows. -/
structure Holds (tasks : List Task) (db : TaskTable) (m : TaskMap) : Prop where
  rows : db.rows = tasks.map rowOf
  unique : Unique (fun t u : Task => t.metadata.id = u.metadata.id) tasks
  proper : ∀ t ∈ tasks, Reachable TaskOp.Binds t
  map : ∀ id, m id = tasks.find? fun t => t.metadata.id = id

def Stands (db : TaskTable) (m : TaskMap) : Prop := ∃ tasks, Holds tasks db m

variable {tasks : List Task} {db : TaskTable} {m : TaskMap} {t u : Task} {id : TaskId}
  {clock : TaskRow → Nat → Time}

theorem rowOf_id_iff (t : Task) (id : TaskId) : (rowOf t).id = .text id.value ↔ t.metadata.id = id := by
  rw [rowOf_eq]
  constructor
  · intro h
    exact congrArg TaskId.mk (SqlValue.text.inj h)
  · rintro rfl
    rfl

theorem rowOf_id_eq_iff (t u : Task) : (rowOf t).id = (rowOf u).id ↔ t.metadata.id = u.metadata.id := by
  rw [← rowOf_id_iff t u.metadata.id]
  rw [rowOf_eq u]

theorem filter_rowOf (tasks : List Task) {p : TaskRow → Bool} {q : Task → Bool} (h : ∀ t, p (rowOf t) = q t) :
    (tasks.map rowOf).filter p = (tasks.filter q).map rowOf := by
  rw [List.filter_map]
  exact congrArg (List.map rowOf) (List.filter_congr fun t _ => h t)

theorem Holds.empty : Holds [] {} fun _ => none := ⟨rfl, .nil, (fun _ h => nomatch h), fun _ => rfl⟩

theorem Holds.save (h : Holds tasks db m) (ht : Reachable TaskOp.Binds t) :
    Holds (replace (fun t u : Task => t.metadata.id = u.metadata.id) t tasks) (db.save t)
      (Function.update m t.metadata.id (some t)) where
  rows := by
    show db.rows.filter (·.id ≠ (rowOf t).id) ++ [rowOf t] = _
    rw [h.rows, replace, List.map_append, List.map_singleton,
      filter_rowOf tasks (q := fun u => ¬u.metadata.id = t.metadata.id)
        fun u => by simp only [ne_eq, rowOf_id_eq_iff]]
  unique := h.unique.replace
  proper u hu := by
    rcases mem_replace.1 hu with ⟨hu, -⟩ | rfl
    exacts [h.proper u hu, ht]
  map id := by
    rw [find?_replace fun t : Task => t.metadata.id]
    by_cases hid : t.metadata.id = id
    · rw [if_pos hid, ← hid, Function.update_self]
    · rw [if_neg hid, Function.update_of_ne (Ne.symm hid)]
      exact h.map id

theorem Holds.remove (h : Holds tasks db m) (id : TaskId) :
    Holds (tasks.filter fun t => t.metadata.id ≠ id) (db.remove id) (Function.update m id none) where
  rows := by
    show db.rows.filter (·.id ≠ .text id.value) = _
    rw [h.rows, filter_rowOf tasks (q := fun u => u.metadata.id ≠ id)
      fun u => by simp only [ne_eq, rowOf_id_iff]]
  unique := h.unique.filter _
  proper u hu := h.proper u (List.mem_filter.1 hu).1
  map id' := by
    rw [find?_filter_ne fun t : Task => t.metadata.id]
    by_cases hid : id' = id
    · subst hid
      rw [if_pos rfl, Function.update_self]
    · rw [if_neg hid, Function.update_of_ne hid]
      exact h.map id'

/-- No row has the id exactly if the map has no task under it. -/
theorem Holds.lacks_iff (h : Holds tasks db m) (id : TaskId) :
    (db.rows.all fun row => row.id ≠ .text id.value) = true ↔ m id = none := by
  rw [h.map id, List.find?_eq_none, h.rows]
  simp [rowOf_id_iff]

theorem Holds.step (h : Holds tasks db m) (call : TaskCall) (hproper : call.Proper) :
    (call.onTable db).1 = (call.onMap m).1 ∧ Stands (call.onTable db).2 (call.onMap m).2 := by
  have hrel : Stands db m := ⟨tasks, h⟩
  cases call with
  | save env task =>
    have hdone : Stands (db.save task) (Function.update m task.metadata.id (some task)) := ⟨_, h.save hproper⟩
    exact env.call_related "save(Task)" hrel rfl hdone
  | remove env id =>
    have hdone : Stands (db.remove id) (Function.update m id none) := ⟨_, h.remove id⟩
    refine env.call_related "remove(TaskId)" hrel ?_ hdone
    dsimp only
    cases hm : m id with
    | none => exact if_pos ((h.lacks_iff id).2 hm)
    | some task => exact if_neg fun hall => by rw [(h.lacks_iff id).1 hall] at hm; cases hm

/-! ### What is read -/

/-- `ts` are the tasks of the map with `p`, each once and up to its stamps. -/
structure Lists (m : TaskMap) (p : Task → Bool) (ts : List Task) : Prop where
  complete : ∀ id t, m id = some t → p t = true → ∃ t' ∈ ts, SameTask t t'
  sound : ∀ t' ∈ ts, ∃ t, m t'.metadata.id = some t ∧ p t = true ∧ SameTask t t'
  apart : ts.Pairwise fun t u => t.metadata.id ≠ u.metadata.id

/-- What the three reading calls return. -/
structure ReadsAs (clock : TaskRow → Nat → Time) (db : TaskTable) (m : TaskMap) : Prop where
  find : ∀ id, ∃ found, db.find clock id = .ok found ∧ Option.Rel SameTask (m id) found
  incomplete : ∃ ts, db.incomplete clock = .ok ts ∧ Lists m (fun t => !t.isTerminal) ts ∧
    ts.Pairwise fun t u => t.metadata.createdAt ≤ u.metadata.createdAt
  forUser : ∀ user, ∃ ts, db.forUser clock user = .ok ts ∧ Lists m (fun t => t.metadata.user = user) ts ∧
    ts.Pairwise fun t u => u.metadata.createdAt ≤ t.metadata.createdAt

theorem SameTask.id_eq (h : SameTask t u) : u.metadata.id = t.metadata.id := by rw [h.metadata]

theorem SameTask.createdAt_eq (h : SameTask t u) : u.metadata.createdAt = Time.floorMs t.metadata.createdAt := by
  rw [h.metadata]

theorem exists_same_of_forall₂ {ts : List Task} (h : List.Forall₂ SameTask tasks ts) (ht : t ∈ tasks) :
    ∃ t' ∈ ts, SameTask t t' := by
  induction h with
  | nil => cases ht
  | cons hsame _ ih =>
    rcases List.mem_cons.1 ht with rfl | ht
    · exact ⟨_, List.mem_cons_self, hsame⟩
    · obtain ⟨t', ht', h⟩ := ih ht
      exact ⟨t', List.mem_cons_of_mem _ ht', h⟩

theorem exists_task_of_forall₂ {ts : List Task} (h : List.Forall₂ SameTask tasks ts) (hu : u ∈ ts) :
    ∃ t ∈ tasks, SameTask t u := by
  induction h with
  | nil => cases hu
  | cons hsame _ ih =>
    rcases List.mem_cons.1 hu with rfl | hu
    · exact ⟨_, List.mem_cons_self, hsame⟩
    · obtain ⟨t, ht, h⟩ := ih hu
      exact ⟨t, List.mem_cons_of_mem _ ht, h⟩

theorem pairwise_of_forall₂ {ts : List Task} {R S : Task → Task → Prop} (h : List.Forall₂ SameTask tasks ts)
    (hR : tasks.Pairwise R) (hS : ∀ t u t' u', R t u → SameTask t t' → SameTask u u' → S t' u') : ts.Pairwise S := by
  induction h with
  | nil => exact .nil
  | @cons t t' tasks ts ht h ih =>
    obtain ⟨hhead, htail⟩ := List.pairwise_cons.1 hR
    refine .cons (fun u' hu' => ?_) (ih htail)
    obtain ⟨u, hu, hsame⟩ := exists_task_of_forall₂ h hu'
    exact hS _ _ _ _ (hhead u hu) ht hsame

/-- The rows of tasks load as the tasks, in their order. -/
theorem collectTasks_rowOf (clock : TaskRow → Nat → Time) (h : ∀ t ∈ tasks, Reachable TaskOp.Binds t) :
    ∃ ts, TaskTable.collectTasks clock (tasks.map rowOf) = .ok ts ∧ List.Forall₂ SameTask tasks ts := by
  induction tasks with
  | nil => exact ⟨[], rfl, .nil⟩
  | cons t tasks ih =>
    obtain ⟨t', hload, hsame⟩ := load_same (clock (rowOf t)) (h t List.mem_cons_self)
    obtain ⟨ts, hts, hall⟩ := ih fun u hu => h u (List.mem_cons_of_mem t hu)
    refine ⟨t' :: ts, ?_, .cons hsame hall⟩
    unfold TaskTable.collectTasks at hts ⊢
    rw [List.map_cons, List.mapM_cons, hload, hts]
    rfl

/-- The texts of the times in which tasks were made are in the order of the times. -/
theorem created_le (ht : Reachable TaskOp.Binds t) (hu : Reachable TaskOp.Binds u)
    (h : (rowOf t).createdAt.toText ≤ (rowOf u).createdAt.toText) :
    Time.floorMs t.metadata.createdAt ≤ Time.floorMs u.metadata.createdAt := by
  rw [rowOf_eq, rowOf_eq] at h
  exact not_lt.1 (mt (toIso8601_lt_iff hu.sound.created ht.sound.created).2 (String.not_lt.2 h))

/-- A query that keeps the rows of the tasks with `p`, in the order of a column's texts. -/
theorem Holds.query (h : Holds tasks db m) (clock : TaskRow → Nat → Time) (keep : TaskRow → Bool)
    (p : Task → Bool) (text : TaskRow → TaskRow → Prop) [DecidableRel text]
    (hkeep : ∀ t, keep (rowOf t) = p t) (htrans : ∀ r s q, text r s → text s q → text r q) (htotal : ∀ r s, text r s ∨ text s r) :
    ∃ ts, TaskTable.collectTasks clock ((db.rows.filter keep).mergeSort fun r s => decide (text r s)) = .ok ts ∧
      Lists m p ts ∧ ∃ sorted : List Task, (∀ t ∈ sorted, Reachable TaskOp.Binds t) ∧
        sorted.Pairwise (fun t u => text (rowOf t) (rowOf u)) ∧ List.Forall₂ SameTask sorted ts := by
  let le (t u : Task) : Bool := decide (text (rowOf t) (rowOf u))
  have hrows : (db.rows.filter keep).mergeSort (fun r s => decide (text r s)) =
      ((tasks.filter p).mergeSort le).map rowOf := by
    rw [h.rows, filter_rowOf tasks hkeep]
    exact (List.map_mergeSort (f := rowOf) fun t _ u _ => rfl).symm
  have hmem : ∀ t, t ∈ (tasks.filter p).mergeSort le ↔ t ∈ tasks ∧ p t = true := fun t => by
    rw [List.mem_mergeSort, List.mem_filter]
  have hproper : ∀ t ∈ (tasks.filter p).mergeSort le, Reachable TaskOp.Binds t := fun t ht =>
    h.proper t ((hmem t).1 ht).1
  have hsorted : ((tasks.filter p).mergeSort le).Pairwise fun t u => le t u = true := by
    refine List.pairwise_mergeSort (fun t u v htu huv => ?_) (fun t u => ?_) _
    · exact decide_eq_true (htrans _ _ _ (of_decide_eq_true htu) (of_decide_eq_true huv))
    · rw [Bool.or_eq_true, decide_eq_true_iff, decide_eq_true_iff]
      exact htotal _ _
  have hapart : ((tasks.filter p).mergeSort le).Pairwise fun t u => t.metadata.id ≠ u.metadata.id :=
    (List.mergeSort_perm _ _).symm.pairwise (h.unique.filter p) Ne.symm
  obtain ⟨ts, hts, hall⟩ := collectTasks_rowOf clock hproper
  refine ⟨ts, hrows ▸ hts, ⟨fun id t ht hp => ?_, fun t' ht' => ?_, ?_⟩, _, hproper,
    hsorted.imp of_decide_eq_true, hall⟩
  · rw [h.map id] at ht
    exact exists_same_of_forall₂ hall ((hmem t).2 ⟨List.mem_of_find?_eq_some ht, hp⟩)
  · obtain ⟨t, ht, hsame⟩ := exists_task_of_forall₂ hall ht'
    obtain ⟨ht, hp⟩ := (hmem t).1 ht
    refine ⟨t, ?_, hp, hsame⟩
    rw [hsame.id_eq, h.map]
    exact h.unique.find?_eq (fun t : Task => t.metadata.id) ht
  · refine pairwise_of_forall₂ hall hapart fun t u t' u' hne ht hu => ?_
    rw [ht.id_eq, hu.id_eq]
    exact hne

theorem rowOf_userId_iff (t : Task) (user : UserId) :
    (rowOf t).userId = .integer user.value ↔ t.metadata.user = user := by
  rw [rowOf_eq]
  constructor
  · intro h
    exact congrArg UserId.mk (SqlValue.integer.inj h)
  · rintro rfl
    rfl

theorem Holds.find (h : Holds tasks db m) (clock : TaskRow → Nat → Time) (id : TaskId) :
    ∃ found, db.find clock id = .ok found ∧ Option.Rel SameTask (m id) found := by
  have hrow : db.rows.find? (fun row => row.id = .text id.value) =
      (tasks.find? fun t => t.metadata.id = id).map rowOf := by
    have hid : (fun row : TaskRow => decide (row.id = .text id.value)) ∘ rowOf =
        fun t => decide (t.metadata.id = id) := by
      funext t
      simp only [Function.comp_apply, rowOf_id_iff]
    rw [h.rows, List.find?_map, hid]
  unfold TaskTable.find
  rw [hrow, h.map id]
  cases hfound : tasks.find? fun t => t.metadata.id = id with
  | none => exact ⟨none, rfl, .none⟩
  | some t =>
    obtain ⟨t', hload, hsame⟩ := load_same (clock (rowOf t)) (h.proper t (List.mem_of_find?_eq_some hfound))
    refine ⟨some t', ?_, .some hsame⟩
    dsimp only [Option.map_some]
    rw [hload]
    rfl

theorem Holds.reads (h : Holds tasks db m) (clock : TaskRow → Nat → Time) : ReadsAs clock db m where
  find := h.find clock
  incomplete := by
    obtain ⟨ts, hts, hlists, sorted, hproper, hsorted, hall⟩ := h.query clock
      (fun row => !TaskTable.isTerminalState row) (fun t => !t.isTerminal)
      (fun r s => r.createdAt.toText ≤ s.createdAt.toText) (fun t => by rw [isTerminalState_rowOf])
      (fun _ _ _ => String.le_trans) fun _ _ => String.le_total _ _
    refine ⟨ts, hts, hlists, pairwise_of_forall₂ hall (hsorted.imp_of_mem fun ht hu hle =>
      created_le (hproper _ ht) (hproper _ hu) hle) fun t u t' u' hle ht hu => ?_⟩
    rw [ht.createdAt_eq, hu.createdAt_eq]
    exact hle
  forUser user := by
    obtain ⟨ts, hts, hlists, sorted, hproper, hsorted, hall⟩ := h.query clock
      (fun row => row.userId = .integer user.value) (fun t => t.metadata.user = user)
      (fun r s => s.createdAt.toText ≤ r.createdAt.toText) (fun t => decide_eq_decide.2 (rowOf_userId_iff t user))
      (fun _ _ _ h h' => String.le_trans h' h) fun _ _ => String.le_total _ _
    refine ⟨ts, hts, hlists, pairwise_of_forall₂ hall (hsorted.imp_of_mem fun ht hu hle =>
      created_le (hproper _ hu) (hproper _ ht) hle) fun t u t' u' hle ht hu => ?_⟩
    rw [ht.createdAt_eq, hu.createdAt_eq]
    exact hle

/-- The repository is a map from ids to tasks: it answers calls as the map does, and after them it finds and
lists the tasks that the map has. -/
theorem tasks_refine_map (calls : List TaskCall) (hcalls : ∀ call ∈ calls, call.Proper) :
    (Calls.history TaskCall.onTable {} calls).1 = (Calls.history TaskCall.onMap (fun _ => none) calls).1 ∧
    ∀ clock, ReadsAs clock (Calls.history TaskCall.onTable {} calls).2
      (Calls.history TaskCall.onMap (fun _ => none) calls).2 := by
  obtain ⟨hresults, tasks, hholds⟩ := Calls.history_related
    (fun db m call (h : Stands db m) hcall => h.elim fun _ h => h.step call hcall) hcalls ⟨[], .empty⟩
  exact ⟨hresults, hholds.reads⟩

/-- A failed task is saved, and a save over it fails. -/
theorem saved_over : ∃ db : TaskTable, ∃ t', db.find (fun _ _ => 0) ⟨"t1"⟩ = .ok (some t') ∧
    SameTask failedTask t' := by
  have hreads := (tasks_refine_map [.save {} failedTask, .save { fault := some (.sqlite "locked") } queuedTask] (by
    intro call hcall
    rcases List.mem_pair.1 hcall with rfl | rfl
    exacts [reachable_failedTask, .construct _ (by decide) (by decide)])).2 fun _ _ => 0
  obtain ⟨found, hfind, hrel⟩ := hreads.find ⟨"t1"⟩
  cases hrel with
  | some hsame => exact ⟨_, _, hfind, hsame⟩

end Cmlb.Persistence
