import Mathlib.Data.List.Count
import Mathlib.Data.List.Perm.Basic
import Cmlb.Upload.Pools

/-!
# What a directory upload that succeeds has uploaded

The parent of `upload_directory` decides from `first_error` alone. A worker can also leave without
recording an error: on an exception of `upload_file` and, at Google Drive, when it finds itself
cancelled; and the parent's wait can end before the workers do. Where these leave no item behind
(`Accounted`), a returned vector has one result for each item (`returned_uploaded_all`).
-/

namespace Cmlb.Upload

open WorkerPool

/-- The result of a call that returned a value. -/
def callValue : Nat × Option (Result UploadResult) → Option UploadResult
  | (_, some (.ok res)) => some res
  | _ => none

/-- Each item had one call, which returned a value, and `rs` are the values of the calls. -/
structure UploadedAll (size : Nat) (calls : List (Nat × Option (Result UploadResult)))
    (rs : List UploadResult) : Prop where
  once : ∀ k < size, ∃ res, calls.filter (·.1 = k) = [(k, some (.ok res))]
  results : rs = calls.filterMap callValue
  length : rs.length = size

/-- An exit that records no error leaves no item without a result: an exception comes after an error
was recorded; a cancelled worker records an error or finds all items claimed; the parent's wait is
cancelled when an error is recorded or all items are claimed and none is being uploaded. -/
def Accounted {n : Nat} (onCancel : Queue → Queue) (size : Nat)
    (s : PoolState n DirShared DirPc (Result (List UploadResult))) : PoolEvent n DirEvent → Prop
  | .act _ (.run .threw) => s.shared.body.firstError ≠ none
  | .act _ (.run (.cancelState true)) =>
    (onCancel s.shared.body.toQueue).firstError ≠ none ∨ size ≤ s.shared.body.nextIndex
  | .env .interrupt => s.shared.body.firstError ≠ none ∨
    size ≤ s.shared.body.nextIndex ∧ ∀ i idx, s.locals i ≠ .running (.uploading idx)
  | _ => True

variable {n size : Nat} {onCancel : Queue → Queue} {sh sh' : DirShared} {pc : DirPc} {e : DirEvent}
  {o : Option DirPc} {v : Fin n → WorkerStage DirPc} {i : Fin n}

/-- What a step of a worker can do. -/
inductive FileStep (onCancel : Queue → Queue) (size : Nat) (sh : DirShared) :
    DirPc → DirEvent → DirShared → Option DirPc → Prop
  | aborted (h : sh.abort = true) : FileStep onCancel size sh .checkAbort .run sh none
  | goesOn : FileStep onCancel size sh .checkAbort .run sh (some .checkCancel)
  | cancelled : FileStep onCancel size sh .checkCancel (.cancelState true)
      { sh with toQueue := onCancel sh.toQueue } none
  | notCancelled : FileStep onCancel size sh .checkCancel (.cancelState false) sh (some .claim)
  | exhausted (h : size ≤ sh.nextIndex) :
      FileStep onCancel size sh .claim .run { sh with toQueue := sh.claimed } none
  | claimed (h : sh.nextIndex < size) : FileStep onCancel size sh .claim .run
      { sh with toQueue := sh.claimed } (some (.uploading sh.nextIndex))
  | failed (idx err) : FileStep onCancel size sh (.uploading idx) (.uploaded (.error err))
      { sh with calls := sh.calls ++ [(idx, some (.error err))], toQueue := sh.recordError err } none
  | uploaded (idx res) : FileStep onCancel size sh (.uploading idx) (.uploaded (.ok res))
      { sh with calls := sh.calls ++ [(idx, some (.ok res))], results := sh.results ++ [res] }
      (some .checkAbort)
  | threw (idx) : FileStep onCancel size sh (.uploading idx) .threw
      { sh with calls := sh.calls ++ [(idx, none)] } none

theorem fileWorker_inv (h : fileWorker onCancel size sh pc e = some (sh', o)) :
    FileStep onCancel size sh pc e sh' o := by
  unfold fileWorker at h
  split at h
  · cases h
    split
    · exact .aborted ‹_›
    · exact .goesOn
  · split at h <;> rename_i hc
    · cases h
      rw [hc]
      exact .cancelled
    · cases h
      rw [Bool.eq_false_iff.2 hc]
      exact .notCancelled
  · cases h
    split
    · exact .exhausted ‹_›
    · exact .claimed (Nat.lt_of_not_le ‹_›)
  · rename_i idx r
    cases r with
    | error err =>
      cases h
      exact .failed idx err
    | ok res =>
      cases h
      exact .uploaded idx res
  · cases h
    exact .threw _
  · cases h

/-! ### The items and the calls -/

/-- Nothing is left to claim, or an error will be returned. -/
def Done (size : Nat) (sh : DirShared) : Prop := sh.firstError ≠ none ∨ size ≤ sh.nextIndex

/-- All items are claimed and none is being uploaded. -/
structure Closed (size : Nat) (sh : DirShared) (v : Fin n → WorkerStage DirPc) : Prop where
  claimed : size ≤ sh.nextIndex
  idle : ∀ i idx, v i ≠ .running (.uploading idx)

/-- One if the worker is uploading the item `k`. -/
def uploads (k : Nat) : WorkerStage DirPc → Nat
  | .running (.uploading idx) => if idx = k then 1 else 0
  | _ => 0

@[simp] theorem uploads_uploading (k idx : Nat) :
    uploads k (.running (.uploading idx)) = if idx = k then 1 else 0 := rfl
@[simp] theorem uploads_checkAbort (k : Nat) : uploads k (.running .checkAbort) = 0 := rfl
@[simp] theorem uploads_checkCancel (k : Nat) : uploads k (.running .checkCancel) = 0 := rfl
@[simp] theorem uploads_claim (k : Nat) : uploads k (.running .claim) = 0 := rfl
@[simp] theorem uploads_left (k : Nat) : uploads k .left = 0 := rfl
@[simp] theorem uploads_fresh (k : Nat) : uploads k .fresh = 0 := rfl

/-- A claimed item is with one worker or has had its call, and no other item has. -/
structure DirInv (size : Nat) (sh : DirShared) (v : Fin n → WorkerStage DirPc) : Prop where
  counted : ∀ k, (sh.calls.map Prod.fst).count k + ∑ i, uploads k (v i) =
    if k < sh.nextIndex ∧ k < size then 1 else 0
  valued : sh.firstError = none → ∀ c ∈ sh.calls, ∃ res, c.2 = some (.ok res)
  results : sh.results = sh.calls.filterMap callValue
  aborted : sh.abort = true → Done size sh
  left : ∀ i, v i = .left → Done size sh

/-- What a worker does on finding itself cancelled neither claims an item nor takes back an error. -/
structure Harmless (onCancel : Queue → Queue) : Prop where
  nextIndex : ∀ q, (onCancel q).nextIndex = q.nextIndex
  firstError : ∀ q, q.firstError ≠ none → (onCancel q).firstError ≠ none

theorem Queue.recordError_ne_none (q : Queue) (err : AppError) : (q.recordError err).firstError ≠ none :=
  fun h => by cases h

theorem harmless_setAbort : Harmless Queue.setAbort := ⟨fun _ => rfl, fun _ h => h⟩

theorem harmless_recordError (err : AppError) : Harmless (·.recordError err) :=
  ⟨fun _ => rfl, fun q _ => q.recordError_ne_none err⟩

namespace FileStep

theorem firstError (hc : Harmless onCancel) (h : FileStep onCancel size sh pc e sh' o)
    (he : sh.firstError ≠ none) : sh'.firstError ≠ none := by
  cases h with
  | cancelled => exact hc.firstError _ he
  | failed => exact Queue.recordError_ne_none _ _
  | _ => exact he

theorem nextIndex_le (hc : Harmless onCancel) (h : FileStep onCancel size sh pc e sh' o) :
    sh.nextIndex ≤ sh'.nextIndex := by
  cases h with
  | cancelled => exact (hc.nextIndex _).ge
  | exhausted | claimed => exact Nat.le_succ _
  | _ => exact Nat.le_refl _

theorem done (hc : Harmless onCancel) (h : FileStep onCancel size sh pc e sh' o)
    (hd : Done size sh) : Done size sh' :=
  hd.imp (h.firstError hc) fun hn => hn.trans (h.nextIndex_le hc)

end FileStep

/-- The guard, at a step of a worker. -/
def Leaves (size : Nat) (sh sh' : DirShared) : DirEvent → Prop
  | .threw => sh.firstError ≠ none
  | .cancelState true => Done size sh'
  | _ => True

theorem FileStep.counted (hc : Harmless onCancel) (h : DirInv size sh v) (hv : v i = .running pc)
    (hs : FileStep onCancel size sh pc e sh' o) (k : Nat) :
    (sh'.calls.map Prod.fst).count k + ∑ j, uploads k (Function.update v i (.after o) j) =
      if k < sh'.nextIndex ∧ k < size then 1 else 0 := by
  have hsum := sum_update (uploads k) v i (.after o)
  have hk := h.counted k
  rw [hv] at hsum
  generalize ∑ j, uploads k (Function.update v i (.after o) j) = after at hsum ⊢
  cases hs with
  | aborted | goesOn | notCancelled =>
    simp at hsum
    omega
  | cancelled =>
    simp at hsum
    simp only [hc.nextIndex]
    omega
  | exhausted hn =>
    simp at hsum
    simp only [Queue.claimed]
    grind
  | claimed hn =>
    simp at hsum
    simp only [Queue.claimed]
    grind
  | failed idx | uploaded idx | threw idx =>
    simp at hsum
    simp only [List.map_append, List.count_append, List.map_cons, List.map_nil, List.count_singleton,
      beq_iff_eq, Queue.recordError]
    grind

theorem FileStep.left (h : DirInv size sh v) (hs : FileStep onCancel size sh pc e sh' o)
    (hg : Leaves size sh sh' e) (ho : o = none) : Done size sh' := by
  cases hs with
  | aborted ha => exact h.aborted ha
  | cancelled => exact hg
  | exhausted hn => exact .inr (Nat.le_succ_of_le hn)
  | failed => exact .inl (Queue.recordError_ne_none _ _)
  | threw => exact .inl hg
  | goesOn | notCancelled | claimed | uploaded => cases ho

theorem DirInv.step (hc : Harmless onCancel) (h : DirInv size sh v) (hv : v i = .running pc)
    (hs : FileStep onCancel size sh pc e sh' o) (hg : Leaves size sh sh' e) :
    DirInv size sh' (Function.update v i (.after o)) where
  counted := hs.counted hc h hv
  valued := by
    intro hn
    have hnone : sh.firstError = none := by
      by_contra he
      exact hs.firstError hc he hn
    have hold := h.valued hnone
    cases hs with
    | failed => exact absurd hn (Queue.recordError_ne_none _ _)
    | threw => exact absurd hnone hg
    | uploaded idx res =>
      intro c hcall
      rcases List.mem_append.1 hcall with hcall | hcall
      · exact hold c hcall
      · rw [List.mem_singleton.1 hcall]
        exact ⟨res, rfl⟩
    | _ => exact hold
  results := by
    cases hs with
    | failed | threw => simpa [List.filterMap_cons, callValue] using h.results
    | uploaded => simp [callValue, h.results]
    | _ => exact h.results
  aborted := by
    intro ha
    have hd : Done size sh → Done size sh' := hs.done hc
    cases hs with
    | cancelled => exact hg
    | failed => exact .inl (Queue.recordError_ne_none _ _)
    | _ => exact hd (h.aborted ha)
  left := by
    intro j hj
    rcases eq_of_update_eq hj with ⟨-, ho⟩ | ⟨-, hj⟩
    · refine hs.left h hg ?_
      cases o with
      | none => rfl
      | some pc => cases ho
    · exact hs.done hc (h.left j hj)

theorem Closed.step (h : Closed size sh v) (hc : Harmless onCancel) (hv : v i = .running pc)
    (hs : FileStep onCancel size sh pc e sh' o) :
    Closed size sh' (Function.update v i (.after o)) ∧ sh'.calls = sh.calls := by
  have hcalls : sh'.calls = sh.calls ∧ ∀ idx, o ≠ some (.uploading idx) := by
    cases hs with
    | failed idx | uploaded idx | threw idx => exact absurd hv (h.idle i idx)
    | claimed hn => exact absurd h.claimed (Nat.not_le_of_lt hn)
    | _ => exact ⟨rfl, fun idx h => by cases h⟩
  refine ⟨⟨h.claimed.trans (hs.nextIndex_le hc), fun j idx hj => ?_⟩, hcalls.1⟩
  rcases eq_of_update_eq hj with ⟨-, ho⟩ | ⟨-, hj⟩
  · cases o with
    | none => cases ho
    | some pc =>
      cases ho
      exact hcalls.2 idx rfl
  · exact h.idle j idx hj

theorem Closed.uploads_eq_zero (h : Closed size sh v) (k : Nat) : ∑ i, uploads k (v i) = 0 := by
  refine Finset.sum_eq_zero fun i _ => ?_
  cases hv : v i with
  | running pc =>
    cases pc with
    | uploading idx => exact absurd hv (h.idle i idx)
    | _ => rfl
  | _ => rfl

/-- Every item has been claimed and is with no worker, so it has had its one call. -/
theorem Closed.count_calls (h : Closed size sh v) (hi : DirInv size sh v) (k : Nat) :
    (sh.calls.map Prod.fst).count k = if k < size then 1 else 0 := by
  have hk := hi.counted k
  have hclaimed := h.claimed
  rw [h.uploads_eq_zero, Nat.add_zero] at hk
  rw [hk]
  by_cases hks : k < size
  · rw [if_pos hks, if_pos ⟨by omega, hks⟩]
  · rw [if_neg hks, if_neg fun h => hks h.2]

theorem length_filterMap_callValue {calls : List (Nat × Option (Result UploadResult))}
    (h : ∀ c ∈ calls, ∃ res, c.2 = some (.ok res)) :
    (calls.filterMap callValue).length = calls.length := by
  rw [List.filterMap_length_eq_length]
  intro c hc
  obtain ⟨res, hres⟩ := h c hc
  obtain ⟨k, r⟩ := c
  cases hres
  rfl

theorem Closed.uploadedAll (h : Closed size sh v) (hi : DirInv size sh v) (hn : sh.firstError = none) :
    UploadedAll size sh.calls sh.results := by
  have hcount := h.count_calls hi
  refine ⟨fun k hk => ?_, hi.results, ?_⟩
  · have hone : (sh.calls.filter (·.1 = k)).length = 1 := by
      rw [← List.countP_eq_length_filter]
      have := hcount k
      rw [if_pos hk, List.count_eq_countP, List.countP_map] at this
      rw [← this]
      refine List.countP_congr fun c _ => ?_
      simp
    obtain ⟨c, hc⟩ := List.length_eq_one_iff.1 hone
    have hmem : c ∈ sh.calls.filter (·.1 = k) := by rw [hc]; exact List.mem_singleton_self c
    obtain ⟨hmem, hkey⟩ := List.mem_filter.1 hmem
    obtain ⟨res, hres⟩ := hi.valued hn c hmem
    obtain ⟨k', r⟩ := c
    cases hres
    cases of_decide_eq_true hkey
    exact ⟨res, hc⟩
  · have hperm : (sh.calls.map Prod.fst).Perm (List.range size) := by
      rw [List.perm_iff_count]
      intro k
      rw [hcount k, List.nodup_range.count]
      simp only [List.mem_range]
    rw [hi.results, length_filterMap_callValue (hi.valued hn), ← List.length_map (f := Prod.fst),
      hperm.length_eq, List.length_range]

/-! ### What the pools return -/

/-- What is known as the parent goes from joining its workers to its return. -/
def DirJoin (size : Nat) (p : Phase (Result (List UploadResult))) (sh : DirShared)
    (v : Fin n → WorkerStage DirPc) : Prop :=
  DirInv size sh v ∧
    match p with
    | .joining => 0 < n
    | .woken => sh.firstError ≠ none ∨ Closed size sh v
    | .returned r => ∀ rs, r = .ok rs → Closed size sh v ∧ UploadedAll size sh.calls rs

theorem DirJoin.step {p : Phase (Result (List UploadResult))} (hc : Harmless onCancel)
    (h : DirJoin size p sh v) (hv : v i = .running pc) (hs : FileStep onCancel size sh pc e sh' o)
    (hg : Leaves size sh sh' e) : DirJoin size p sh' (Function.update v i (.after o)) := by
  refine ⟨h.1.step hc hv hs hg, ?_⟩
  cases p with
  | joining => exact h.2
  | woken => exact h.2.imp (hs.firstError hc) fun hcl => (hcl.step hc hv hs).1
  | returned r =>
    intro rs hr
    obtain ⟨hcl, hall⟩ := h.2 rs hr
    obtain ⟨hcl', hcalls⟩ := hcl.step hc hv hs
    exact ⟨hcl', hcalls ▸ hall⟩

theorem DirJoin.resume (h : DirJoin size .woken sh v) :
    DirJoin size (.returned (dirVerdict sh)) sh v := by
  refine ⟨h.1, fun rs hr => ?_⟩
  unfold dirVerdict at hr
  split at hr
  · cases hr
  · rename_i hn
    cases hr
    rcases h.2 with he | hcl
    · exact absurd hn he
    · exact ⟨hcl, hcl.uploadedAll h.1 hn⟩

/-- A worker starts with no item in its hands. -/
theorem DirJoin.start {p : Phase (Result (List UploadResult))} (h : DirJoin size p sh v)
    (hv : v i = .fresh) : DirJoin size p sh (Function.update v i (.running .checkAbort)) := by
  have hinv : DirInv size sh (Function.update v i (.running .checkAbort)) := by
    refine ⟨fun k => ?_, h.1.valued, h.1.results, h.1.aborted, fun j hj => ?_⟩
    · have hsum := sum_update (uploads k) v i (.running .checkAbort)
      rw [hv] at hsum
      simp only [uploads_fresh, uploads_checkAbort, Nat.add_zero] at hsum
      rw [hsum]
      exact h.1.counted k
    · rcases eq_of_update_eq hj with ⟨-, hv'⟩ | ⟨-, hj⟩
      · cases hv'
      · exact h.1.left j hj
  have hclosed : Closed size sh v → Closed size sh (Function.update v i (.running .checkAbort)) := by
    refine fun hcl => ⟨hcl.claimed, fun j idx hj => ?_⟩
    rcases eq_of_update_eq hj with ⟨-, hv'⟩ | ⟨-, hj⟩
    · cases hv'
    · exact hcl.idle j idx hj
  refine ⟨hinv, ?_⟩
  cases p with
  | joining => exact h.2
  | woken => exact h.2.imp id hclosed
  | returned r => exact fun rs hr => (h.2 rs hr).imp hclosed id

theorem dirJoin_steps (hc : Harmless onCancel)
    {s s' : PoolState n DirShared DirPc (Result (List UploadResult))}
    {t : List (PoolEvent n DirEvent)} (hj : JoinInv s)
    (h0 : DirJoin size s.shared.parent.phase s.shared.body (stages s))
    (h : (pool (dirBody onCancel size) n).machine.Steps (Accounted onCancel size) s t s') :
    DirJoin size s'.shared.parent.phase s'.shared.body (stages s') := by
  refine rule (A := DirJoin size) ?_ ?_ ?_ ?_ ?_ hj h0 h
  · exact fun p sh v i hA hv => hA.start hv
  · intro s i l e body o hp hA hw hs
    have hs := fileWorker_inv hs
    refine hA.step hc (by simp [stages, hw, Worker.stage]) hs ?_
    cases hs with
    | cancelled => exact hp.imp id fun hn => by rwa [hc.nextIndex]
    | threw => exact hp
    | _ => trivial
  · intro sh v hA hleft
    refine ⟨hA.1, ?_⟩
    rcases hA.1.left ⟨0, hA.2⟩ (hleft _) with he | hn
    · exact .inl he
    · exact .inr ⟨hn, fun i idx h => by cases (hleft i).symm.trans h⟩
  · intro s hp hA
    refine ⟨hA.1, hp.imp id fun hn => ⟨hn.1, fun i idx h => ?_⟩⟩
    exact hn.2 i idx (Worker.stage_eq_running.1 h)
  · exact fun sh v hA => hA.resume

theorem dirInv_init (v : Fin n → WorkerStage DirPc) (hv : ∀ i k, uploads k (v i) = 0)
    (hleft : ∀ i, v i = .left → Done size {}) : DirInv size {} v where
  counted k := by simp [hv]
  valued _ c hc := by cases hc
  results := rfl
  aborted h := by cases h
  left := hleft

section
variable {s : PoolState n DirShared DirPc (Result (List UploadResult))} {t : List (PoolEvent n DirEvent)}
  {rs : List UploadResult}

theorem uploadedAll_of_steps (hc : Harmless onCancel) (hn : 0 < n)
    (h : (pool (dirBody onCancel size) n).machine.Steps (Accounted onCancel size) (start n {}) t s)
    (hr : s.shared.parent = .returned (.ok rs)) : UploadedAll size s.shared.body.calls rs := by
  have h0 : DirInv size {} (fun _ => .fresh : Fin n → WorkerStage DirPc) :=
    dirInv_init _ (fun _ _ => rfl) fun _ h => by cases h
  have hjoin := dirJoin_steps hc (JoinInv.start {}) ⟨h0, hn⟩ h
  rw [hr] at hjoin
  exact (hjoin.2 rs rfl).2

/-- No items, and nothing was called. -/
theorem uploadedAll_of_empty (hc : Harmless onCancel)
    (h : (pool (dirBody onCancel 0) n).machine.Steps (Accounted onCancel 0)
      ⟨⟨.returned (.ok []), 0, {}⟩, fun _ => .gone⟩ t s)
    (hr : s.shared.parent = .returned (.ok rs)) : UploadedAll 0 s.shared.body.calls rs := by
  have hj : JoinInv (⟨⟨.returned (.ok []), 0, {}⟩, fun _ => .gone⟩ :
      PoolState n DirShared DirPc (Result (List UploadResult))) :=
    ⟨by simp [Worker.count], (fun i h => by cases h), (fun i j h => by cases h), Nat.le_refl n⟩
  have h0 : DirInv 0 {} (fun _ => .left : Fin n → WorkerStage DirPc) :=
    dirInv_init _ (fun _ _ => rfl) fun _ _ => .inr (Nat.zero_le _)
  have hcl : Closed 0 {} (fun _ => .left : Fin n → WorkerStage DirPc) :=
    ⟨Nat.zero_le _, fun i idx h => by cases h⟩
  have hret : DirJoin 0 (.returned (.ok [])) {} (fun _ => .left : Fin n → WorkerStage DirPc) := by
    refine ⟨h0, fun rs hrs => ?_⟩
    cases hrs
    exact ⟨hcl, hcl.uploadedAll h0 rfl⟩
  have hjoin := dirJoin_steps hc hj hret h
  rw [hr] at hjoin
  exact (hjoin.2 rs rfl).2

end

/-- When every exit without an error leaves no item behind, a directory upload that returns a value
has uploaded each item once and returns its result. -/
theorem returned_uploaded_all (configured : Int) (size : Nat) :
    (∀ t s rs,
      (GoogleDrive.dirPool configured size).Steps (Accounted Queue.setAbort size)
        (GoogleDrive.dirStart configured size) t s →
      s.shared.parent = .returned (.ok rs) → UploadedAll size s.shared.body.calls rs) ∧
    (∀ t s rs,
      (Telegram.dirPool configured size).Steps (Accounted (·.recordError Telegram.cancelled) size)
        (Telegram.dirStart configured size) t s →
      s.shared.parent = .returned (.ok rs) → UploadedAll size s.shared.body.calls rs) := by
  constructor
  · intro t s rs h hr
    exact uploadedAll_of_steps harmless_setAbort (GoogleDrive.fileParallelism_pos configured size) h hr
  · intro t s rs h hr
    unfold Telegram.dirStart at h
    by_cases hn : size = 0
    · subst hn
      exact uploadedAll_of_empty (harmless_recordError Telegram.cancelled) h hr
    · rw [if_neg hn] at h
      exact uploadedAll_of_steps (harmless_recordError Telegram.cancelled)
        (Telegram.fileParallelism_pos hn) h hr

/-- A worker that does not find itself cancelled claims the next index. -/
def claimsNext {n : Nat} (i : Fin n) : List (PoolEvent n DirEvent) :=
  [.act i (.run .run), .act i (.run (.cancelState false)), .act i (.run .run)]

/-- Each of two workers uploads one item; the item that is claimed last is uploaded first. -/
def uploadsTwo {n : Nat} (i j : Fin n) (r r' : UploadResult) : List (PoolEvent n DirEvent) :=
  [.env .spawn, .env .spawn, .act i .start, .act j .start] ++ claimsNext i ++ claimsNext j ++
    [.env .startWait, .act j (.run (.uploaded (.ok r))), .act i (.run (.uploaded (.ok r')))] ++
    claimsNext j ++ claimsNext i ++ [.act j .exit, .act i .exit, .act i .cancel, .env .resume]

theorem accounted_uploadsTwo (onCancel : Queue → Queue) (size : Nat) {i j : Fin n} {r r' : UploadResult}
    (s : PoolState n DirShared DirPc (Result (List UploadResult))) :
    ∀ e ∈ uploadsTwo i j r r', Accounted onCancel size s e := by
  simp [uploadsTwo, claimsNext, Accounted]

/-- The files `a` and `b`, one for each worker. -/
def twoUploads : List (PoolEvent (GoogleDrive.fileParallelism 2 2) DirEvent) :=
  uploadsTwo ⟨0, by decide⟩ ⟨1, by decide⟩ ⟨"b", "", 2, 0⟩ ⟨"a", "", 1, 0⟩

theorem uploaded_two : ∃ s, (GoogleDrive.dirPool 2 2).Steps (Accounted Queue.setAbort 2)
    (GoogleDrive.dirStart 2 2) twoUploads s ∧
    s.shared.parent = .returned (.ok [⟨"b", "", 2, 0⟩, ⟨"a", "", 1, 0⟩]) ∧
    UploadedAll 2 s.shared.body.calls [⟨"b", "", 2, 0⟩, ⟨"a", "", 1, 0⟩] := by
  have hobs : ((GoogleDrive.dirPool 2 2).run (GoogleDrive.dirStart 2 2) twoUploads).map
      (fun s => s.shared.parent) = some (.returned (.ok [⟨"b", "", 2, 0⟩, ⟨"a", "", 1, 0⟩])) := rfl
  obtain ⟨s, hruns, hr⟩ := Machine.exists_runs hobs
  have hs := hruns.of_forall_mem (accounted_uploadsTwo Queue.setAbort 2)
  exact ⟨s, hs, hr, (returned_uploaded_all 2 2).1 _ s _ hs hr⟩

/-- `upload_file` throws on the one item. -/
def throwsOne {n : Nat} (i : Fin n) : List (PoolEvent n DirEvent) :=
  [.env .spawn, .env .startWait, .act i .start, .act i (.run .run), .act i (.run (.cancelState false)),
    .act i (.run .run), .act i (.run .threw), .act i .exit, .act i .cancel, .env .resume]

/-- Both uploaders return an empty vector, as if all had been uploaded. -/
theorem thrown_returns_value :
    (∃ s, (GoogleDrive.dirPool 1 1).Runs (GoogleDrive.dirStart 1 1) (throwsOne ⟨0, by decide⟩) s ∧
      s.shared.parent = .returned (.ok []) ∧ ¬ UploadedAll 1 s.shared.body.calls []) ∧
    (∃ s, (Telegram.dirPool 1 1).Runs (Telegram.dirStart 1 1) (throwsOne ⟨0, by decide⟩) s ∧
      s.shared.parent = .returned (.ok []) ∧ ¬ UploadedAll 1 s.shared.body.calls []) := by
  constructor
  · exact ⟨_, .cons trivial rfl (.cons trivial rfl (.cons trivial rfl (.cons trivial rfl
      (.cons trivial rfl (.cons trivial rfl (.cons trivial rfl (.cons trivial rfl (.cons trivial rfl
      (.cons trivial rfl (.nil _)))))))))), rfl, fun h => by cases h.length⟩
  · exact ⟨_, .cons trivial rfl (.cons trivial rfl (.cons trivial rfl (.cons trivial rfl
      (.cons trivial rfl (.cons trivial rfl (.cons trivial rfl (.cons trivial rfl (.cons trivial rfl
      (.cons trivial rfl (.nil _)))))))))), rfl, fun h => by cases h.length⟩

end Cmlb.Upload
