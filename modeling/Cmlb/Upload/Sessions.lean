import Cmlb.Upload.GoogleDrive

/-!
# Resumable sessions that are given up (`upload_resumable`)

Once the initial request has brought a session URI, an upload that fails is to abort the session. The
run can end without a value where the file cannot be opened, where a worker has failed, where no worker
has failed but none got a file id either, and at any `co_await` that finds the caller cancelled: it
throws, and what was to be awaited does not start. `interrupted` puts that check in front of every
suspension point of the programs of the uploader. The session is aborted exactly if no such check
finds a cancellation and the workers either record a failure or take a file id (`session_aborted_iff`);
workers that are answered with 308 to the last do neither.
-/

namespace Cmlb.Upload.GoogleDrive

open WorkerPool

/-- The calls that begin with a `co_await`: those of a coroutine and of an asynchronous operation. -/
def DriveCall.suspends : DriveCall → Bool
  | .cachedBearer | .signJwt | .request _ | .abortSession _ | .joinChunks _ => true
  | _ => false

/-- The program with the exceptions of its caller's cancellation; `none` where it ends with one. -/
def interrupted {α : Type} (p : Action α) : Action (Option α) :=
  p.interruptible .cancellationState id DriveCall.suspends

/-- The session URI that an answer brings. -/
def sessionUri : (Σ c, DriveCall.Answer c) → Option String
  | ⟨.request (.resumableInit ..), .ok resp⟩ =>
    match GoogleDriveUploader.sessionOf resp with
    | .ok uri => some uri
    | .error _ => none
  | _ => none

abbrev DriveLog := List (Σ c, DriveCall.Answer c)

def Aborted (uri : String) (log : DriveLog) : Prop :=
  ∃ res, (⟨.abortSession uri, res⟩ : Σ c, DriveCall.Answer c) ∈ log

/-! ### The file id -/

/-- The id of a final response that a worker stores at a step. -/
def takenId (R : Resumable) : ChunkPc → ChunkEvent → Option String
  | .deciding _ resp, .run =>
    if resp.statusCode = 200 ∨ resp.statusCode = 201 then (finalFileId R.json resp.body).toOption else none
  | _, _ => none

variable {n : Nat} {ρ : Type}

def takenIds (R : Resumable) (s : PoolState n ChunkShared ChunkPc ρ) : PoolEvent n ChunkEvent → List String
  | .act i (.run e) =>
    match s.locals i with
    | .running pc => (takenId R pc e).toList
    | _ => []
  | _ => []

/-- The last id that a worker took is not empty. -/
def TakesId (R : Resumable) (t : List (PoolEvent R.parallelism ChunkEvent)) : Prop :=
  ∃ id ≠ "", ((chunkPool R).trail (takenIds R) (chunkStart R) t).getLast? = some id

variable {R : Resumable} {sh sh' : ChunkShared} {pc : ChunkPc} {e : ChunkEvent} {o : Option ChunkPc}

theorem conclude_fileId {resp : HttpResponse} {idx : Nat} (h : conclude R sh resp = some (sh', o)) :
    sh'.fileId = (takenId R (.deciding idx resp) .run).getD sh.fileId := by
  unfold conclude at h
  dsimp only [takenId]
  split at h
  · rename_i hcode
    rw [if_pos hcode]
    split at h
    · rename_i hid
      cases h
      rw [hid]
      rfl
    · rename_i hid
      cases h
      rw [hid]
      rfl
  · rename_i hcode
    rw [if_neg hcode]
    split at h <;> cases h <;> rfl

theorem retry_fileId {idx attempt : Nat} {refreshed : Bool} {r : Result HttpResponse}
    (h : retry R sh idx attempt refreshed r = some (sh', o)) : sh'.fileId = sh.fileId := by
  rcases retry_cases R idx attempt refreshed r with ⟨err, hbail⟩ | ⟨pc, -, hstays⟩
  · rw [hbail] at h
    cases h
    rfl
  · rw [hstays] at h
    cases h
    rfl

theorem chunkWorker_fileId (h : chunkWorker R sh pc e = some (sh', o)) :
    sh'.fileId = (takenId R pc e).getD sh.fileId := by
  cases chunkWorker_move h with
  | retries _ _ _ _ _ _ h => exact retry_fileId h
  | concludes _ _ _ _ h => exact conclude_fileId h
  | threw => cases pc <;> rfl
  | _ => rfl

/-- `file_id` is the last id that a worker took. -/
theorem fileId_of_runs {s : PoolState R.parallelism ChunkShared ChunkPc (Result UploadResult)}
    {t : List (PoolEvent R.parallelism ChunkEvent)} (h : (chunkPool R).Runs (chunkStart R) t s) :
    s.shared.body.fileId = ((chunkPool R).trail (takenIds R) (chunkStart R) t).getLast?.getD "" := by
  refine h.trail_invariant (I := fun ids s => s.shared.body.fileId = ids.getLast?.getD "") rfl ?_
  intro ids s e s' _ hids hs
  cases step_inv hs with
  | @run i pc x sh o hw hb =>
    show sh.fileId = _
    rw [chunkWorker_fileId hb, hids]
    simp only [takenIds, hw]
    cases takenId R pc x <;> simp
  | spawn | startWait | abandon | interrupt | resume | start | exit | cancel =>
    simp only [takenIds, List.append_nil]
    exact hids

/-- What makes the wait for the workers end with a failure or a file id. -/
def Concludes {R : Resumable} (j : Join (chunkBody R) R.parallelism {}) : Prop :=
  (∃ d, FailsFirst (chunkBody R) (chunkFailure R) (start R.parallelism {}) j.events d) ∨ TakesId R j.events

theorem firstError_isSome_iff (j : Join (chunkBody R) R.parallelism {}) :
    j.state.shared.body.firstError.isSome ↔
      ∃ d, FailsFirst (chunkBody R) (chunkFailure R) (start R.parallelism {}) j.events d := by
  rw [Option.isSome_iff_exists]
  exact exists_congr fun d => (keepsFirst_chunkBody R).iff rfl j.run

theorem takesId_iff (j : Join (chunkBody R) R.parallelism {}) :
    TakesId R j.events ↔ j.state.shared.body.fileId ≠ "" := by
  rw [fileId_of_runs j.run]
  unfold TakesId
  constructor
  · rintro ⟨id, hne, hid⟩
    rw [hid]
    exact hne
  · intro hne
    cases hid : ((chunkPool R).trail (takenIds R) (chunkStart R) j.events).getLast? with
    | none =>
      rw [hid] at hne
      exact absurd rfl hne
    | some id =>
      rw [hid] at hne
      exact ⟨id, hne, rfl⟩

/-- The wait ends with a value exactly if no worker failed and one took an id. -/
theorem result_ok_iff (j : Join (chunkBody R) R.parallelism {}) :
    (∃ out, j.result = .ok out) ↔
      j.state.shared.body.firstError = none ∧ j.state.shared.body.fileId ≠ "" := by
  show (∃ out, resumableVerdict R j.state.shared.body = .ok out) ↔ _
  unfold resumableVerdict
  cases j.state.shared.body.firstError with
  | some err => simp
  | none => by_cases hid : j.state.shared.body.fileId = "" <;> simp [hid]

/-! ### The session -/

/-- The answers after which a session is not left open. -/
def Conclusive : (Σ c, DriveCall.Answer c) → Prop
  | ⟨.cancellationState, stopped⟩ => stopped = false
  | ⟨.joinChunks _, j⟩ => Concludes j
  | _ => True

variable {G : GoogleDriveUploader} {path : Path} {parent uri : String} {total : Nat} {log : DriveLog}
  {x : Option (Result UploadResult)}

/-- A run from the open session on: it returns a value or aborts the session. -/
def Cleans (uri : String) (log : DriveLog) (x : Option (Result UploadResult)) : Prop :=
  (¬ ∃ out, x = some (.ok out)) → Aborted uri log

/-- Nothing is aborted where the next `co_await` throws. -/
theorem cleans_stopped {stopped : Bool} (h : stopped = true) :
    Cleans uri [⟨.cancellationState, stopped⟩] none ↔
      ∀ y ∈ ([⟨.cancellationState, stopped⟩] : DriveLog), Conclusive y := by
  refine iff_of_false (fun hcleans => ?_) fun hall => ?_
  · obtain ⟨res, hres⟩ := hcleans fun ⟨_, hx⟩ => by cases hx
    simp at hres
  · have hfalse : stopped = false := hall _ List.mem_cons_self
    rw [h] at hfalse
    cases hfalse

/-- What was answered before does not matter to the session where it is conclusive and no abort. -/
theorem cleans_cons {y : Σ c, DriveCall.Answer c} (hy : Conclusive y)
    (hab : ∀ res, y ≠ ⟨.abortSession uri, res⟩) (h : Cleans uri log x ↔ ∀ z ∈ log, Conclusive z) :
    Cleans uri (y :: log) x ↔ ∀ z ∈ y :: log, Conclusive z := by
  have habort : Aborted uri (y :: log) ↔ Aborted uri log := by
    unfold Aborted
    refine exists_congr fun res => ?_
    rw [List.mem_cons, or_iff_right (Ne.symm (hab res))]
  unfold Cleans at h ⊢
  rw [habort, List.forall_mem_cons, and_iff_right hy]
  exact h

/-- The end of a run that is to abort the session. -/
theorem cleans_abort {r : Result UploadResult}
    (h : (interrupted do
      let _ ← Prog.ask (DriveCall.abortSession uri)
      pure r).Dialog log x) : Cleans uri log x ↔ ∀ y ∈ log, Conclusive y := by
  rcases h.interruptible_ask_inv rfl with ⟨stopped, hstop, rfl, rfl⟩ | ⟨stopped, res, log', hstop, rfl, h'⟩
  · exact cleans_stopped hstop
  · obtain ⟨rfl, rfl⟩ := h'.pure_inv
    refine iff_of_true (fun _ => ⟨res, by simp⟩) fun y hy => ?_
    simp only [List.mem_cons, List.not_mem_nil, or_false] at hy
    rcases hy with rfl | rfl
    · exact hstop
    · trivial

theorem cleans_joinChunks {j : Join (chunkBody R) R.parallelism {}}
    (h : (interrupted (if j.state.shared.body.firstError.isSome then do
        let _ ← Prog.ask (DriveCall.abortSession uri)
        pure j.result
      else pure j.result)).Dialog log x) :
    Cleans uri (⟨.joinChunks R, j⟩ :: log) x ↔
      ∀ y ∈ (⟨.joinChunks R, j⟩ : Σ c, DriveCall.Answer c) :: log, Conclusive y := by
  by_cases herr : j.state.shared.body.firstError.isSome = true
  · rw [if_pos herr] at h
    have hconcl : Concludes j := .inl ((firstError_isSome_iff j).1 herr)
    exact cleans_cons hconcl (fun _ => by simp) (cleans_abort h)
  · rw [if_neg herr] at h
    obtain ⟨rfl, rfl⟩ := h.pure_inv
    have hfails : ¬ ∃ d, FailsFirst (chunkBody R) (chunkFailure R) (start R.parallelism {}) j.events d :=
      mt (firstError_isSome_iff j).2 herr
    have hnone : j.state.shared.body.firstError = none := by simpa using herr
    -- there is no abort here, so the wait has to end with a value
    have hcleans : Cleans uri [⟨.joinChunks R, j⟩] (some j.result) ↔ ∃ out, j.result = .ok out := by
      simp [Cleans, Aborted]
    rw [hcleans, result_ok_iff, ← takesId_iff, and_iff_right hnone, List.forall_mem_singleton]
    exact (or_iff_right hfails).symm

theorem cleans_uploadChunks (h : (interrupted (G.uploadChunks path total uri)).Dialog log x) :
    Cleans uri log x ↔ ∀ y ∈ log, Conclusive y := by
  obtain ⟨file, log₁, rfl, h₁⟩ := h.interruptible_free_inv rfl
  refine cleans_cons trivial (fun _ => by simp) ?_
  cases file with
  | none => exact cleans_abort h₁
  | some file =>
    rcases h₁.interruptible_ask_inv rfl with ⟨stopped, hstop, rfl, rfl⟩ | ⟨stopped, j, log₂, hstop, rfl, h₂⟩
    · exact cleans_stopped hstop
    · exact cleans_cons hstop (fun _ => by simp) (cleans_joinChunks h₂)

theorem cleans_append {log₁ log₂ : DriveLog} (h₁ : ∀ y ∈ log₁, Conclusive y)
    (hab : ∀ y ∈ log₁, ∀ res, y ≠ ⟨.abortSession uri, res⟩)
    (h : Cleans uri log₂ x ↔ ∀ z ∈ log₂, Conclusive z) :
    Cleans uri (log₁ ++ log₂) x ↔ ∀ z ∈ log₁ ++ log₂, Conclusive z := by
  induction log₁ with
  | nil => exact h
  | cons y log₁ ih =>
    obtain ⟨hy, h₁⟩ := List.forall_mem_cons.1 h₁
    obtain ⟨hne, hab⟩ := List.forall_mem_cons.1 hab
    exact cleans_cons hy hne (ih h₁ hab)

/-! ### The whole run -/

/-- The calls of `acquire_bearer`, with the checks of its caller's cancellation. -/
theorem bearer_calls {y : Option (Result String)} (h : (interrupted G.acquireBearer).Dialog log y) :
    ∀ z ∈ log, z.1.ForBearer ∨ z.1 = .cancellationState := by
  have honly : G.acquireBearer.Only fun c => c.ForBearer ∨ c = .cancellationState :=
    (only_acquireBearer G).mono fun _ hc => .inl hc
  exact (honly.interruptible (.inr rfl)).dialog h

theorem bearer_conclusive {r : Result String} (h : (interrupted G.acquireBearer).Dialog log (some r)) :
    ∀ z ∈ log, Conclusive z := by
  have hne : G.acquireBearer.Only (· ≠ .cancellationState) :=
    (only_acquireBearer G).mono fun c hc => by
      rintro rfl
      exact hc
  rintro ⟨c, res⟩ hz
  rcases bearer_calls h _ hz with hc | rfl
  · cases c with
    | cancellationState | joinChunks => exact False.elim hc
    | _ => trivial
  · exact h.interruptible_kept hne res hz

theorem bearer_no_session {y : Option (Result String)} (h : (interrupted G.acquireBearer).Dialog log y) :
    ∀ z ∈ log, sessionUri z = none := by
  intro z hz
  have hc := bearer_calls h z hz
  unfold sessionUri
  split
  · rcases hc with hc | hc
    · exact hc.elim
    · cases hc
  · rfl

theorem chunks_no_session (h : (interrupted (G.uploadChunks path total uri)).Dialog log x) :
    ∀ z ∈ log, sessionUri z = none := by
  have honly : (G.uploadChunks path total uri).Only fun c => ∀ q, c ≠ .request q := by
    refine .ask_bind (fun _ => by simp) fun file => ?_
    cases file with
    | none => exact .ask_bind (fun _ => by simp) fun _ => .pure _
    | some file =>
      refine .ask_bind (fun _ => by simp) fun j => ?_
      split
      · exact .ask_bind (fun _ => by simp) fun _ => .pure _
      · exact .pure _
  intro z hz
  have hc := (honly.interruptible (fun _ => by simp)).dialog h z hz
  unfold sessionUri
  split
  · exact absurd rfl (hc _)
  · rfl

/-- From the answer to the initial request on. -/
theorem cleans_opened {uri bearer name : String} {res : Result HttpResponse}
    (h : (interrupted (orReturn res fun resp =>
      orReturn (GoogleDriveUploader.sessionOf resp) fun uri => G.uploadChunks path total uri)).Dialog log x)
    (huri : uri ∈ List.filterMap sessionUri
      (⟨.request (.resumableInit bearer name parent total), res⟩ :: log)) :
    Cleans uri log x ↔ ∀ y ∈ log, Conclusive y := by
  cases res with
  | error err =>
    obtain ⟨rfl, -⟩ := h.pure_inv
    cases huri
  | ok resp =>
    dsimp only [orReturn] at h
    cases hs : GoogleDriveUploader.sessionOf resp with
    | error err =>
      rw [hs] at h
      obtain ⟨rfl, -⟩ := h.pure_inv
      simp [sessionUri, hs] at huri
    | ok opened =>
      rw [hs] at h
      have hnone := List.filterMap_eq_nil_iff.2 (chunks_no_session h)
      have hsome : sessionUri ⟨.request (.resumableInit bearer name parent total), .ok resp⟩ = some opened := by
        simp [sessionUri, hs]
      rw [List.filterMap_cons_some hsome, hnone, List.mem_singleton] at huri
      rw [huri]
      exact cleans_uploadChunks h

/-- A run of `upload_resumable` that has obtained a session URI returns a value or aborts the session,
exactly if no `co_await` of it finds its caller cancelled and its workers, where it comes to them,
record a failure or take a file id. -/
theorem session_aborted_iff {uri : String} (h : (interrupted (G.uploadResumable path parent)).Dialog log x)
    (huri : uri ∈ log.filterMap sessionUri) : Cleans uri log x ↔ ∀ y ∈ log, Conclusive y := by
  obtain ⟨size, log₁, rfl, h₁⟩ := h.interruptible_free_inv rfl
  cases size with
  | error what =>
    obtain ⟨rfl, -⟩ := h₁.pure_inv
    simp [sessionUri] at huri
  | ok total =>
    rcases h₁.interruptible_bind_inv with ⟨h₂, -⟩ | ⟨log₂, log₃, bearer, rfl, h₂, h₃⟩
    · obtain ⟨y, hy, hsession⟩ := List.mem_filterMap.1 huri
      rcases List.mem_cons.1 hy with rfl | hy
      · cases hsession
      · rw [bearer_no_session h₂ y hy] at hsession
        cases hsession
    have hnone := List.filterMap_eq_nil_iff.2 (bearer_no_session h₂)
    rw [List.filterMap_cons_none rfl, List.filterMap_append, hnone, List.nil_append] at huri
    refine cleans_cons trivial (fun _ => by simp) (cleans_append (bearer_conclusive h₂) ?_ ?_)
    · rintro y hy res rfl
      rcases bearer_calls h₂ _ hy with hc | hc
      · exact hc.elim
      · cases hc
    cases bearer with
    | error err =>
      obtain ⟨rfl, -⟩ := h₃.pure_inv
      cases huri
    | ok bearer =>
      rcases h₃.interruptible_ask_inv rfl with ⟨stopped, -, rfl, -⟩ | ⟨stopped, res, log₄, hstop, rfl, h₄⟩
      · cases huri
      refine cleans_cons hstop (fun _ => by simp) (cleans_cons trivial (fun _ => by simp) ?_)
      exact cleans_opened h₄ huri

def oneWorker : GoogleDriveUploader :=
  ⟨true, ⟨fun _ => .error "parse error", fun _ => 0⟩, "parent", 8388608, 1, 1, 0⟩

/-- The session `s` is opened for the file `/f`. -/
def opens : DriveLog :=
  [⟨.fileSize "/f", .ok 5242881⟩, ⟨.cancellationState, false⟩, ⟨.cachedBearer, some "Bearer t"⟩,
    ⟨.cancellationState, false⟩,
    ⟨.request (.resumableInit "Bearer t" "f" "parent" 5242881), .ok ⟨200, "", [("location", "s")]⟩⟩]

theorem mem_sessions_opens (log : DriveLog) : "s" ∈ (opens ++ log).filterMap sessionUri := by
  have hopens : opens.filterMap sessionUri = ["s"] := by decide
  rw [List.filterMap_append, hopens]
  exact List.mem_cons_self

/-- The file cannot be opened any more. -/
theorem session_aborted_unreadable : ∃ log x,
    (interrupted (oneWorker.uploadResumable "/f" "parent")).Dialog log x ∧
    "s" ∈ log.filterMap sessionUri ∧ (¬ ∃ out, x = some (.ok out)) ∧ Aborted "s" log := by
  have hrun : (interrupted (oneWorker.uploadResumable "/f" "parent")).Dialog
      (opens ++ [⟨.probe "/f", none⟩, ⟨.cancellationState, false⟩,
        ⟨.abortSession "s", .ok ⟨204, "", []⟩⟩])
      (some (.error ⟨.io, "gdrive: cannot open /f"⟩)) :=
    .call _ (.call _ (.call _ (.call _ (.call _ (.call _ (.call _ (.call _ (.pure _))))))))
  have hvalue : ¬ ∃ out, some (.error ⟨.io, "gdrive: cannot open /f"⟩ : Result UploadResult) = some (.ok out) := by
    simp
  have huri := mem_sessions_opens [⟨.probe "/f", none⟩, ⟨.cancellationState, false⟩,
    ⟨.abortSession "s", .ok ⟨204, "", []⟩⟩]
  refine ⟨_, _, hrun, huri, hvalue, (session_aborted_iff hrun huri).2 ?_ hvalue⟩
  simp [opens, Conclusive]

def loneChunk : Resumable := ⟨oneWorker.json, "/f", fun _ => 0, 5242881, 8388608, 1, 0⟩

/-- The only PUT is answered with 308, and the worker finds no other chunk. -/
def unfinishedChunk (i : Fin loneChunk.parallelism) : List (PoolEvent loneChunk.parallelism ChunkEvent) :=
  [.env .spawn, .env .startWait, .act i .start, .act i (.run (.opened true)), .act i (.run .run),
    .act i (.run (.cancelState false)), .act i (.run .run), .act i (.run (.read 5242881)),
    .act i (.run (.bearer (.ok "Bearer t"))), .act i (.run (.answer (.ok ⟨308, "", []⟩))),
    .act i (.run .run), .act i (.run .run), .act i (.run .run), .act i (.run .run),
    .act i (.run (.cancelState false)), .act i (.run .run), .act i .exit, .act i .cancel]

theorem exists_unfinished_join : ∃ j : Join (chunkBody loneChunk) loneChunk.parallelism {},
    j.state.shared.body.firstError = none ∧
    j.result = .error ⟨.googleDriveApi, "gdrive: no chunk returned final response"⟩ :=
  ⟨⟨unfinishedChunk ⟨0, by decide⟩, _, .cons trivial rfl (.cons trivial rfl (.cons trivial rfl
    (.cons trivial rfl (.cons trivial rfl (.cons trivial rfl (.cons trivial rfl (.cons trivial rfl
    (.cons trivial rfl (.cons trivial rfl (.cons trivial rfl (.cons trivial rfl (.cons trivial rfl
    (.cons trivial rfl (.cons trivial rfl (.cons trivial rfl (.cons trivial rfl (.cons trivial rfl
    (.nil _)))))))))))))))))), rfl⟩, rfl, rfl⟩

theorem session_left_open : ∃ log x,
    (interrupted (oneWorker.uploadResumable "/f" "parent")).Dialog log x ∧
    "s" ∈ log.filterMap sessionUri ∧ (¬ ∃ out, x = some (.ok out)) ∧ ¬ Aborted "s" log := by
  obtain ⟨j, hnone, hresult⟩ := exists_unfinished_join
  have hend : (interrupted (if j.state.shared.body.firstError.isSome then do
        let _ ← Prog.ask (DriveCall.abortSession "s")
        pure j.result
      else pure j.result)).Dialog [] (some j.result) := by
    rw [hnone]
    exact .pure _
  have hrun : (interrupted (oneWorker.uploadResumable "/f" "parent")).Dialog
      (opens ++ [⟨.probe "/f", some fun _ => 0⟩, ⟨.cancellationState, false⟩,
        ⟨.joinChunks loneChunk, j⟩]) (some j.result) :=
    .call _ (.call _ (.call _ (.call _ (.call _ (.call _ (.call _ (.call _ hend)))))))
  refine ⟨_, _, hrun, mem_sessions_opens _, ?_, ?_⟩
  · simp [hresult]
  · simp [Aborted, opens]

end Cmlb.Upload.GoogleDrive
