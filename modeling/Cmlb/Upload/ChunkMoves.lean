import Cmlb.Upload.Pools

/-!
# The steps of a chunk worker (`upload_resumable`)

`ChunkMove` has everything that a step of `worker_factory` can do, with the guards it has passed.
What `retry` and `conclude` do to the worker does not depend on what the workers share (`retry_cases`,
`conclude_cases`).
-/

namespace Cmlb.Upload.GoogleDrive

/-- The chunk a worker is at. -/
def ChunkPc.index : ChunkPc → Option Nat
  | reading idx | backoff idx _ | bearer idx _ _ | sending idx _ _ => some idx
  | answered idx _ _ _ | routing idx _ | deciding idx _ => some idx
  | opening | checkAbort | checkCancel | claim => none

/-- What a step of a worker can do. -/
inductive ChunkMove (R : Resumable) (sh : ChunkShared) :
    ChunkPc → ChunkEvent → ChunkShared → Option ChunkPc → Prop
  | opened : ChunkMove R sh .opening (.opened true) sh (some .checkAbort)
  | unopened : ChunkMove R sh .opening (.opened false)
      { sh with toQueue := sh.recordError ⟨.io, "gdrive: worker cannot open " ++ R.path⟩ } none
  | aborted (h : sh.abort = true) : ChunkMove R sh .checkAbort .run sh none
  | goesOn (h : sh.abort = false) : ChunkMove R sh .checkAbort .run sh (some .checkCancel)
  | cancelled : ChunkMove R sh .checkCancel (.cancelState true) { sh with toQueue := sh.setAbort } none
  | notCancelled : ChunkMove R sh .checkCancel (.cancelState false) sh (some .claim)
  | exhausted (h : R.plan.length ≤ sh.nextIndex) :
      ChunkMove R sh .claim .run { sh with toQueue := sh.claimed } none
  | claimed (h : sh.nextIndex < R.plan.length) :
      ChunkMove R sh .claim .run { sh with toQueue := sh.claimed } (some (.reading sh.nextIndex))
  | read (idx) : ChunkMove R sh (.reading idx) (.read (R.chunk idx).length) sh
      (some (.bearer idx 0 false))
  | shortRead (idx got) (h : got ≠ (R.chunk idx).length) : ChunkMove R sh (.reading idx) (.read got)
      { sh with toQueue := sh.recordError ⟨.io, "gdrive: worker short read on " ++ R.path⟩ } none
  | abandoned (idx attempt) (h : sh.abort = true) : ChunkMove R sh (.backoff idx attempt) .run sh none
  | retried (idx attempt) (h : sh.abort = false) :
      ChunkMove R sh (.backoff idx attempt) .run sh (some (.bearer idx attempt false))
  | unauthorized (idx attempt refreshed err) : ChunkMove R sh (.bearer idx attempt refreshed)
      (.bearer (.error err)) { sh with toQueue := sh.recordError err } none
  | authorized (idx attempt refreshed token) : ChunkMove R sh (.bearer idx attempt refreshed)
      (.bearer (.ok token)) sh (some (.sending idx attempt refreshed))
  | put (idx attempt refreshed resp) : ChunkMove R sh (.sending idx attempt refreshed)
      (.answer (.ok resp)) { sh with puts := sh.puts ++ [(R.chunk idx, resp)] }
        (some (.answered idx attempt refreshed (.ok resp)))
  | unanswered (idx attempt refreshed err) : ChunkMove R sh (.sending idx attempt refreshed)
      (.answer (.error err)) sh (some (.answered idx attempt refreshed (.error err)))
  | retries (idx attempt refreshed r sh' o) (h : retry R sh idx attempt refreshed r = some (sh', o)) :
      ChunkMove R sh (.answered idx attempt refreshed r) .run sh' o
  | dropped (idx resp) (h : sh.abort = true) : ChunkMove R sh (.routing idx resp) .run sh none
  | routed (idx resp) (h : sh.abort = false) :
      ChunkMove R sh (.routing idx resp) .run sh (some (.deciding idx resp))
  | concludes (idx resp sh' o) (h : conclude R sh resp = some (sh', o)) :
      ChunkMove R sh (.deciding idx resp) .run sh' o
  | threw (pc idx) (h : pc.index = some idx) : ChunkMove R sh pc .threw sh none

variable {R : Resumable} {sh sh' : ChunkShared} {pc : ChunkPc} {e : ChunkEvent} {o : Option ChunkPc}

theorem chunkWorker_move (h : chunkWorker R sh pc e = some (sh', o)) : ChunkMove R sh pc e sh' o := by
  unfold chunkWorker at h
  split at h
  · split at h <;> rename_i hopened
    · cases h
      rw [hopened]
      exact .opened
    · cases h
      rw [Bool.eq_false_iff.2 hopened]
      exact .unopened
  · cases h
    split <;> rename_i habort
    · exact .aborted habort
    · exact .goesOn (Bool.eq_false_iff.2 habort)
  · split at h <;> rename_i hc
    · cases h
      rw [hc]
      exact .cancelled
    · cases h
      rw [Bool.eq_false_iff.2 hc]
      exact .notCancelled
  · dsimp only at h
    split at h
    · cases h
      split
      · exact .exhausted ‹_›
      · exact .claimed (Nat.lt_of_not_le ‹_›)
    · cases h
  · split at h <;> rename_i hgot
    · cases h
      rw [hgot]
      exact .read _
    · cases h
      exact .shortRead _ _ hgot
  · cases h
    split <;> rename_i habort
    · exact .abandoned _ _ habort
    · exact .retried _ _ (Bool.eq_false_iff.2 habort)
  · cases h
    exact .unauthorized _ _ _ _
  · cases h
    exact .authorized _ _ _ _
  · rename_i r
    cases r with
    | error err =>
      cases h
      exact .unanswered _ _ _ err
    | ok resp =>
      cases h
      exact .put _ _ _ resp
  · exact .retries _ _ _ _ _ _ h
  · cases h
    split <;> rename_i habort
    · exact .dropped _ _ habort
    · exact .routed _ _ (Bool.eq_false_iff.2 habort)
  · exact .concludes _ _ _ _ h
  · cases h
    exact .threw _ _ rfl
  · cases h
    exact .threw _ _ rfl
  · cases h
    exact .threw _ _ rfl
  · cases h

/-- The end of a round of the retry loop: the worker fails, or goes on with its chunk. -/
theorem retry_cases (R : Resumable) (idx attempt : Nat) (refreshed : Bool) (r : Result HttpResponse) :
    (∃ err, ∀ sh, retry R sh idx attempt refreshed r = bail sh err) ∨
      ∃ pc, pc.index = some idx ∧ ∀ sh, retry R sh idx attempt refreshed r = some (sh, some pc) := by
  cases r with
  | error err =>
    by_cases hagain : err.code ≠ .cancelled ∧ attempt < R.retries
    · exact .inr ⟨_, rfl, fun _ => if_pos hagain⟩
    · exact .inl ⟨_, fun _ => if_neg hagain⟩
  | ok resp =>
    by_cases hexpired : resp.statusCode = 401 ∧ refreshed = false
    · exact .inr ⟨_, rfl, fun _ => if_pos hexpired⟩
    by_cases hbusy : resp.statusCode = 429 ∨ 500 ≤ resp.statusCode ∧ resp.statusCode < 600
    · by_cases hagain : attempt < R.retries
      · exact .inr ⟨_, rfl, fun _ => (if_neg hexpired).trans ((if_pos hbusy).trans (if_pos hagain))⟩
      · exact .inl ⟨_, fun _ => (if_neg hexpired).trans ((if_pos hbusy).trans (if_neg hagain))⟩
    · exact .inr ⟨_, rfl, fun _ => (if_neg hexpired).trans (if_neg hbusy)⟩

/-- The end of a chunk: the worker fails, or goes on, and the last one takes the file id. -/
theorem conclude_cases (R : Resumable) (resp : HttpResponse) :
    (∃ err, ∀ sh, conclude R sh resp = bail sh err) ∨
      (∃ id, ∀ sh, conclude R sh resp = some ({ sh with fileId := id }, some .checkAbort)) ∨
      ∀ sh, conclude R sh resp = some (sh, some .checkAbort) := by
  by_cases hfinal : resp.statusCode = 200 ∨ resp.statusCode = 201
  · cases hid : finalFileId R.json resp.body with
    | error what => exact .inl ⟨_, fun _ => by rw [conclude, if_pos hfinal, hid]⟩
    | ok id => exact .inr (.inl ⟨id, fun _ => by rw [conclude, if_pos hfinal, hid]⟩)
  by_cases hmore : resp.statusCode ≠ 308
  · exact .inl ⟨_, fun _ => (if_neg hfinal).trans (if_pos hmore)⟩
  · exact .inr (.inr fun _ => (if_neg hfinal).trans (if_neg hmore))

end Cmlb.Upload.GoogleDrive
