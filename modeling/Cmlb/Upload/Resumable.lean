import Mathlib.Tactic.Ring
import Cmlb.Lib.ClaimCount
import Cmlb.Upload.ChunkMoves

/-!
# Resumable uploads against a sequential session

Drive's resumable session stores a chunk when it starts at the first byte not yet stored, answers
308 while it is incomplete and 200 with the file id once it has all bytes. The workers of
`upload_resumable` PUT their chunks in any order and take every 308 as acceptance, so a chunk that
comes too early is dropped for good. Where each PUT comes in its turn, which with a single worker it
always does, and the join timer is cancelled only once the parent waits, the upload returns the file
id after boundedly many steps and the session has the file (`upload_completes`). A run that nothing
disturbs returns a value in no other case (`value_iff_in_turn`).
-/

namespace Cmlb.Upload.GoogleDrive

open WorkerPool

/-- The bytes a session has stored. -/
structure Store where
  length : Nat := 0
  byte : Nat → UInt8 := fun _ => 0

namespace Resumable

variable (R : Resumable)

/-- The session's part of a PUT. The body is `cp.length` bytes, the `j`-th being `file (cp.offset + j)`. -/
def put (st : Store) (cp : ChunkPlan) : Store :=
  if cp.offset = st.length then
    ⟨st.length + cp.length,
      fun i => if i < st.length then st.byte i else R.file (cp.offset + (i - st.length))⟩
  else st

def stored (puts : List (ChunkPlan × HttpResponse)) : Store := (puts.map Prod.fst).foldl R.put {}

/-! ### The plan -/

theorem chunkBytes_pos : 0 < R.chunkBytes := by
  unfold chunkBytes kResumableAlignment
  omega

variable {R}

theorem planFrom_getElem? (fuel off k : Nat) (h : R.total ≤ off + fuel) :
    (R.planFrom fuel off)[k]? = if off + k * R.chunkBytes < R.total then
      some ⟨off + k * R.chunkBytes, min R.chunkBytes (R.total - (off + k * R.chunkBytes))⟩ else none := by
  induction fuel generalizing off k with
  | zero =>
    rw [if_neg (by omega)]
    rfl
  | succ fuel ih =>
    have hc := R.chunkBytes_pos
    unfold planFrom
    by_cases hoff : off < R.total
    · rw [if_pos hoff]
      cases k with
      | zero => simp [hoff]
      | succ k =>
        rw [List.getElem?_cons_succ, ih (off + R.chunkBytes) k (by omega)]
        have hk : off + R.chunkBytes + k * R.chunkBytes = off + (k + 1) * R.chunkBytes := by ring
        rw [hk]
    · rw [if_neg hoff, if_neg (by omega)]
      rfl

theorem lt_plan_length {k : Nat} : k < R.plan.length ↔ k * R.chunkBytes < R.total := by
  have hk := planFrom_getElem? (R := R) R.total 0 k (by omega)
  rw [Nat.zero_add] at hk
  constructor
  · intro h
    by_contra hn
    rw [if_neg hn] at hk
    exact absurd (List.getElem?_eq_none_iff.1 hk) (Nat.not_le_of_lt h)
  · intro h
    by_contra hn
    rw [if_pos h] at hk
    cases (List.getElem?_eq_none (Nat.le_of_not_lt hn)).symm.trans hk

theorem chunk_eq {k : Nat} (h : k < R.plan.length) :
    R.chunk k = ⟨k * R.chunkBytes, min R.chunkBytes (R.total - k * R.chunkBytes)⟩ := by
  have hk := planFrom_getElem? (R := R) R.total 0 k (by omega)
  rw [Nat.zero_add, if_pos (lt_plan_length.1 h)] at hk
  unfold chunk
  rw [List.getD_eq_getElem?_getD, show R.plan[k]? = _ from hk]
  rfl

/-! ### The store after the first chunks of the plan -/

/-- The end of the first `m` chunks. -/
def covered (R : Resumable) (m : Nat) : Nat := min (m * R.chunkBytes) R.total

theorem covered_of_lt {m : Nat} (h : m < R.plan.length) : R.covered m = m * R.chunkBytes :=
  Nat.min_eq_left (lt_plan_length.1 h).le

theorem covered_of_le {m : Nat} (h : R.plan.length ≤ m) : R.covered m = R.total := by
  refine Nat.min_eq_right ?_
  by_contra hn
  exact absurd (lt_plan_length.2 (Nat.lt_of_not_le hn)) (Nat.not_lt_of_le h)

theorem covered_lt {m : Nat} (h : m < R.plan.length) : R.covered m < R.total := by
  rw [covered_of_lt h]
  exact lt_plan_length.1 h

theorem covered_succ {m : Nat} (h : m < R.plan.length) :
    R.covered (m + 1) = R.covered m + (R.chunk m).length := by
  have hlt := lt_plan_length.1 h
  rw [covered_of_lt h, chunk_eq h]
  unfold covered
  rw [Nat.add_mul, Nat.one_mul]
  simp only
  omega

/-- A chunk starts where the first `m` chunks end only if it is the next one. -/
theorem offset_eq_covered {m idx : Nat} (hm : m ≤ R.plan.length) (h : idx < R.plan.length) :
    (R.chunk idx).offset = R.covered m ↔ idx = m := by
  rw [chunk_eq h]
  constructor
  · intro heq
    rcases Nat.lt_or_eq_of_le hm with hm | rfl
    · rw [covered_of_lt hm] at heq
      exact Nat.eq_of_mul_eq_mul_right R.chunkBytes_pos heq
    · rw [covered_of_le (Nat.le_refl _)] at heq
      exact absurd heq (lt_plan_length.1 h).ne
  · rintro rfl
    exact (covered_of_lt h).symm

theorem foldl_put_chunks (m : Nat) (hm : m ≤ R.plan.length) :
    let st := ((List.range m).map R.chunk).foldl R.put {}
    st.length = R.covered m ∧ ∀ i < R.covered m, st.byte i = R.file i := by
  induction m with
  | zero => simp [covered]
  | succ m ih =>
    obtain ⟨hlen, hbyte⟩ := ih (by omega)
    simp only [List.range_succ, List.map_append, List.map_cons, List.map_nil, List.foldl_append,
      List.foldl_cons, List.foldl_nil] at hlen hbyte ⊢
    generalize ((List.range m).map R.chunk).foldl R.put {} = st at hlen hbyte ⊢
    have hoff : (R.chunk m).offset = st.length := by
      rw [hlen]
      exact (offset_eq_covered (by omega) hm).2 rfl
    unfold put
    rw [if_pos hoff, covered_succ hm]
    refine ⟨by rw [hlen], fun i hi => ?_⟩
    by_cases hi' : i < st.length
    · simp only [if_pos hi']
      exact hbyte i (hlen ▸ hi')
    · simp only [if_neg hi', hoff]
      congr 1
      omega

end Resumable

/-! ### The session -/

/-- What the session answers to a PUT after which it has `st`: 308 while it is incomplete, 200 with
the id `fid` once it has all bytes. -/
def SessionAnswer (R : Resumable) (fid : String) (st : Store) (resp : HttpResponse) : Prop :=
  if R.total ≤ st.length then resp.statusCode = 200 ∧ finalFileId R.json resp.body = .ok fid
  else resp.statusCode = 308

/-- The file can be read, the bearer token is there, nobody cancels, and every PUT is answered by the
session. -/
def Faultless (R : Resumable) (fid : String) (sh : ChunkShared) : ChunkPc → ChunkEvent → Prop
  | .opening, .opened ok => ok = true
  | .checkCancel, .cancelState cancelled => cancelled = false
  | .reading idx, .read got => got = (R.chunk idx).length
  | .sending idx _ _, .answer (.ok resp) =>
    SessionAnswer R fid (R.put (R.stored sh.puts) (R.chunk idx)) resp
  | _, .bearer (.error _) | _, .answer (.error _) | _, .threw => False
  | _, _ => True

/-- There is a single worker, or the PUT starts at the first byte the session has not stored. -/
def InTurn (R : Resumable) (sh : ChunkShared) : ChunkPc → ChunkEvent → Prop
  | .sending idx _ _, .answer _ =>
    R.parallelism = 1 ∨ (R.chunk idx).offset = (R.stored sh.puts).length
  | _, _ => True

def InTurnSession (R : Resumable) (fid : String) (sh : ChunkShared) (pc : ChunkPc) (e : ChunkEvent) :
    Prop :=
  Faultless R fid sh pc e ∧ InTurn R sh pc e

/-- The answers a session gives. -/
def Accepted (R : Resumable) (fid : String) (resp : HttpResponse) : Prop :=
  resp.statusCode = 308 ∨ resp.statusCode = 200 ∧ finalFileId R.json resp.body = .ok fid

namespace SessionAnswer
variable {R : Resumable} {fid : String} {st : Store} {resp : HttpResponse}

theorem accepted (h : SessionAnswer R fid st resp) : Accepted R fid resp := by
  unfold SessionAnswer at h
  split at h
  · exact .inr h
  · exact .inl h

theorem complete (h : SessionAnswer R fid st resp) (hst : R.total ≤ st.length) :
    resp.statusCode = 200 := by
  unfold SessionAnswer at h
  rw [if_pos hst] at h
  exact h.1

theorem incomplete (h : SessionAnswer R fid st resp) (hst : st.length < R.total) :
    resp.statusCode = 308 := by
  unfold SessionAnswer at h
  rwa [if_neg (Nat.not_le_of_lt hst)] at h

end SessionAnswer

namespace ChunkPc

/-- The chunk a worker has claimed and not yet sent. -/
def held : ChunkPc → Option Nat
  | reading idx | backoff idx _ | bearer idx _ _ | sending idx _ _ => some idx
  | _ => none

/-- The answer a worker has got and not yet acted on. -/
def answer : ChunkPc → Option HttpResponse
  | answered _ _ _ (.ok resp) | routing _ resp | deciding _ resp => some resp
  | _ => none

/-- Not in a retry, and an answer is one of the session's. -/
def Ok (R : Resumable) (fid : String) : ChunkPc → Prop
  | backoff _ _ | answered _ _ _ (.error _) => False
  | answered _ _ _ (.ok resp) | routing _ resp | deciding _ resp => Accepted R fid resp
  | _ => True

end ChunkPc

variable {R : Resumable} {fid : String} {sh sh' : ChunkShared} {pc : ChunkPc} {e : ChunkEvent}
  {o : Option ChunkPc}

/-- What a step of a worker does while nothing fails. -/
inductive ChunkStep (R : Resumable) (fid : String) (sh : ChunkShared) :
    ChunkPc → ChunkEvent → ChunkShared → Option ChunkPc → Prop
  | opened : ChunkStep R fid sh .opening (.opened true) sh (some .checkAbort)
  | goesOn : ChunkStep R fid sh .checkAbort .run sh (some .checkCancel)
  | notCancelled : ChunkStep R fid sh .checkCancel (.cancelState false) sh (some .claim)
  | exhausted (h : R.plan.length ≤ sh.nextIndex) :
      ChunkStep R fid sh .claim .run { sh with toQueue := sh.claimed } none
  | claimed (h : sh.nextIndex < R.plan.length) :
      ChunkStep R fid sh .claim .run { sh with toQueue := sh.claimed } (some (.reading sh.nextIndex))
  | read (idx) : ChunkStep R fid sh (.reading idx) (.read (R.chunk idx).length) sh
      (some (.bearer idx 0 false))
  | authorized (idx attempt refreshed token) : ChunkStep R fid sh (.bearer idx attempt refreshed)
      (.bearer (.ok token)) sh (some (.sending idx attempt refreshed))
  | put (idx attempt refreshed resp)
      (hresp : SessionAnswer R fid (R.put (R.stored sh.puts) (R.chunk idx)) resp) :
      ChunkStep R fid sh (.sending idx attempt refreshed) (.answer (.ok resp))
        { sh with puts := sh.puts ++ [(R.chunk idx, resp)] }
        (some (.answered idx attempt refreshed (.ok resp)))
  | kept (idx attempt refreshed resp) : ChunkStep R fid sh (.answered idx attempt refreshed (.ok resp))
      .run sh (some (.routing idx resp))
  | routed (idx resp) : ChunkStep R fid sh (.routing idx resp) .run sh (some (.deciding idx resp))
  | complete (idx resp) (h : resp.statusCode = 200) :
      ChunkStep R fid sh (.deciding idx resp) .run { sh with fileId := fid } (some .checkAbort)
  | incomplete (idx resp) (h : resp.statusCode = 308) :
      ChunkStep R fid sh (.deciding idx resp) .run sh (some .checkAbort)

theorem retry_accepted {idx attempt : Nat} {refreshed : Bool} {resp : HttpResponse}
    (h : Accepted R fid resp) :
    retry R sh idx attempt refreshed (.ok resp) = some (sh, some (.routing idx resp)) := by
  unfold retry
  rcases h with h | ⟨h, -⟩ <;> simp [h]

theorem conclude_accepted (sh : ChunkShared) {resp : HttpResponse} (h : Accepted R fid resp) :
    resp.statusCode = 200 ∧ conclude R sh resp = some ({ sh with fileId := fid }, some .checkAbort) ∨
    resp.statusCode = 308 ∧ conclude R sh resp = some (sh, some .checkAbort) := by
  unfold conclude
  rcases h with h | ⟨h, hid⟩
  · exact .inr ⟨h, by simp [h]⟩
  · exact .inl ⟨h, by simp [h, hid]⟩

theorem chunkWorker_inv (hf : Faultless R fid sh pc e) (hok : pc.Ok R fid)
    (hab : sh.abort = false) (h : chunkWorker R sh pc e = some (sh', o)) :
    ChunkStep R fid sh pc e sh' o := by
  cases chunkWorker_move h with
  | unopened | cancelled | unauthorized | unanswered => cases hf
  | threw => cases pc <;> cases hf
  | shortRead _ _ hgot => exact absurd hf hgot
  | abandoned | retried => cases hok
  | aborted habort | dropped _ _ habort =>
    rw [hab] at habort
    cases habort
  | opened => exact .opened
  | goesOn => exact .goesOn
  | notCancelled => exact .notCancelled
  | exhausted hle => exact .exhausted hle
  | claimed hlt => exact .claimed hlt
  | read => exact .read _
  | authorized => exact .authorized _ _ _ _
  | put _ _ _ resp => exact .put _ _ _ resp hf
  | routed => exact .routed _ _
  | retries idx attempt refreshed r _ _ hretry =>
    cases r with
    | error err => cases hok
    | ok resp =>
      rw [retry_accepted hok] at hretry
      cases hretry
      exact .kept idx attempt refreshed resp
  | concludes _ _ _ _ hconclude =>
    rcases conclude_accepted sh hok with ⟨hcode, hc⟩ | ⟨hcode, hc⟩
    · rw [hc] at hconclude
      cases hconclude
      exact .complete _ _ hcode
    · rw [hc] at hconclude
      cases hconclude
      exact .incomplete _ _ hcode

/-! ### The chunks, in turn -/

/-- One if the worker has claimed the chunk `k` and not yet sent it. -/
def holds (k : Nat) : WorkerStage ChunkPc → Nat
  | .running pc => if pc.held = some k then 1 else 0
  | _ => 0

def CarriesFinal (st : WorkerStage ChunkPc) : Prop :=
  ∃ pc resp, st = .running pc ∧ pc.answer = some resp ∧ resp.statusCode = 200

theorem carriesFinal_running {pc : ChunkPc} :
    CarriesFinal (.running pc) ↔ ∃ resp, pc.answer = some resp ∧ resp.statusCode = 200 := by
  constructor
  · rintro ⟨q, resp, hq, h⟩
    cases hq
    exact ⟨resp, h⟩
  · rintro ⟨resp, h⟩
    exact ⟨pc, resp, rfl, h⟩

variable {n : Nat} {v : Fin n → WorkerStage ChunkPc} {i : Fin n}

/-- One if the chunk `k` is claimed and not yet sent. -/
def due (R : Resumable) (sh : ChunkShared) (k : Nat) : Nat :=
  if sh.puts.length ≤ k ∧ k < sh.nextIndex ∧ k < R.plan.length then 1 else 0

/-- The chunks sent are the first of the plan, each further chunk that is claimed is with one worker,
and the id is there or on its way exactly when all are sent. -/
structure ChunkInv (R : Resumable) (fid : String) (sh : ChunkShared) (v : Fin n → WorkerStage ChunkPc) :
    Prop where
  firstError : sh.firstError = none
  abort : sh.abort = false
  sent : sh.puts.map Prod.fst = (List.range sh.puts.length).map R.chunk
  sent_le : sh.puts.length ≤ R.plan.length
  sent_claimed : sh.puts.length ≤ sh.nextIndex
  held : ∀ k, ∑ i, holds k (v i) = due R sh k
  claims : sh.nextIndex ≤ R.plan.length + ∑ i, hasLeft (v i)
  left : ∀ i, v i = .left → R.plan.length ≤ sh.nextIndex
  ok : ∀ i pc, v i = .running pc → pc.Ok R fid
  early : sh.puts.length < R.plan.length → sh.fileId = "" ∧ ∀ i, ¬ CarriesFinal (v i)
  final : sh.puts.length = R.plan.length → sh.fileId = fid ∨ ∃ i, CarriesFinal (v i)

namespace ChunkInv

theorem stored_length (h : ChunkInv R fid sh v) : (R.stored sh.puts).length = R.covered sh.puts.length := by
  unfold Resumable.stored
  rw [h.sent]
  exact (Resumable.foldl_put_chunks _ h.sent_le).1

/-- A chunk that is held is claimed and not yet sent. -/
theorem of_held (h : ChunkInv R fid sh v) {pc : ChunkPc} {k : Nat} (hv : v i = .running pc)
    (hk : pc.held = some k) : sh.puts.length ≤ k ∧ k < sh.nextIndex ∧ k < R.plan.length := by
  by_contra hn
  have hsum := h.held k
  rw [due, if_neg hn, Finset.sum_eq_zero_iff] at hsum
  have := hsum i (Finset.mem_univ i)
  simp [hv, holds, hk] at this

theorem held_unique (h : ChunkInv R fid sh v) {j : Fin n} {pc q : ChunkPc} {k : Nat}
    (hi : v i = .running pc) (hpc : pc.held = some k) (hj : v j = .running q) (hq : q.held = some k) :
    j = i := by
  by_contra hne
  have hsum := sum_update (holds k) v i .left
  have hone : holds k (v i) = 1 := by simp [hi, holds, hpc]
  have hleft : holds k .left = 0 := rfl
  have hdue : due R sh k ≤ 1 := by
    unfold due
    split <;> omega
  have hmem : holds k (Function.update v i .left j) ≤ ∑ l, holds k (Function.update v i .left l) :=
    Finset.single_le_sum (f := fun l => holds k (Function.update v i .left l))
      (fun _ _ => Nat.zero_le _) (Finset.mem_univ j)
  have hother : holds k (Function.update v i .left j) = 1 := by
    rw [Function.update_of_ne hne, hj, holds, if_pos hq]
  rw [h.held k] at hsum
  omega

/-- The next chunk to be stored is with some worker as long as a chunk is held. -/
theorem next_held (h : ChunkInv R fid sh v) {k : Nat}
    (hk : sh.puts.length ≤ k ∧ k < sh.nextIndex ∧ k < R.plan.length) :
    ∃ j pc, v j = .running pc ∧ pc.held = some sh.puts.length := by
  have hsum := h.held sh.puts.length
  rw [due, if_pos ⟨Nat.le_refl _, by omega, by omega⟩] at hsum
  obtain ⟨j, -, hj⟩ := Finset.exists_ne_zero_of_sum_ne_zero (by rw [hsum]; exact Nat.one_ne_zero)
  cases hv : v j with
  | running pc =>
    refine ⟨j, pc, hv, ?_⟩
    by_contra hne
    simp [hv, holds, hne] at hj
  | _ => simp [hv, holds] at hj

/-- A PUT in its turn sends the next chunk of the plan. -/
theorem turn {v : Fin R.parallelism → WorkerStage ChunkPc} {i : Fin R.parallelism} {idx attempt : Nat}
    {refreshed : Bool} (h : ChunkInv R fid sh v) (hv : v i = .running (.sending idx attempt refreshed))
    (hturn : R.parallelism = 1 ∨ (R.chunk idx).offset = (R.stored sh.puts).length) :
    idx = sh.puts.length ∧ sh.puts.length < R.plan.length := by
  have hk := h.of_held hv rfl
  refine ⟨?_, by omega⟩
  rcases hturn with hone | hoff
  · obtain ⟨j, pc, hj, hpc⟩ := h.next_held hk
    have : Subsingleton (Fin R.parallelism) := by rw [hone]; infer_instance
    cases Subsingleton.elim i j
    cases hv.symm.trans hj
    exact Option.some.inj hpc
  · rw [h.stored_length] at hoff
    exact (Resumable.offset_eq_covered h.sent_le hk.2.2).1 hoff

/-- A step of the worker `i`, from what it does to the chunks in its hands. -/
theorem of_update (h : ChunkInv R fid sh v) {old st : WorkerStage ChunkPc} (hv : v i = old)
    (hold : hasLeft old = 0) (herr : sh'.firstError = none) (habort : sh'.abort = false)
    (hsent : sh'.puts.map Prod.fst = (List.range sh'.puts.length).map R.chunk)
    (hsent_le : sh'.puts.length ≤ R.plan.length) (hsent_claimed : sh'.puts.length ≤ sh'.nextIndex)
    (hdue : ∀ k, due R sh' k + holds k old = due R sh k + holds k st)
    (hmono : sh.nextIndex ≤ sh'.nextIndex)
    (hclaims : sh'.nextIndex ≤ R.plan.length ∨ sh'.nextIndex ≤ sh.nextIndex + hasLeft st)
    (hleft : st = .left → R.plan.length ≤ sh'.nextIndex) (hok : ∀ q, st = .running q → q.Ok R fid)
    (hearly : sh'.puts.length < R.plan.length →
      sh.puts.length < R.plan.length ∧ sh'.fileId = sh.fileId ∧ ¬ CarriesFinal st)
    (hfinal : sh'.puts.length = R.plan.length → sh'.fileId = fid ∨ CarriesFinal st ∨
      sh.puts.length = R.plan.length ∧ sh'.fileId = sh.fileId ∧ ¬ CarriesFinal old) :
    ChunkInv R fid sh' (Function.update v i st) where
  firstError := herr
  abort := habort
  sent := hsent
  sent_le := hsent_le
  sent_claimed := hsent_claimed
  held k := by
    have hsum := sum_update (holds k) v i st
    have hk := h.held k
    have hk' := hdue k
    rw [hv] at hsum
    omega
  claims := by
    have hsum := sum_update hasLeft v i st
    have hle := h.claims
    rw [hv, hold] at hsum
    omega
  left j hj := by
    rcases eq_of_update_eq hj with ⟨-, hst⟩ | ⟨-, hj⟩
    · exact hleft hst
    · exact (h.left j hj).trans hmono
  ok j q hj := by
    rcases eq_of_update_eq hj with ⟨-, hst⟩ | ⟨-, hj⟩
    · exact hok q hst
    · exact h.ok j q hj
  early hlt := by
    obtain ⟨hlt, hid, hst⟩ := hearly hlt
    obtain ⟨hnone, hno⟩ := h.early hlt
    refine ⟨hid.trans hnone, fun j hj => ?_⟩
    rcases eq_of_update_eq (rfl : Function.update v i st j = _) with ⟨-, heq⟩ | ⟨-, heq⟩
    · exact hst (heq ▸ hj)
    · exact hno j (heq ▸ hj)
  final hm := by
    rcases hfinal hm with hid | hst | ⟨hm', hid, hpc⟩
    · exact .inl hid
    · exact .inr ⟨i, by rwa [Function.update_self]⟩
    · rw [hid]
      refine (h.final hm').imp id ?_
      rintro ⟨j, hj⟩
      have hji : j ≠ i := by
        rintro rfl
        exact hpc (hv ▸ hj)
      exact ⟨j, by rwa [Function.update_of_ne hji]⟩

/-- A worker moves on and the shared state stays. -/
theorem move (h : ChunkInv R fid sh v) {pc pc' : ChunkPc} (hv : v i = .running pc)
    (hheld : pc'.held = pc.held) (hok : pc'.Ok R fid)
    (hfinal : CarriesFinal (.running pc') ↔ CarriesFinal (.running pc)) :
    ChunkInv R fid sh (Function.update v i (.running pc')) := by
  refine h.of_update hv rfl h.firstError h.abort h.sent h.sent_le h.sent_claimed (fun k => ?_)
    (Nat.le_refl _) (.inr (Nat.le_refl _)) (fun h => by cases h) (fun q hq => ?_)
    (fun hlt => ⟨hlt, rfl, fun hc => ?_⟩) fun hm => ?_
  · rw [holds, holds, hheld]
  · cases hq
    exact hok
  · exact (h.early hlt).2 i (hv ▸ hfinal.1 hc)
  · by_cases hc : CarriesFinal (.running pc)
    · exact .inr (.inl (hfinal.2 hc))
    · exact .inr (.inr ⟨hm, rfl, hc⟩)

theorem exhausted (h : ChunkInv R fid sh v) (hv : v i = .running .claim)
    (hn : R.plan.length ≤ sh.nextIndex) :
    ChunkInv R fid { sh with toQueue := sh.claimed } (Function.update v i .left) := by
  refine h.of_update hv rfl h.firstError h.abort h.sent h.sent_le (Nat.le_succ_of_le h.sent_claimed)
    (fun k => ?_) (Nat.le_succ _) (.inr (Nat.le_refl _)) (fun _ => Nat.le_succ_of_le hn)
    (fun q hq => by cases hq) (fun hlt => ⟨hlt, rfl, ?_⟩) fun hm => .inr (.inr ⟨hm, rfl, ?_⟩)
  · have hdue : due R { sh with toQueue := sh.claimed } k = due R sh k := by
      unfold due Queue.claimed
      refine if_congr ?_ rfl rfl
      simp only
      omega
    rw [hdue]
    rfl
  · rintro ⟨pc, resp, hpc, -⟩
    cases hpc
  · simp [carriesFinal_running, ChunkPc.answer]

theorem claimed (h : ChunkInv R fid sh v) (hv : v i = .running .claim)
    (hn : sh.nextIndex < R.plan.length) :
    ChunkInv R fid { sh with toQueue := sh.claimed }
      (Function.update v i (.running (.reading sh.nextIndex))) := by
  refine h.of_update hv rfl h.firstError h.abort h.sent h.sent_le (Nat.le_succ_of_le h.sent_claimed)
    (fun k => ?_) (Nat.le_succ _) (.inl hn) (fun h => by cases h) (fun q hq => ?_)
    (fun hlt => ⟨hlt, rfl, ?_⟩) fun hm => .inr (.inr ⟨hm, rfl, ?_⟩)
  · have hle := h.sent_claimed
    simp only [due, holds, ChunkPc.held, Queue.claimed, Option.some.injEq]
    grind
  · cases hq
    trivial
  · simp [carriesFinal_running, ChunkPc.answer]
  · simp [carriesFinal_running, ChunkPc.answer]

/-- What the session has after the PUT of the next chunk. -/
theorem put_length (h : ChunkInv R fid sh v) (hlt : sh.puts.length < R.plan.length) :
    (R.put (R.stored sh.puts) (R.chunk sh.puts.length)).length = R.covered (sh.puts.length + 1) := by
  have hoff : (R.chunk sh.puts.length).offset = (R.stored sh.puts).length := by
    rw [h.stored_length]
    exact (Resumable.offset_eq_covered h.sent_le hlt).2 rfl
  unfold Resumable.put
  rw [if_pos hoff, Resumable.covered_succ hlt, ← h.stored_length]

theorem put {idx attempt : Nat} {refreshed : Bool} {resp : HttpResponse} (h : ChunkInv R fid sh v)
    (hv : v i = .running (.sending idx attempt refreshed)) (hidx : idx = sh.puts.length)
    (hresp : SessionAnswer R fid (R.put (R.stored sh.puts) (R.chunk idx)) resp) :
    ChunkInv R fid { sh with puts := sh.puts ++ [(R.chunk idx, resp)] }
      (Function.update v i (.running (.answered idx attempt refreshed (.ok resp)))) := by
  have hk := h.of_held hv rfl
  have hlen : (sh.puts ++ [(R.chunk idx, resp)]).length = sh.puts.length + 1 := List.length_append ..
  subst hidx
  refine h.of_update hv rfl h.firstError h.abort ?_ (hlen ▸ hk.2.2) (hlen ▸ hk.2.1) (fun k => ?_)
    (Nat.le_refl _) (.inr (Nat.le_refl _)) (fun h => by cases h) (fun q hq => ?_)
    (fun hlt => ⟨hk.2.2, rfl, ?_⟩) fun hm => .inr (.inl ?_)
  · simp [List.range_succ, h.sent]
  · simp only [due, holds, ChunkPc.held, List.length_append, List.length_singleton, Option.some.injEq]
    grind
  · cases hq
    exact hresp.accepted
  · -- more is to come, and the session says so
    have hcode := hresp.incomplete (h.put_length hk.2.2 ▸ Resumable.covered_lt (by simpa using hlt))
    simp [carriesFinal_running, ChunkPc.answer, hcode]
  · rw [carriesFinal_running]
    refine ⟨resp, rfl, hresp.complete ?_⟩
    rw [h.put_length hk.2.2, Resumable.covered_of_le (by simpa using hm.ge)]

theorem complete {idx : Nat} {resp : HttpResponse} (h : ChunkInv R fid sh v)
    (hv : v i = .running (.deciding idx resp)) (hcode : resp.statusCode = 200) :
    ChunkInv R fid { sh with fileId := fid } (Function.update v i (.running .checkAbort)) := by
  refine h.of_update hv rfl h.firstError h.abort h.sent h.sent_le h.sent_claimed (fun k => rfl)
    (Nat.le_refl _) (.inr (Nat.le_refl _)) (fun h => by cases h) (fun q hq => ?_) (fun hlt => ?_)
    fun _ => .inl rfl
  · cases hq
    trivial
  · exact absurd ⟨_, resp, hv, rfl, hcode⟩ ((h.early hlt).2 i)

theorem step {v : Fin R.parallelism → WorkerStage ChunkPc} {i : Fin R.parallelism}
    (h : ChunkInv R fid sh v) (hv : v i = .running pc) (hturn : InTurn R sh pc e)
    (hs : ChunkStep R fid sh pc e sh' o) : ChunkInv R fid sh' (Function.update v i (.after o)) := by
  have hok := h.ok i pc hv
  cases hs with
  | opened | goesOn | notCancelled | read | authorized =>
    refine h.move hv rfl trivial ?_
    simp [carriesFinal_running, ChunkPc.answer]
  | exhausted hn => exact h.exhausted hv hn
  | claimed hn => exact h.claimed hv hn
  | put idx attempt refreshed resp hresp => exact h.put hv (h.turn hv hturn).1 hresp
  | kept | routed =>
    refine h.move hv rfl hok ?_
    rw [carriesFinal_running, carriesFinal_running]
    rfl
  | complete idx resp hcode => exact h.complete hv hcode
  | incomplete idx resp hcode =>
    refine h.move hv rfl trivial ?_
    simp [carriesFinal_running, ChunkPc.answer, hcode]

theorem start (h : ChunkInv R fid sh v) (hv : v i = .fresh) :
    ChunkInv R fid sh (Function.update v i (.running .opening)) := by
  refine h.of_update hv rfl h.firstError h.abort h.sent h.sent_le h.sent_claimed (fun k => rfl)
    (Nat.le_refl _) (.inr (Nat.le_refl _)) (fun h => by cases h) (fun q hq => ?_)
    (fun hlt => ⟨hlt, rfl, ?_⟩) fun hm => .inr (.inr ⟨hm, rfl, ?_⟩)
  · cases hq
    trivial
  · simp [carriesFinal_running, ChunkPc.answer]
  · rintro ⟨pc, resp, hpc, -⟩
    cases hpc

theorem init (v : Fin n → WorkerStage ChunkPc) (hv : ∀ i, v i = .fresh) (hplan : 0 < R.plan.length) :
    ChunkInv R fid {} v where
  firstError := rfl
  abort := rfl
  sent := rfl
  sent_le := Nat.zero_le _
  sent_claimed := Nat.le_refl _
  held k := by simp [hv, holds, due]
  claims := Nat.zero_le _
  left i h := by cases (hv i).symm.trans h
  ok i pc h := by cases (hv i).symm.trans h
  early _ := by
    refine ⟨rfl, ?_⟩
    rintro i ⟨pc, resp, hpc, -⟩
    cases (hv i).symm.trans hpc
  final h := absurd h hplan.ne

/-- When all workers have left, every chunk was sent and the id is there. -/
theorem of_left (h : ChunkInv R fid sh v) (hn : 0 < n) (hleft : ∀ i, v i = .left) :
    sh.puts.length = R.plan.length ∧ sh.fileId = fid := by
  have hnext := h.left ⟨0, hn⟩ (hleft _)
  have hall : sh.puts.length = R.plan.length := by
    refine Nat.le_antisymm h.sent_le (Nat.le_of_not_lt fun hlt => ?_)
    obtain ⟨j, pc, hj, -⟩ := h.next_held ⟨Nat.le_refl _, by omega, hlt⟩
    cases (hleft j).symm.trans hj
  refine ⟨hall, (h.final hall).resolve_right ?_⟩
  rintro ⟨j, pc, resp, hj, -⟩
  cases (hleft j).symm.trans hj

end ChunkInv

/-! ### The join -/

/-- What is known as the parent goes from joining its workers to its return. -/
def ChunkJoin (R : Resumable) (fid : String) (p : Phase (Result UploadResult)) (sh : ChunkShared)
    (v : Fin n → WorkerStage ChunkPc) : Prop :=
  ChunkInv R fid sh v ∧
    match p with
    | .joining => True
    | .woken => ∀ i, v i = .left
    | .returned r => (∀ i, v i = .left) ∧ r = resumableVerdict R sh

/-- While a worker has not left, the parent is still joining. -/
theorem ChunkJoin.joining {p : Phase (Result UploadResult)} (h : ChunkJoin R fid p sh v)
    (hv : v i ≠ .left) : p = .joining := by
  cases p with
  | joining => rfl
  | woken => exact absurd (h.2 i) hv
  | returned r => exact absurd (h.2.1 i) hv

/-- A parent that has joined its workers in turn returns the id. -/
theorem ChunkJoin.value {r : Result UploadResult} (h : ChunkJoin R fid (.returned r) sh v) (hn : 0 < n)
    (hfid : fid ≠ "") :
    r = .ok ⟨fid, "https://drive.google.com/file/d/" ++ fid ++ "/view", R.total, 0⟩ ∧
      sh.puts.length = R.plan.length := by
  obtain ⟨hI, hleft, rfl⟩ := h
  obtain ⟨hall, hid⟩ := hI.of_left hn hleft
  refine ⟨?_, hall⟩
  simp only [resumableVerdict, hI.firstError, hid, if_neg hfid]

section
variable {s : PoolState R.parallelism ChunkShared ChunkPc (Result UploadResult)}
  {t : List (PoolEvent R.parallelism ChunkEvent)}

theorem chunkJoin_steps (hplan : 0 < R.plan.length)
    (h : (chunkPool R).Steps (Undisturbed (InTurnSession R fid)) (chunkStart R) t s) :
    ChunkJoin R fid s.shared.parent.phase s.shared.body (stages s) := by
  refine rule (A := ChunkJoin R fid) (B := chunkBody R) ?_ ?_ ?_ ?_ ?_ (JoinInv.start ({} : ChunkShared))
    ⟨ChunkInv.init _ (fun _ => rfl) hplan, trivial⟩ h
  · intro p sh v i hA hv
    cases hA.joining (i := i) (by rw [hv]; exact fun h => by cases h)
    exact ⟨hA.1.start hv, trivial⟩
  · intro s i l e body o hp hA hw hs
    have hv : stages s i = .running l := Worker.stage_eq_running.2 hw
    have hphase := hA.joining (i := i) (by rw [hv]; exact fun h => by cases h)
    rw [hphase] at hA ⊢
    obtain ⟨hf, hturn⟩ := (undisturbed_run hw).1 hp
    exact ⟨hA.1.step hv hturn (chunkWorker_inv hf (hA.1.ok i l hv) hA.1.abort hs), trivial⟩
  · exact fun sh v hA hleft => ⟨hA.1, hleft⟩
  · exact fun s hp => hp.elim
  · exact fun sh v hA => ⟨hA.1, hA.2, rfl⟩

theorem joinInv_steps {P : PoolState R.parallelism ChunkShared ChunkPc (Result UploadResult) →
    PoolEvent R.parallelism ChunkEvent → Prop} (h : (chunkPool R).Steps P (chunkStart R) t s) : JoinInv s :=
  JoinInv.steps (B := chunkBody R) (.start ({} : ChunkShared)) h

end

/-! ### A chunk out of its turn -/

/-- Not the chunk `k` in hand, and no answer that the session is complete. -/
structure ChunkPc.Behind (R : Resumable) (fid : String) (k : Nat) (pc : ChunkPc) : Prop where
  held : ∀ idx, pc.held = some idx → idx < R.plan.length ∧ idx ≠ k
  answer : ∀ resp, pc.answer = some resp → resp.statusCode = 308
  ok : pc.Ok R fid

/-- The chunk `k` was sent, the session has not got it, and nobody will send it again. -/
structure Blocked (R : Resumable) (fid : String) (k : Nat) (sh : ChunkShared)
    (v : Fin n → WorkerStage ChunkPc) : Prop where
  lt : k < R.plan.length
  claimed : k < sh.nextIndex
  stored : (R.stored sh.puts).length ≤ k * R.chunkBytes
  abort : sh.abort = false
  fileId : sh.fileId = ""
  behind : ∀ i pc, v i = .running pc → pc.Behind R fid k

theorem ChunkPc.Ok.accepted (h : pc.Ok R fid) {resp : HttpResponse} (ha : pc.answer = some resp) :
    Accepted R fid resp := by
  cases pc with
  | answered idx attempt refreshed r =>
    cases r with
    | error => cases ha
    | ok => cases ha; exact h
  | routing | deciding => cases ha; exact h
  | _ => cases ha

theorem not_inTurn (h : ¬ InTurn R sh pc e) : ∃ idx attempt refreshed r,
    pc = .sending idx attempt refreshed ∧ e = .answer r ∧
      (R.chunk idx).offset ≠ (R.stored sh.puts).length := by
  unfold InTurn at h
  split at h
  · exact ⟨_, _, _, _, rfl, rfl, fun hoff => h (.inr hoff)⟩
  · exact absurd trivial h

theorem Resumable.stored_append (puts : List (ChunkPlan × HttpResponse)) (cp : ChunkPlan)
    (resp : HttpResponse) : R.stored (puts ++ [(cp, resp)]) = R.put (R.stored puts) cp := by
  simp [stored]

namespace Blocked
variable {k : Nat}

/-- The session stays at or before the chunk `k` when another chunk is sent. -/
theorem put_length_le (h : Blocked R fid k sh v) {idx : Nat} (hidx : idx < R.plan.length)
    (hne : idx ≠ k) : (R.put (R.stored sh.puts) (R.chunk idx)).length ≤ k * R.chunkBytes := by
  have hle := h.stored
  unfold Resumable.put
  split
  · rename_i hoff
    rw [Resumable.chunk_eq hidx] at hoff ⊢
    have hlt : idx < k := by
      refine Nat.lt_of_le_of_ne ?_ hne
      exact Nat.le_of_mul_le_mul_right (hoff.trans_le hle) R.chunkBytes_pos
    calc (R.stored sh.puts).length + min R.chunkBytes (R.total - idx * R.chunkBytes)
        ≤ idx * R.chunkBytes + R.chunkBytes := by simp only at hoff; omega
      _ = (idx + 1) * R.chunkBytes := by ring
      _ ≤ k * R.chunkBytes := Nat.mul_le_mul_right _ hlt
  · exact hle

theorem of_update (h : Blocked R fid k sh v) {st : WorkerStage ChunkPc}
    (hnext : sh.nextIndex ≤ sh'.nextIndex) (habort : sh'.abort = sh.abort)
    (hfile : sh'.fileId = sh.fileId) (hstored : (R.stored sh'.puts).length ≤ k * R.chunkBytes)
    (hst : ∀ q, st = .running q → q.Behind R fid k) :
    Blocked R fid k sh' (Function.update v i st) where
  lt := h.lt
  claimed := h.claimed.trans_le hnext
  stored := hstored
  abort := habort.trans h.abort
  fileId := hfile.trans h.fileId
  behind j q hj := by
    rcases eq_of_update_eq hj with ⟨-, heq⟩ | ⟨-, hj⟩
    · exact hst q heq
    · exact h.behind j q hj

theorem move (h : Blocked R fid k sh v) {pc' : ChunkPc} (hb : pc'.Behind R fid k) :
    Blocked R fid k sh (Function.update v i (.running pc')) :=
  h.of_update (Nat.le_refl _) rfl rfl h.stored fun q hq => by cases hq; exact hb

theorem step (h : Blocked R fid k sh v) (hv : v i = .running pc)
    (hs : ChunkStep R fid sh pc e sh' o) : Blocked R fid k sh' (Function.update v i (.after o)) := by
  have hb := h.behind i pc hv
  cases hs with
  | opened | goesOn | notCancelled | incomplete =>
    exact h.move ⟨(fun idx hidx => by cases hidx), (fun resp hresp => by cases hresp), trivial⟩
  | exhausted => exact h.of_update (Nat.le_succ _) rfl rfl h.stored fun q hq => by cases hq
  | claimed hn =>
    refine h.of_update (Nat.le_succ _) rfl rfl h.stored fun q hq => ?_
    cases hq
    refine ⟨fun idx hidx => ?_, (fun resp hresp => by cases hresp), trivial⟩
    cases hidx
    exact ⟨hn, h.claimed.ne'⟩
  | read | authorized => exact h.move ⟨hb.held, (fun resp hresp => by cases hresp), trivial⟩
  | put idx attempt refreshed resp hresp =>
    obtain ⟨hidx, hne⟩ := hb.held idx rfl
    have hle := h.put_length_le hidx hne
    refine h.of_update (Nat.le_refl _) rfl rfl (by rw [Resumable.stored_append]; exact hle) fun q hq => ?_
    cases hq
    refine ⟨(fun idx hidx => by cases hidx), fun resp' hresp' => ?_, hresp.accepted⟩
    cases hresp'
    exact hresp.incomplete (hle.trans_lt (Resumable.lt_plan_length.1 h.lt))
  | kept | routed => exact h.move ⟨(fun idx hidx => by cases hidx), hb.answer, hb.ok⟩
  | complete idx resp hcode =>
    have := hb.answer resp rfl
    omega

/-- A PUT that comes before its turn. -/
theorem of_early_put {idx attempt : Nat} {refreshed : Bool} {resp : HttpResponse}
    (h : ChunkInv R fid sh v) (hv : v i = .running (.sending idx attempt refreshed))
    (hoff : (R.chunk idx).offset ≠ (R.stored sh.puts).length)
    (hresp : SessionAnswer R fid (R.put (R.stored sh.puts) (R.chunk idx)) resp) :
    Blocked R fid idx { sh with puts := sh.puts ++ [(R.chunk idx, resp)] }
      (Function.update v i (.running (.answered idx attempt refreshed (.ok resp)))) := by
  obtain ⟨hle, hnext, hlt⟩ := h.of_held hv rfl
  have hne : idx ≠ sh.puts.length := fun heq => by
    rw [h.stored_length] at hoff
    exact hoff ((Resumable.offset_eq_covered h.sent_le hlt).2 heq)
  have hm : sh.puts.length < R.plan.length := by omega
  -- the session drops the chunk
  have hput : R.put (R.stored sh.puts) (R.chunk idx) = R.stored sh.puts := if_neg hoff
  have hlen : (R.stored sh.puts).length = sh.puts.length * R.chunkBytes := by
    rw [h.stored_length, Resumable.covered_of_lt hm]
  obtain ⟨hid, hno⟩ := h.early hm
  refine ⟨hlt, hnext, ?_, h.abort, hid, fun j q hj => ?_⟩
  · rw [Resumable.stored_append, hput, hlen]
    exact Nat.mul_le_mul_right _ hle
  rcases eq_of_update_eq hj with ⟨-, hq⟩ | ⟨hji, hj'⟩
  · cases hq
    refine ⟨(fun idx hidx => by cases hidx), fun resp' hresp' => ?_, hresp.accepted⟩
    cases hresp'
    refine hresp.incomplete ?_
    rw [hput, h.stored_length]
    exact Resumable.covered_lt hm
  · refine ⟨fun idx' hidx' => ⟨(h.of_held hj' hidx').2.2, ?_⟩, fun resp' hresp' => ?_, h.ok j q hj'⟩
    · rintro rfl
      exact hji (h.held_unique hv rfl hj' hidx')
    · refine ((h.ok j q hj').accepted hresp').resolve_right fun h200 => ?_
      exact hno j ⟨q, resp', hj', hresp', h200.1⟩

end Blocked

/-- What is known once a chunk was sent before its turn: no value is returned. -/
def BlockedJoin (R : Resumable) (fid : String) (k : Nat) (p : Phase (Result UploadResult))
    (sh : ChunkShared) (v : Fin n → WorkerStage ChunkPc) : Prop :=
  Blocked R fid k sh v ∧
    match p with
    | .returned r => ∀ out, r ≠ .ok out
    | _ => True

section
variable {s s' : PoolState R.parallelism ChunkShared ChunkPc (Result UploadResult)}
  {t : List (PoolEvent R.parallelism ChunkEvent)} {k : Nat}

theorem blockedJoin_steps (hj : JoinInv s)
    (h0 : BlockedJoin R fid k s.shared.parent.phase s.shared.body (stages s))
    (h : (chunkPool R).Steps (Undisturbed (Faultless R fid)) s t s') :
    BlockedJoin R fid k s'.shared.parent.phase s'.shared.body (stages s') := by
  refine rule (A := BlockedJoin R fid k) (B := chunkBody R) ?_ ?_ ?_ ?_ ?_ hj h0 h
  · intro p sh v i hA hv
    exact ⟨hA.1.move ⟨(fun idx hidx => by cases hidx), (fun resp hresp => by cases hresp), trivial⟩, hA.2⟩
  · intro s i l e body o hp hA hw hs
    have hv : stages s i = .running l := Worker.stage_eq_running.2 hw
    have hf := (undisturbed_run hw).1 hp
    exact ⟨hA.1.step hv (chunkWorker_inv hf (hA.1.behind i l hv).ok hA.1.abort hs), hA.2⟩
  · exact fun sh v hA _ => ⟨hA.1, trivial⟩
  · exact fun s hp => hp.elim
  · intro sh v hA
    refine ⟨hA.1, fun out hr => ?_⟩
    simp only [chunkBody, resumableVerdict, hA.1.fileId, if_true] at hr
    split at hr <;> cases hr

/-- The first PUT out of its turn. -/
theorem blocked_of_break {e : PoolEvent R.parallelism ChunkEvent} (hplan : 0 < R.plan.length)
    (h : (chunkPool R).Steps (Undisturbed (InTurnSession R fid)) (chunkStart R) t s)
    (hf : Undisturbed (Faultless R fid) s e) (hbad : ¬ Undisturbed (InTurn R) s e)
    (hs : (chunkPool R).step s e = some s') :
    ∃ k, BlockedJoin R fid k s'.shared.parent.phase s'.shared.body (stages s') := by
  obtain ⟨i, x, l, rfl, hw, hfl, hno⟩ := hf.exists_of_not hbad
  obtain ⟨idx, attempt, refreshed, r, rfl, rfl, hoff⟩ := not_inTurn hno
  have hinv := chunkJoin_steps hplan h
  have hv : stages s i = .running (.sending idx attempt refreshed) := Worker.stage_eq_running.2 hw
  have hphase := hinv.joining (i := i) (by rw [hv]; exact fun h => by cases h)
  refine ⟨idx, ?_⟩
  cases r with
  | error err => exact hfl.elim
  | ok resp =>
    cases step_inv hs with
    | run hw' hb =>
      cases hw.symm.trans hw'
      cases hb
      rw [stages_update, Worker.stage_after, hphase]
      exact ⟨Blocked.of_early_put hinv.1 hv hoff hfl, trivial⟩

/-- A run that nothing disturbs returns a value only if every PUT came in its turn. -/
theorem value_iff_in_turn (hfid : fid ≠ "") (hplan : 0 < R.plan.length)
    (h : (chunkPool R).Steps (Undisturbed (Faultless R fid)) (chunkStart R) t s)
    {r : Result UploadResult} (hr : s.shared.parent = .returned r) :
    (∃ out, r = .ok out) ↔
      (chunkPool R).Steps (Undisturbed (InTurnSession R fid)) (chunkStart R) t s := by
  constructor
  · rintro ⟨out, rfl⟩
    rcases h.both_or_break (Undisturbed (InTurn R)) with
      hin | ⟨t₁, e, t₂, s₁, s₂, rfl, h₁, hf, hbad, hs, h₂⟩
    · exact hin.mono fun _ _ hp => hp.1.and hp.2
    · have h₁ := h₁.mono fun _ _ hp => hp.1.and hp.2
      obtain ⟨k, hk⟩ := blocked_of_break hplan h₁ hf hbad hs
      have hend := blockedJoin_steps ((joinInv_steps h₁).step (step_inv hs)) hk h₂
      rw [hr] at hend
      exact absurd rfl (hend.2 out)
  · intro hin
    have hinv := chunkJoin_steps hplan hin
    rw [hr] at hinv
    exact ⟨_, (hinv.value R.parallelism_pos hfid).1⟩

end

/-! ### Progress -/

/-- A worker that is not in a PUT can go on. -/
theorem free_enabled (hok : pc.Ok R fid)
    (hpc : ∀ idx attempt refreshed, pc ≠ .sending idx attempt refreshed)
    (hnext : sh.nextIndex < 2147483648) :
    ∃ e x, InTurnSession R fid sh pc e ∧ chunkWorker R sh pc e = some x := by
  cases pc with
  | opening => exact ⟨.opened true, _, ⟨rfl, trivial⟩, rfl⟩
  | checkAbort => exact ⟨.run, _, ⟨trivial, trivial⟩, rfl⟩
  | checkCancel => exact ⟨.cancelState false, _, ⟨rfl, trivial⟩, rfl⟩
  | claim => exact ⟨.run, _, ⟨trivial, trivial⟩, if_pos hnext⟩
  | reading idx =>
    exact ⟨.read (R.chunk idx).length, _, ⟨rfl, trivial⟩, if_pos rfl⟩
  | backoff => exact hok.elim
  | bearer => exact ⟨.bearer (.ok ""), _, ⟨trivial, trivial⟩, rfl⟩
  | sending idx attempt refreshed => exact absurd rfl (hpc idx attempt refreshed)
  | answered idx attempt refreshed r =>
    cases r with
    | error => exact hok.elim
    | ok resp => exact ⟨.run, _, ⟨trivial, trivial⟩, retry_accepted hok⟩
  | routing => exact ⟨.run, _, ⟨trivial, trivial⟩, rfl⟩
  | deciding idx resp =>
    rcases conclude_accepted sh hok with ⟨-, hc⟩ | ⟨-, hc⟩
    · exact ⟨.run, _, ⟨trivial, trivial⟩, hc⟩
    · exact ⟨.run, _, ⟨trivial, trivial⟩, hc⟩

/-- A session can answer the PUT that is next. -/
theorem sending_enabled {body : String} (hbody : finalFileId R.json body = .ok fid)
    {idx attempt : Nat} {refreshed : Bool} (hoff : (R.chunk idx).offset = (R.stored sh.puts).length) :
    ∃ e x, InTurnSession R fid sh (.sending idx attempt refreshed) e ∧
      chunkWorker R sh (.sending idx attempt refreshed) e = some x := by
  have hresp : ∃ resp, SessionAnswer R fid (R.put (R.stored sh.puts) (R.chunk idx)) resp := by
    unfold SessionAnswer
    split
    · exact ⟨⟨200, body, []⟩, rfl, hbody⟩
    · exact ⟨⟨308, "", []⟩, rfl⟩
  obtain ⟨resp, hresp⟩ := hresp
  exact ⟨.answer (.ok resp), _, ⟨hresp, .inr hoff⟩, rfl⟩

/-- The workers that run can always go on: one of them, if all are in a PUT, has the next chunk. -/
theorem ChunkInv.enabled {body : String} (h : ChunkInv R fid sh v)
    (hbody : finalFileId R.json body = .ok fid) (hfit : R.plan.length + n ≤ 2147483648)
    (hv : v i = .running pc) :
    ∃ j q e x, v j = .running q ∧ InTurnSession R fid sh q e ∧ chunkWorker R sh q e = some x := by
  have hnext : sh.nextIndex < 2147483648 := by
    have hlt := sum_hasLeft_lt hv
    have hle := h.claims
    omega
  by_cases hpc : ∀ idx attempt refreshed, pc ≠ .sending idx attempt refreshed
  · obtain ⟨e, x, hx⟩ := free_enabled (h.ok i pc hv) hpc hnext
    exact ⟨i, pc, e, x, hv, hx⟩
  push Not at hpc
  obtain ⟨idx, attempt, refreshed, rfl⟩ := hpc
  obtain ⟨j, q, hj, hq⟩ := h.next_held (h.of_held hv rfl)
  by_cases hqs : ∀ idx attempt refreshed, q ≠ .sending idx attempt refreshed
  · obtain ⟨e, x, hx⟩ := free_enabled (h.ok j q hj) hqs hnext
    exact ⟨j, q, e, x, hj, hx⟩
  push Not at hqs
  obtain ⟨idx', attempt', refreshed', rfl⟩ := hqs
  cases hq
  have hoff := (Resumable.offset_eq_covered h.sent_le (h.of_held hj rfl).2.2).2 rfl
  obtain ⟨e, x, hx⟩ := sending_enabled hbody (hoff.trans h.stored_length.symm)
  exact ⟨j, _, e, x, hj, hx⟩

/-- A parser that knows the body `\x7b"id":"f1"\x7d`. -/
def idParser : JsonLib where
  parse body := if body = "\x7b\"id\":\"f1\"\x7d" then .ok (.object [("id", .string "f1")])
    else .error "parse error"
  trunc _ := 0

/-- One byte over the threshold, in two chunks for two workers. -/
def twoChunks : Resumable := ⟨idParser, "f", fun _ => 0, 5242881, 5242880, 2, 6⟩

/-- A worker starts and reads its first chunk, of `got` bytes. -/
def reads {n : Nat} (i : Fin n) (got : Nat) : List (PoolEvent n ChunkEvent) :=
  [.act i .start, .act i (.run (.opened true)), .act i (.run .run), .act i (.run (.cancelState false)),
    .act i (.run .run), .act i (.run (.read got)), .act i (.run (.bearer (.ok "token")))]

/-- A worker PUTs its chunk, takes the answer and finds no other chunk. -/
def putsLast {n : Nat} (i : Fin n) (resp : HttpResponse) : List (PoolEvent n ChunkEvent) :=
  [.act i (.run (.answer (.ok resp))), .act i (.run .run), .act i (.run .run),
    .act i (.run .run), .act i (.run .run), .act i (.run (.cancelState false)), .act i (.run .run),
    .act i .exit]

/-- The second chunk's PUT overtakes the first's. -/
def overtakes (i j : Fin twoChunks.parallelism) : List (PoolEvent twoChunks.parallelism ChunkEvent) :=
  [.env .spawn, .env .spawn, .env .startWait] ++ reads i 5242880 ++ reads j 1 ++
    putsLast j ⟨308, "", []⟩ ++ putsLast i ⟨308, "", []⟩ ++ [.act i .cancel, .env .resume]

end Cmlb.Upload.GoogleDrive
