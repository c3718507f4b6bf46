import Cmlb.Lib.Prog
import Cmlb.Upload.Pools

/-!
# One chunk of a resumable upload (`upload_resumable`, from the read to the end of the round)

What a worker does with a chunk it has read, as a program over the shared state, the token cache and
the HTTP client. The two nested retry loops share the variables `code`, `chunk_body`, `chunk_err` and
`chunk_done` (`ChunkLocals`), and what is made of the chunk afterwards is read off them. The other
workers are in the answers: `loadAbort` may be answered by anything.

`chunk_put_sound` is over all answers. Its key is `attempts_spec`: when the loops end without an error
and without the abort flag, `code` is that of the last PUT.
-/

namespace Cmlb.Upload.GoogleDrive

structure PutRequest where
  url : String
  headers : List (String × String)
  body : List UInt8
deriving DecidableEq

/-- What the worker has read: `got` bytes from `offset` on. -/
def Resumable.bytes (R : Resumable) (offset got : Nat) : List UInt8 :=
  (List.range got).map fun j => R.file (offset + j)

def Resumable.putRequest (R : Resumable) (sessionUri bearer : String) (cp : ChunkPlan) (got : Nat) :
    PutRequest where
  url := sessionUri
  headers := [("Authorization", bearer), ("Content-Length", toString got),
    ("Content-Range", "bytes " ++ toString cp.offset ++ "-" ++ toString ((cp.offset : Int) + got - 1) ++
      "/" ++ toString R.total)]
  body := R.bytes cp.offset got

inductive ChunkCall
  | backoff (attempt : Nat)
  | loadAbort
  | acquireBearer
  | put (req : PutRequest)
  | invalidateBearerCache
  | recordError (err : AppError)
  | storeFileId (id : String)
  | addBytes (got : Nat)

abbrev ChunkCall.Answer : ChunkCall → Type
  | .loadAbort => Bool
  | .acquireBearer => Result String
  | .put _ => Result HttpResponse
  | .backoff _ | .invalidateBearerCache | .recordError _ | .storeFileId _ | .addBytes _ => Unit

abbrev ChunkAction := Prog ChunkCall ChunkCall.Answer

structure ChunkLocals where
  code : Nat := 0
  chunkBody : String := ""
  chunkErr : Option AppError := none
  chunkDone : Bool := false
deriving DecidableEq

/-- Leaving the loops with an error. -/
def ChunkLocals.failed (v : ChunkLocals) (err : AppError) : ChunkLocals :=
  { v with chunkErr := some err, chunkDone := true }

section
variable (R : Resumable) (sessionUri : String) (cp : ChunkPlan) (got : Nat)

/-- One round of the `while (true)`, from which `again` goes on to the next; `chunkRes` is the variable
`chunk_res`. -/
def putRound (refreshed : Bool) (v : ChunkLocals) (chunkRes : Option (Result HttpResponse))
    (again : ChunkLocals → Option (Result HttpResponse) →
      ChunkAction (ChunkLocals × Option (Result HttpResponse))) :
    ChunkAction (ChunkLocals × Option (Result HttpResponse)) := do
  let bearer : Result String ← Prog.ask ChunkCall.acquireBearer
  match bearer with
  | .error err => pure (v.failed err, chunkRes)
  | .ok bearer =>
    let res : Result HttpResponse ← Prog.ask (ChunkCall.put (R.putRequest sessionUri bearer cp got))
    match res with
    | .error _ => pure (v, some res)
    | .ok resp =>
      let v := { v with code := resp.statusCode, chunkBody := resp.body }
      if v.code ≠ 401 ∨ refreshed then pure (v, some res)
      else do
        let _ ← Prog.ask ChunkCall.invalidateBearerCache
        again v (some res)

/-- The `while (true)`. The second round, with `refreshed_bearer` set, is the last. -/
def putLoop (v : ChunkLocals) : ChunkAction (ChunkLocals × Option (Result HttpResponse)) :=
  putRound R sessionUri cp got false v none fun v chunkRes =>
    putRound R sessionUri cp got true v chunkRes fun v chunkRes => pure (v, chunkRes)

def maxRetries : Nat := R.retries.toNat

def exhausted (code : Nat) (chunkBody : String) : AppError :=
  ⟨.googleDriveApi, "gdrive: chunk PUT exhausted " ++ toString (maxRetries R + 1) ++
    " retries: HTTP " ++ toString code ++ ": " ++ chunkBody⟩

/-- The wait before a retry; the abort flag is looked at after it. -/
def backoffWait (attempt : Nat) : ChunkAction Bool :=
  if attempt > 0 then do
    let _ ← Prog.ask (ChunkCall.backoff attempt)
    Prog.ask ChunkCall.loadAbort
  else pure false

/-- `for (attempt = ..; attempt <= max_retries && !chunk_done; ++attempt)`, with `left` rounds left. -/
def attempts : Nat → Nat → ChunkLocals → ChunkAction ChunkLocals
  | 0, _, v => pure v
  | left + 1, attempt, v =>
    if v.chunkDone then pure v
    else do
      let stop ← backoffWait attempt
      if stop then pure { v with chunkDone := true }
      else do
        let (v, chunkRes) ← putLoop R sessionUri cp got v
        if v.chunkDone then pure v
        else
          match chunkRes with
          | none => pure v
          | some (.error err) =>
            if err.code = .cancelled then pure (v.failed err)
            else if attempt < maxRetries R then attempts left (attempt + 1) v
            else pure (v.failed err)
          | some (.ok _) =>
            if v.code = 429 ∨ 500 ≤ v.code ∧ v.code < 600 then
              if attempt < maxRetries R then attempts left (attempt + 1) v
              else pure (v.failed (exhausted R v.code v.chunkBody))
            else attempts left (attempt + 1) { v with chunkDone := true }

/-- What becomes of the chunk; whether the worker goes on to its next one. -/
def settle (v : ChunkLocals) : ChunkAction Bool :=
  match v.chunkErr with
  | some err => do
    let _ ← Prog.ask (ChunkCall.recordError err)
    pure false
  | none => do
    let abort : Bool ← Prog.ask ChunkCall.loadAbort
    if abort then pure false
    else if v.code = 200 ∨ v.code = 201 then
      match finalFileId R.json v.chunkBody with
      | .error what => do
        let _ ← Prog.ask (ChunkCall.recordError ⟨.jsonParse, "gdrive: final chunk parse: " ++ what⟩)
        pure false
      | .ok id => do
        let _ ← Prog.ask (ChunkCall.storeFileId id)
        let _ ← Prog.ask (ChunkCall.addBytes got)
        pure true
    else if v.code ≠ 308 then do
      let _ ← Prog.ask (ChunkCall.recordError ⟨.googleDriveApi,
        "gdrive: chunk PUT returned " ++ toString v.code ++ ": " ++ v.chunkBody⟩)
      pure false
    else do
      let _ ← Prog.ask (ChunkCall.addBytes got)
      pure true

def putChunk : ChunkAction Bool := do
  let v ← attempts R sessionUri cp got (maxRetries R + 1) 0 {}
  settle R got v

end

/-! ### Logs -/

abbrev ChunkLog := List (Σ c, ChunkCall.Answer c)

/-- What the PUTs of a log were answered, in their order. -/
def putAnswer : (Σ c, ChunkCall.Answer c) → Option (Result HttpResponse)
  | ⟨.put _, r⟩ => some r
  | _ => none

def putAnswers (log : ChunkLog) : List (Result HttpResponse) := log.filterMap putAnswer

def acceptingCode (code : Nat) : Bool := code == 308 || code == 200 || code == 201

def accepting : Result HttpResponse → Bool
  | .ok resp => acceptingCode resp.statusCode
  | .error _ => false

/-- The abort flag was found set. -/
def SawAbort (log : ChunkLog) : Prop := (⟨.loadAbort, true⟩ : Σ c, ChunkCall.Answer c) ∈ log

@[simp]
theorem putAnswers_append (log log' : ChunkLog) :
    putAnswers (log ++ log') = putAnswers log ++ putAnswers log' := List.filterMap_append

@[simp]
theorem putAnswers_nil : putAnswers [] = [] := rfl

/-- No PUT was accepted. -/
def Rejected (rs : List (Result HttpResponse)) : Prop := ∀ r ∈ rs, accepting r = false

theorem Rejected.append {rs rs' : List (Result HttpResponse)} (h : Rejected rs) (h' : Rejected rs') :
    Rejected (rs ++ rs') := by
  intro r hr
  rcases List.mem_append.1 hr with hr | hr
  · exact h r hr
  · exact h' r hr

theorem rejected_nil : Rejected [] := fun _ hr => absurd hr List.not_mem_nil

theorem rejected_singleton {r : Result HttpResponse} (h : accepting r = false) : Rejected [r] := by
  intro r' hr'
  rw [List.mem_singleton.1 hr']
  exact h

/-! ### The `while (true)` -/

variable {R : Resumable} {sessionUri : String} {cp : ChunkPlan} {got : Nat} {v : ChunkLocals}
  {log : ChunkLog} {x : ChunkLocals × Option (Result HttpResponse)}

/-- Nothing has been decided about the chunk; a status code that is left over is not an accepting
one. -/
structure Clean (v : ChunkLocals) : Prop where
  err : v.chunkErr = none
  done : v.chunkDone = false
  stale : acceptingCode v.code = false

/-- How the `while (true)` ends, after PUTs that were answered `rs`. -/
inductive PutEnd (rs : List (Result HttpResponse)) : ChunkLocals × Option (Result HttpResponse) → Prop
  | noBearer {v : ChunkLocals} {err res} (h : Rejected rs) : PutEnd rs (v.failed err, res)
  | transport {v : ChunkLocals} {err pre} (hv : Clean v) (hrs : rs = pre ++ [.error err]) (hpre : Rejected pre) :
      PutEnd rs (v, some (.error err))
  | answered {v : ChunkLocals} {resp pre} (herr : v.chunkErr = none) (hdone : v.chunkDone = false)
      (hrs : rs = pre ++ [.ok resp]) (hpre : Rejected pre) (hcode : v.code = resp.statusCode) :
      PutEnd rs (v, some (.ok resp))

theorem PutEnd.after {rs rs' : List (Result HttpResponse)} (h : PutEnd rs' x) (hrs : Rejected rs) :
    PutEnd (rs ++ rs') x := by
  cases h with
  | noBearer h => exact .noBearer (hrs.append h)
  | transport hv hrs' hpre =>
    exact .transport hv (by rw [hrs', List.append_assoc]) (hrs.append hpre)
  | answered herr hdone hrs' hpre hcode =>
    exact .answered herr hdone (by rw [hrs', List.append_assoc]) (hrs.append hpre) hcode

/-- A round ends the loop, or it got a 401 and the bearer has not been refreshed yet. -/
theorem putRound_inv {refreshed : Bool} {chunkRes : Option (Result HttpResponse)}
    {again : ChunkLocals → Option (Result HttpResponse) →
      ChunkAction (ChunkLocals × Option (Result HttpResponse))}
    (h : (putRound R sessionUri cp got refreshed v chunkRes again).Dialog log x) (hv : Clean v) :
    ((putAnswers log).length ≤ 1 ∧ PutEnd (putAnswers log) x) ∨
    (refreshed = false ∧ ∃ v' res log₁ log₂, log = log₁ ++ log₂ ∧ (putAnswers log₁).length = 1 ∧
      Rejected (putAnswers log₁) ∧ Clean v' ∧ (again v' res).Dialog log₂ x) := by
  obtain ⟨bearer, log₁, rfl, h₁⟩ := h.ask_bind_inv
  cases bearer with
  | error err =>
    obtain ⟨rfl, rfl⟩ := h₁.pure_inv
    exact .inl ⟨Nat.zero_le 1, .noBearer rejected_nil⟩
  | ok bearer =>
    obtain ⟨res, log₂, rfl, h₂⟩ := h₁.ask_bind_inv
    cases res with
    | error err =>
      obtain ⟨rfl, rfl⟩ := h₂.pure_inv
      exact .inl ⟨Nat.le_refl 1, .transport hv (List.nil_append _).symm rejected_nil⟩
    | ok resp =>
      dsimp only at h₂
      by_cases hcode : resp.statusCode ≠ 401 ∨ refreshed = true
      · rw [if_pos hcode] at h₂
        obtain ⟨rfl, rfl⟩ := h₂.pure_inv
        exact .inl ⟨Nat.le_refl 1, .answered hv.err hv.done (List.nil_append _).symm rejected_nil rfl⟩
      · rw [if_neg hcode] at h₂
        obtain ⟨_, log₃, rfl, h₃⟩ := h₂.ask_bind_inv
        rw [not_or, not_not, Bool.not_eq_true] at hcode
        refine .inr ⟨hcode.2, _, _, [_, _, _], log₃, rfl, rfl, ?_, ?_, h₃⟩
        · exact rejected_singleton (by simp [accepting, acceptingCode, hcode.1])
        · exact ⟨hv.err, hv.done, by simp [acceptingCode, hcode.1]⟩

theorem putLoop_spec (h : (putLoop R sessionUri cp got v).Dialog log x) (hv : Clean v) :
    (putAnswers log).length ≤ 2 ∧ PutEnd (putAnswers log) x := by
  rcases putRound_inv h hv with ⟨hlen, hend⟩ | ⟨-, v', res, log₁, log₂, rfl, hlen, hrej, hv', h₂⟩
  · exact ⟨by omega, hend⟩
  · rcases putRound_inv h₂ hv' with ⟨hlen', hend⟩ | ⟨hfalse, -⟩
    · rw [putAnswers_append, List.length_append]
      exact ⟨by omega, hend.after hrej⟩
    · cases hfalse

/-! ### The attempts -/

/-- How the retry loops end. -/
inductive AttemptsEnd (log : ChunkLog) : ChunkLocals → Prop
  | failed {v : ChunkLocals} {err} (h : Rejected (putAnswers log)) : AttemptsEnd log (v.failed err)
  | stopped {v : ChunkLocals} (habort : SawAbort log) (hv : v.chunkErr = none)
      (hstale : acceptingCode v.code = false) (h : Rejected (putAnswers log)) : AttemptsEnd log v
  | answered {v : ChunkLocals} {resp pre} (hv : v.chunkErr = none) (hrs : putAnswers log = pre ++ [.ok resp])
      (hpre : Rejected pre) (hcode : v.code = resp.statusCode) : AttemptsEnd log v

theorem AttemptsEnd.after {log' : ChunkLog} (h : AttemptsEnd log' v) (hlog : Rejected (putAnswers log)) :
    AttemptsEnd (log ++ log') v := by
  cases h with
  | failed h => exact .failed (by rw [putAnswers_append]; exact hlog.append h)
  | stopped habort hv hstale h =>
    refine .stopped (List.mem_append_right _ habort) hv hstale ?_
    rw [putAnswers_append]
    exact hlog.append h
  | answered hv hrs hpre hcode =>
    refine .answered hv ?_ (hlog.append hpre) hcode
    rw [putAnswers_append, hrs, List.append_assoc]

theorem backoffWait_inv {attempt : Nat} {stop : Bool} (h : (backoffWait attempt).Dialog log stop) :
    putAnswers log = [] ∧ (stop = true → SawAbort log) := by
  unfold backoffWait at h
  split at h
  · obtain ⟨_, log₁, rfl, h₁⟩ := h.ask_bind_inv
    rw [h₁.ask_inv]
    refine ⟨rfl, fun hstop => ?_⟩
    rw [hstop]
    exact List.mem_cons_of_mem _ List.mem_cons_self
  · obtain ⟨rfl, rfl⟩ := h.pure_inv
    exact ⟨rfl, fun hstop => by cases hstop⟩

theorem attempts_done {left attempt : Nat} (h : v.chunkDone = true) :
    attempts R sessionUri cp got left attempt v = pure v := by
  cases left with
  | zero => rfl
  | succ left =>
    unfold attempts
    rw [if_pos h]

theorem attempts_spec {left attempt : Nat} {v' : ChunkLocals}
    (h : (attempts R sessionUri cp got left attempt v).Dialog log v') (hv : Clean v)
    (hleft : attempt + left = maxRetries R + 1) (hpos : 0 < left) :
    (putAnswers log).length ≤ 2 * left ∧ AttemptsEnd log v' := by
  induction left generalizing attempt v log with
  | zero => omega
  | succ left ih =>
    unfold attempts at h
    rw [if_neg (by rw [hv.done]; decide)] at h
    obtain ⟨log₁, log₂, stop, rfl, hwait, h₁⟩ := h.bind_inv
    obtain ⟨hnone, hstop⟩ := backoffWait_inv hwait
    cases stop with
    | true =>
      obtain ⟨rfl, rfl⟩ := h₁.pure_inv
      rw [List.append_nil, hnone]
      exact ⟨Nat.zero_le _, .stopped (hstop rfl) hv.err hv.stale (by rw [hnone]; exact rejected_nil)⟩
    | false =>
      obtain ⟨log₂, log₃, ⟨w, res⟩, rfl, hput, h₂⟩ := h₁.bind_inv
      obtain ⟨hlen, hend⟩ := putLoop_spec hput hv
      have hanswers : ∀ log', putAnswers (log₁ ++ (log₂ ++ log')) = putAnswers log₂ ++ putAnswers log' := by
        intro log'
        simp [hnone]
      -- another round, after answers of which none was accepted
      have hagain : Clean w → Rejected (putAnswers log₂) → attempt < maxRetries R →
          (attempts R sessionUri cp got left (attempt + 1) w).Dialog log₃ v' →
          (putAnswers (log₁ ++ (log₂ ++ log₃))).length ≤ 2 * (left + 1) ∧
            AttemptsEnd (log₁ ++ (log₂ ++ log₃)) v' := by
        intro hw hrej hlt hnext
        obtain ⟨hlen', hend'⟩ := ih hnext hw (by omega) (by omega)
        rw [hanswers, List.length_append]
        refine ⟨by omega, ?_⟩
        rw [← List.append_assoc]
        exact hend'.after (by rw [putAnswers_append, hnone]; exact hrej)
      -- the loop ends here
      have hlast : log₃ = [] → AttemptsEnd (log₁ ++ log₂) v' →
          (putAnswers (log₁ ++ (log₂ ++ log₃))).length ≤ 2 * (left + 1) ∧
            AttemptsEnd (log₁ ++ (log₂ ++ log₃)) v' := by
        rintro rfl hend'
        rw [hanswers, putAnswers_nil, List.append_nil, List.append_nil]
        exact ⟨by omega, hend'⟩
      have hput₂ : putAnswers (log₁ ++ log₂) = putAnswers log₂ := by simp [hnone]
      cases hend with
      | noBearer hrej =>
        obtain ⟨hnil, rfl⟩ := h₂.pure_inv
        exact hlast hnil (.failed (by rw [hput₂]; exact hrej))
      | @transport v err pre hw hrs hpre =>
        have hrej : Rejected (putAnswers log₂) := by
          rw [hrs]
          exact hpre.append (rejected_singleton rfl)
        dsimp only at h₂
        rw [if_neg (by rw [hw.done]; decide)] at h₂
        split at h₂
        · obtain ⟨hnil, rfl⟩ := h₂.pure_inv
          exact hlast hnil (.failed (by rw [hput₂]; exact hrej))
        · split at h₂
          · exact hagain hw hrej ‹_› h₂
          · obtain ⟨hnil, rfl⟩ := h₂.pure_inv
            exact hlast hnil (.failed (by rw [hput₂]; exact hrej))
      | @answered v resp pre herr hdone hrs hpre hcode =>
        dsimp only at h₂
        rw [if_neg (by rw [hdone]; decide)] at h₂
        split at h₂
        · rename_i hretry
          have hstale : acceptingCode w.code = false := by
            simp only [acceptingCode, Bool.or_eq_false_iff, beq_eq_false_iff_ne]
            omega
          have hrej : Rejected (putAnswers log₂) := by
            rw [hrs]
            refine hpre.append (rejected_singleton ?_)
            rw [hcode] at hstale
            exact hstale
          split at h₂
          · exact hagain ⟨herr, hdone, hstale⟩ hrej ‹_› h₂
          · obtain ⟨hnil, rfl⟩ := h₂.pure_inv
            exact hlast hnil (.failed (by rw [hput₂]; exact hrej))
        · rw [attempts_done rfl] at h₂
          obtain ⟨hnil, rfl⟩ := h₂.pure_inv
          exact hlast hnil (.answered herr (by rw [hput₂]; exact hrs) hpre hcode)

/-! ### The whole chunk -/

/-- The calls of the retry loops. -/
def ChunkCall.inLoop : ChunkCall → Bool
  | .backoff _ | .loadAbort | .acquireBearer | .put _ | .invalidateBearerCache => true
  | .recordError _ | .storeFileId _ | .addBytes _ => false

theorem only_putRound {refreshed : Bool} {chunkRes : Option (Result HttpResponse)}
    {again : ChunkLocals → Option (Result HttpResponse) →
      ChunkAction (ChunkLocals × Option (Result HttpResponse))}
    (hagain : ∀ v res, (again v res).Only fun c => c.inLoop = true) :
    (putRound R sessionUri cp got refreshed v chunkRes again).Only fun c => c.inLoop = true := by
  refine .ask_bind rfl fun bearer => ?_
  cases bearer with
  | error err => exact .pure _
  | ok bearer =>
    refine .ask_bind rfl fun res => ?_
    cases res with
    | error err => exact .pure _
    | ok resp =>
      dsimp only
      split
      · exact .pure _
      · exact .ask_bind rfl fun _ => hagain _ _

theorem only_attempts (left attempt : Nat) (v : ChunkLocals) :
    (attempts R sessionUri cp got left attempt v).Only fun c => c.inLoop = true := by
  induction left generalizing attempt v with
  | zero => exact .pure _
  | succ left ih =>
    unfold attempts
    split
    · exact .pure _
    · refine .bind ?_ fun stop => ?_
      · unfold backoffWait
        split
        · exact .ask_bind rfl fun _ => .ask rfl
        · exact .pure _
      · split
        · exact .pure _
        · refine .bind (only_putRound fun _ _ => only_putRound fun _ _ => .pure _) fun x => ?_
          dsimp only
          repeat' split
          all_goals first | exact .pure _ | exact ih _ _

/-- The bytes are added, as often as they are, for this chunk. -/
def AddsBytes (log : ChunkLog) (n : Nat) : Prop := (⟨.addBytes n, ()⟩ : Σ c, ChunkCall.Answer c) ∈ log

def RecordsError (log : ChunkLog) : Prop :=
  ∃ err, (⟨.recordError err, ()⟩ : Σ c, ChunkCall.Answer c) ∈ log

/-- What a worker makes of the loops' variables. -/
inductive SettleEnd (got : Nat) (v : ChunkLocals) (log : ChunkLog) : Prop
  | recorded (h : ∀ n, ¬ AddsBytes log n) (herr : RecordsError log)
  | aborted (h : ∀ n, ¬ AddsBytes log n) (habort : SawAbort log)
  | added (hcode : acceptingCode v.code = true) (herr : v.chunkErr = none)
      (h : ∀ n, AddsBytes log n ↔ n = got)

theorem settle_inv {goesOn : Bool} (h : (settle R got v).Dialog log goesOn) :
    putAnswers log = [] ∧ SettleEnd got v log := by
  unfold settle at h
  split at h
  · obtain ⟨_, log₁, rfl, h₁⟩ := h.ask_bind_inv
    obtain ⟨rfl, -⟩ := h₁.pure_inv
    exact ⟨rfl, .recorded (by simp [AddsBytes]) ⟨_, List.mem_cons_self⟩⟩
  · rename_i herr
    obtain ⟨abort, log₁, rfl, h₁⟩ := h.ask_bind_inv
    cases abort with
    | true =>
      obtain ⟨rfl, -⟩ := h₁.pure_inv
      exact ⟨rfl, .aborted (by simp [AddsBytes]) List.mem_cons_self⟩
    | false =>
      rw [if_neg (by decide)] at h₁
      split at h₁
      · rename_i hcode
        split at h₁
        · obtain ⟨_, log₂, rfl, h₂⟩ := h₁.ask_bind_inv
          obtain ⟨rfl, -⟩ := h₂.pure_inv
          exact ⟨rfl, .recorded (by simp [AddsBytes]) ⟨_, List.mem_cons_of_mem _ List.mem_cons_self⟩⟩
        · obtain ⟨_, log₂, rfl, h₂⟩ := h₁.ask_bind_inv
          obtain ⟨_, log₃, rfl, h₃⟩ := h₂.ask_bind_inv
          obtain ⟨rfl, -⟩ := h₃.pure_inv
          refine ⟨rfl, .added ?_ herr (by simp [AddsBytes])⟩
          rcases hcode with hcode | hcode <;> simp [acceptingCode, hcode]
      · split at h₁
        · obtain ⟨_, log₂, rfl, h₂⟩ := h₁.ask_bind_inv
          obtain ⟨rfl, -⟩ := h₂.pure_inv
          exact ⟨rfl, .recorded (by simp [AddsBytes]) ⟨_, List.mem_cons_of_mem _ List.mem_cons_self⟩⟩
        · rename_i hcode
          obtain ⟨_, log₂, rfl, h₂⟩ := h₁.ask_bind_inv
          obtain ⟨rfl, -⟩ := h₂.pure_inv
          refine ⟨rfl, .added ?_ herr (by simp [AddsBytes])⟩
          simp [acceptingCode, not_not.1 hcode]

/-- What is to be said of a chunk's log: how the bytes are added, how often the chunk is sent, what is
recorded otherwise, and that it is not sent again once it is accepted. -/
structure Sound (R : Resumable) (got : Nat) (log : ChunkLog) : Prop where
  added : ∀ n, AddsBytes log n → n = got ∧ ∃ r, (putAnswers log).getLast? = some r ∧ accepting r = true
  bounded : (putAnswers log).length ≤ 2 * (maxRetries R + 1)
  recorded : AddsBytes log got ∨ RecordsError log ∨ SawAbort log
  last : ∀ pre r post, putAnswers log = pre ++ r :: post → accepting r = true → post = []

/-- After rejected PUTs only the last one can have been accepted. -/
theorem last_of_rejected {pre rs post : List (Result HttpResponse)} {r last : Result HttpResponse}
    (hrej : Rejected rs) (h : rs ++ [last] = pre ++ r :: post) (hr : accepting r = true) : post = [] := by
  by_contra hne
  obtain ⟨post', b, rfl⟩ := List.eq_nil_or_concat' post |>.resolve_left hne
  rw [← List.cons_append, ← List.append_assoc] at h
  obtain ⟨rfl, -⟩ := List.append_inj' h rfl
  have hfalse := hrej r (List.mem_append_right _ List.mem_cons_self)
  rw [hr] at hfalse
  cases hfalse

/-- Whatever the PUTs and the token requests are answered, and whenever another worker sets the abort
flag. -/
theorem chunk_put_sound (R : Resumable) (sessionUri : String) (cp : ChunkPlan) (got : Nat)
    (log : ChunkLog) (goesOn : Bool) (h : (putChunk R sessionUri cp got).Dialog log goesOn) :
    Sound R got log := by
  obtain ⟨log₁, log₂, v, rfl, h₁, h₂⟩ := h.bind_inv
  obtain ⟨hlen, hend⟩ := attempts_spec h₁ ⟨rfl, rfl, rfl⟩ (by omega) (by omega)
  obtain ⟨hnone, hsettle⟩ := settle_inv h₂
  have hanswers : putAnswers (log₁ ++ log₂) = putAnswers log₁ := by simp [hnone]
  have hquiet : ∀ n, ¬ AddsBytes log₁ n := by
    intro n hn
    have hloop := (only_attempts _ _ _).dialog h₁ _ hn
    cases hloop
  have hadds : ∀ n, AddsBytes (log₁ ++ log₂) n ↔ AddsBytes log₂ n := by
    intro n
    unfold AddsBytes
    rw [List.mem_append]
    exact or_iff_right (hquiet n)
  refine ⟨?_, by rw [hanswers]; exact hlen, ?_, ?_⟩
  · intro n hn
    rw [hadds] at hn
    cases hsettle with
    | recorded hno => exact absurd hn (hno n)
    | aborted hno => exact absurd hn (hno n)
    | added hcode herr hiff =>
      refine ⟨(hiff n).1 hn, ?_⟩
      cases hend with
      | failed => cases herr
      | stopped habort hv hstale =>
        rw [hstale] at hcode
        cases hcode
      | @answered _ resp pre hv hrs hpre hcode' =>
        refine ⟨.ok resp, ?_, ?_⟩
        · rw [hanswers, hrs, List.getLast?_concat]
        · rw [hcode'] at hcode
          exact hcode
  · cases hsettle with
    | recorded _ herr =>
      obtain ⟨err, herr⟩ := herr
      exact .inr (.inl ⟨err, List.mem_append_right _ herr⟩)
    | aborted _ habort => exact .inr (.inr (List.mem_append_right _ habort))
    | added _ _ hiff => exact .inl ((hadds got).2 ((hiff got).2 rfl))
  · intro pre r post hrs hr
    rw [hanswers] at hrs
    -- an accepted PUT is only in a log that ends with an answer
    have hmem : ∀ rs, Rejected rs → rs = pre ++ r :: post → False := by
      rintro rs hrej rfl
      have hfalse := hrej r (List.mem_append_right _ List.mem_cons_self)
      rw [hr] at hfalse
      cases hfalse
    cases hend with
    | failed hrej => exact (hmem _ hrej hrs).elim
    | stopped _ _ _ hrej => exact (hmem _ hrej hrs).elim
    | answered hv hrs' hpre hcode' => exact last_of_rejected hpre (hrs'.symm.trans hrs) hr

/-- A file of 5 bytes, with one retry. -/
def fiveBytes : Resumable := ⟨⟨fun _ => .error "parse error", fun _ => 0⟩, "f", fun _ => 7, 5, 262144, 1, 1⟩

/-- Every PUT is answered 503. -/
def unavailable : (c : ChunkCall) → c.Answer
  | .loadAbort => false
  | .acquireBearer => .ok "Bearer t"
  | .put _ => .ok ⟨503, "", []⟩
  | .backoff _ | .invalidateBearerCache | .recordError _ | .storeFileId _ | .addBytes _ => ()

theorem chunk_put_sound_unavailable : ∃ log goesOn,
    (putChunk fiveBytes "https://session" ⟨0, 5⟩ 5).Dialog log goesOn ∧ (putAnswers log).length = 2 ∧
    RecordsError log ∧ Sound fiveBytes 5 log := by
  have hdialog := Prog.dialog_converse unavailable (putChunk fiveBytes "https://session" ⟨0, 5⟩ 5)
  refine ⟨_, _, hdialog, rfl, ⟨exhausted fiveBytes 503 "", ?_⟩, chunk_put_sound _ _ _ _ _ _ hdialog⟩
  exact List.mem_of_getLast? rfl

end Cmlb.Upload.GoogleDrive
