import Cmlb.Upload.ChunkRetry
import Cmlb.Upload.Resumable

/-!
# The chunk plan and its claims (`upload_resumable`)

The plan cuts the file into ranges, and the workers take its indices from `next_index`, an
`std::atomic<int>` that each of them raises once more after the last chunk. `claims_of_runs` is for all
worker counts and interleavings: the indices claimed are the first ones of the plan, each once, and a
PUT carries the range its worker claimed last. The counter passes 2^31 when the chunks and the workers
are more than that together; what it returns then is negative, passes the test against the plan's size
and indexes the plan (`chunk_claims_iff`).
-/

namespace Cmlb.Upload.GoogleDrive

open WorkerPool

/-! ### The plan -/

/-- The ranges follow each other from `a` to `b`, and none is empty. -/
def Tiles : Nat → List ChunkPlan → Nat → Prop
  | a, [], b => a = b
  | a, cp :: plan, b => cp.offset = a ∧ 0 < cp.length ∧ Tiles (a + cp.length) plan b

/-- What the loop of the plan is to make, with its counter in an `int64_t`. -/
structure Resumable.Planned (R : Resumable) : Prop where
  tiles : Tiles 0 R.plan R.total
  aligned : ∀ cp ∈ R.plan.dropLast, 0 < cp.length ∧ kResumableAlignment ∣ cp.length
  counter : ∀ cp ∈ R.plan, cp.offset + R.chunkBytes < 9223372036854775808

namespace Resumable

variable {R : Resumable}

theorem tiles_planFrom (fuel off : Nat) (h : R.total ≤ off + fuel) :
    Tiles (min off R.total) (R.planFrom fuel off) R.total := by
  induction fuel generalizing off with
  | zero => exact Nat.min_eq_right h
  | succ fuel ih =>
    have hc := R.chunkBytes_pos
    unfold planFrom
    split
    · have hrest := ih (off + R.chunkBytes) (by omega)
      have hnext : min (off + R.chunkBytes) R.total =
          min off R.total + min R.chunkBytes (R.total - off) := by omega
      rw [hnext] at hrest
      refine ⟨?_, ?_, hrest⟩ <;> simp only <;> omega
    · exact Nat.min_eq_right (Nat.le_of_not_lt ‹_›)

theorem plan_getElem {k : Nat} (h : k < R.plan.length) : R.plan[k] = R.chunk k := by
  simp [chunk, h]

theorem alignment_dvd_chunkBytes : kResumableAlignment ∣ R.chunkBytes := Nat.dvd_mul_left _ _

/-- Only the last range is shorter than `chunk_bytes`. -/
theorem chunk_length_of_succ {k : Nat} (h : k + 1 < R.plan.length) : (R.chunk k).length = R.chunkBytes := by
  have hlt := lt_plan_length.1 h
  rw [chunk_eq (by omega)]
  rw [Nat.add_mul, Nat.one_mul] at hlt
  simp only
  omega

theorem chunk_length_pos {k : Nat} (h : k < R.plan.length) : 0 < (R.chunk k).length := by
  have hc := R.chunkBytes_pos
  have hlt := lt_plan_length.1 h
  rw [chunk_eq h]
  simp only
  omega

theorem chunkBytes_le (h : R.chunkSize < 9223372036854775808) :
    R.chunkBytes ≤ max R.chunkSize kResumableAlignment := by
  unfold chunkBytes
  have hle := Nat.div_mul_le_self
    (max ((R.chunkSize : Int).bmod 18446744073709551616) kResumableAlignment).toNat kResumableAlignment
  have hmod : (R.chunkSize : Int).bmod 18446744073709551616 = R.chunkSize := by
    rw [Int.bmod_def]
    omega
  rw [hmod] at hle ⊢
  omega

theorem planned (hfit : R.total + R.chunkSize < 9223372036854775808)
    (hfew : R.plan.length < 2147483648) : R.Planned where
  tiles := by
    have h := tiles_planFrom (R := R) R.total 0 (by omega)
    rwa [Nat.zero_min] at h
  aligned cp hcp := by
    obtain ⟨k, hk, rfl⟩ := List.mem_iff_getElem.1 hcp
    rw [List.length_dropLast] at hk
    rw [List.getElem_dropLast, plan_getElem, chunk_length_of_succ (by omega)]
    exact ⟨R.chunkBytes_pos, alignment_dvd_chunkBytes⟩
  counter cp hcp := by
    obtain ⟨k, hk, rfl⟩ := List.mem_iff_getElem.1 hcp
    have hlt := lt_plan_length.1 hk
    have hle := chunkBytes_le (R := R) (by omega)
    rw [plan_getElem, chunk_eq hk]
    by_cases hbig : kResumableAlignment ≤ R.chunkSize
    · simp only
      omega
    · -- a small `chunk_size` is rounded up, to a total of fewer than 2^31 blocks
      have hblock : R.chunkBytes ≤ kResumableAlignment := by omega
      have hmul := Nat.mul_le_mul (Nat.le_of_lt (Nat.lt_trans hk hfew)) hblock
      unfold kResumableAlignment at hmul hblock
      simp only
      omega

end Resumable

/-! ### Claims and PUTs -/

inductive WorkerAct (n : Nat)
  | claim (i : Fin n) (idx : Nat)
  | put (i : Fin n) (req : PutRequest)

variable {n : Nat} {ρ : Type}

namespace WorkerAct

def claimed : WorkerAct n → Option Nat
  | claim _ idx => some idx
  | put _ _ => none

def claimedBy (i : Fin n) : WorkerAct n → Option Nat
  | claim j idx => if j = i then some idx else none
  | put _ _ => none

end WorkerAct

/-- The chunk indices claimed by the workers, in the order of the claims. -/
def claims (l : List (WorkerAct n)) : List Nat := l.filterMap WorkerAct.claimed

def lastClaim (i : Fin n) (l : List (WorkerAct n)) : Option Nat :=
  (l.filterMap (WorkerAct.claimedBy i)).getLast?

/-- What a worker of the session `sessionUri` claims or sends at a step. -/
def workerActs (R : Resumable) (sessionUri : String) (i : Fin n) (sh : ChunkShared) :
    ChunkPc → ChunkEvent → List (WorkerAct n)
  | .claim, .run => if sh.nextIndex < R.plan.length then [.claim i sh.nextIndex] else []
  | .bearer idx _ _, .bearer (.ok token) =>
    [.put i (R.putRequest sessionUri token (R.chunk idx) (R.chunk idx).length)]
  | _, _ => []

def acts (R : Resumable) (sessionUri : String) (s : PoolState n ChunkShared ChunkPc ρ) :
    PoolEvent n ChunkEvent → List (WorkerAct n)
  | .act i (.run e) =>
    match s.locals i with
    | .running pc => workerActs R sessionUri i s.shared.body pc e
    | _ => []
  | _ => []

/-- The `Content-Range` and the body are those of the range `idx` of the plan. -/
def Resumable.Carries (R : Resumable) (idx : Nat) (req : PutRequest) : Prop :=
  ∃ cp, R.plan[idx]? = some cp ∧
    req.headers.lookup "Content-Range" = some ("bytes " ++ toString cp.offset ++ "-" ++
      toString (cp.offset + cp.length - 1) ++ "/" ++ toString R.total) ∧
    req.body = (List.range' cp.offset cp.length).map R.file

/-- Each PUT is for what its worker claimed last. -/
def PutsClaimed (R : Resumable) (l : List (WorkerAct n)) : Prop :=
  ∀ i req l', l' ++ [.put i req] <+: l → ∃ idx, lastClaim i l' = some idx ∧ R.Carries idx req

/-- No body ends but at a claim that found no chunk left. -/
def StaysToEnd (R : Resumable) (s : PoolState n ChunkShared ChunkPc ρ) :
    PoolEvent n ChunkEvent → Prop
  | .act i (.run e) => ∀ pc sh, s.locals i = .running pc →
      chunkWorker R s.shared.body pc e = some (sh, none) → pc = .claim
  | _ => True

/-- A worker's next step indexes the plan with a negative number. -/
def IndexesOutside (s : PoolState n ChunkShared ChunkPc ρ) : Prop :=
  ∃ i, s.locals i = .running .claim ∧ s.shared.body.fetched < 0

/-- What the claims and PUTs of every run of the workers are to be. -/
def Resumable.ClaimsRight (R : Resumable) (sessionUri : String) : Prop :=
  ∀ t s, (chunkPool R).Runs (chunkStart R) t s →
    let l := (chunkPool R).trail (acts R sessionUri) (chunkStart R) t
    ¬ IndexesOutside s ∧ (claims l).Nodup ∧ (∀ idx ∈ claims l, idx < R.plan.length) ∧
    ((chunkPool R).Steps (StaysToEnd R) (chunkStart R) t s → (∀ i, (s.locals i).stage = .left) →
      ∀ idx < R.plan.length, idx ∈ claims l) ∧
    PutsClaimed R l

section

@[simp]
theorem claims_append (l l' : List (WorkerAct n)) : claims (l ++ l') = claims l ++ claims l' :=
  List.filterMap_append

@[simp]
theorem claims_claim (i : Fin n) (idx : Nat) : claims [.claim i idx] = [idx] := rfl

@[simp]
theorem claims_put (i : Fin n) (req : PutRequest) : claims [.put i req] = [] := rfl

@[simp]
theorem lastClaim_put (i j : Fin n) (req : PutRequest) (l : List (WorkerAct n)) :
    lastClaim i (l ++ [.put j req]) = lastClaim i l := by
  simp [lastClaim, WorkerAct.claimedBy]

@[simp]
theorem lastClaim_claim (i : Fin n) (idx : Nat) (l : List (WorkerAct n)) :
    lastClaim i (l ++ [.claim i idx]) = some idx := by
  simp [lastClaim, WorkerAct.claimedBy]

theorem lastClaim_claim_of_ne {i j : Fin n} (h : j ≠ i) (idx : Nat) (l : List (WorkerAct n)) :
    lastClaim i (l ++ [.claim j idx]) = lastClaim i l := by
  simp [lastClaim, WorkerAct.claimedBy, h]

theorem PutsClaimed.claim {R : Resumable} {l : List (WorkerAct n)} (h : PutsClaimed R l) (i : Fin n)
    (idx : Nat) : PutsClaimed R (l ++ [.claim i idx]) := by
  intro j req l' hl
  rcases List.prefix_concat_iff.1 hl with heq | hl
  · cases (List.append_inj' heq rfl).2
  · exact h j req l' hl

theorem PutsClaimed.put {R : Resumable} {l : List (WorkerAct n)} (h : PutsClaimed R l) {i : Fin n}
    {req : PutRequest} {idx : Nat} (hlast : lastClaim i l = some idx) (hreq : R.Carries idx req) :
    PutsClaimed R (l ++ [.put i req]) := by
  intro j req' l' hl
  rcases List.prefix_concat_iff.1 hl with heq | hl
  · obtain ⟨rfl, hput⟩ := List.append_inj' heq rfl
    cases hput
    exact ⟨idx, hlast, hreq⟩
  · exact h j req' l' hl

end

theorem Resumable.carries_putRequest {R : Resumable} {idx : Nat} (h : idx < R.plan.length)
    (sessionUri token : String) :
    R.Carries idx (R.putRequest sessionUri token (R.chunk idx) (R.chunk idx).length) := by
  have hpos := chunk_length_pos h
  refine ⟨R.chunk idx, ?_, ?_, ?_⟩
  · rw [List.getElem?_eq_getElem h, plan_getElem]
  · have hlast : ((R.chunk idx).offset : Int) + (R.chunk idx).length - 1 =
        ((R.chunk idx).offset + (R.chunk idx).length - 1 : Nat) := by omega
    rw [putRequest, hlast]
    rfl
  · rw [putRequest, bytes, List.range'_eq_map_range, List.map_map]
    rfl

/-! ### One step -/

variable {R : Resumable} {sessionUri : String} {sh sh' : ChunkShared} {pc : ChunkPc} {e : ChunkEvent}
  {o : Option ChunkPc} {i : Fin n}

/-- A step that is no claim leaves the counter and goes to no other chunk. -/
structure KeepsIndex (sh : ChunkShared) (pc : ChunkPc) (sh' : ChunkShared) (o : Option ChunkPc) : Prop where
  next : sh'.nextIndex = sh.nextIndex
  index : ∀ pc' idx, o = some pc' → pc'.index = some idx → pc.index = some idx

/-- The worker leaves. -/
theorem KeepsIndex.left (h : sh'.nextIndex = sh.nextIndex) : KeepsIndex sh pc sh' none :=
  ⟨h, fun _ _ ho => by cases ho⟩

theorem KeepsIndex.goesOn {pc' : ChunkPc} (h : sh'.nextIndex = sh.nextIndex)
    (hindex : ∀ idx, pc'.index = some idx → pc.index = some idx) : KeepsIndex sh pc sh' (some pc') := by
  refine ⟨h, fun pc' idx ho hidx => ?_⟩
  cases ho
  exact hindex idx hidx

theorem keepsIndex_bail {err : AppError} (h : bail sh err = some (sh', o)) : KeepsIndex sh pc sh' o := by
  cases h
  exact .left rfl

theorem keepsIndex_retry {idx attempt : Nat} {refreshed : Bool} {r : Result HttpResponse}
    (h : retry R sh idx attempt refreshed r = some (sh', o)) :
    KeepsIndex sh (.answered idx attempt refreshed r) sh' o := by
  rcases retry_cases R idx attempt refreshed r with ⟨err, hbail⟩ | ⟨pc, hpc, hstays⟩
  · exact keepsIndex_bail (hbail sh ▸ h)
  · rw [hstays] at h
    cases h
    refine .goesOn rfl fun k hk => ?_
    rwa [hpc] at hk

theorem keepsIndex_conclude {resp : HttpResponse} (h : conclude R sh resp = some (sh', o)) :
    KeepsIndex sh pc sh' o := by
  rcases conclude_cases R resp with ⟨err, hbail⟩ | ⟨id, hid⟩ | hmore
  · exact keepsIndex_bail (hbail sh ▸ h)
  · rw [hid] at h
    cases h
    exact .goesOn rfl fun _ hk => by cases hk
  · rw [hmore] at h
    cases h
    exact .goesOn rfl fun _ hk => by cases hk

theorem keepsIndex (hpc : pc ≠ .claim) (h : chunkWorker R sh pc e = some (sh', o)) :
    KeepsIndex sh pc sh' o := by
  cases chunkWorker_move h with
  | exhausted | claimed => exact absurd rfl hpc
  | unopened | aborted | cancelled | shortRead | abandoned | unauthorized | dropped | threw =>
    exact .left rfl
  | opened | goesOn | notCancelled | read | retried | authorized | put | unanswered | routed =>
    exact .goesOn rfl fun _ hk => hk
  | retries _ _ _ _ _ _ hretry => exact keepsIndex_retry hretry
  | concludes _ _ _ _ hconclude => exact keepsIndex_conclude hconclude

/-- A step that is no claim notes nothing, or the PUT of the chunk its worker is at. -/
theorem workerActs_inv (sessionUri : String) (i : Fin n) (sh : ChunkShared) (e : ChunkEvent)
    (hpc : pc ≠ .claim) : workerActs R sessionUri i sh pc e = [] ∨
      ∃ idx token, pc.index = some idx ∧ workerActs R sessionUri i sh pc e =
        [.put i (R.putRequest sessionUri token (R.chunk idx) (R.chunk idx).length)] := by
  unfold workerActs
  split
  · exact absurd rfl hpc
  · exact .inr ⟨_, _, rfl, rfl⟩
  · exact .inl rfl

theorem claim_inv (h : chunkWorker R sh .claim e = some (sh', o)) :
    e = .run ∧ sh' = { sh with toQueue := sh.claimed } ∧
      o = if R.plan.length ≤ sh.nextIndex then none else some (.reading sh.nextIndex) := by
  cases chunkWorker_move h with
  | exhausted hle => exact ⟨rfl, rfl, (if_pos hle).symm⟩
  | claimed hlt => exact ⟨rfl, rfl, (if_neg (Nat.not_le_of_lt hlt)).symm⟩
  | threw _ _ hidx => cases hidx

/-! ### Whole runs -/

abbrev ChunkState (n : Nat) := PoolState n ChunkShared ChunkPc (Result UploadResult)

/-- The indices claimed are the first ones of the plan, as many as the counter says, and each worker is
at the chunk it claimed last. -/
structure ClaimInv (R : Resumable) (l : List (WorkerAct n)) (s : ChunkState n) : Prop where
  claims : claims l = List.range (min s.shared.body.nextIndex R.plan.length)
  last : ∀ i pc idx, s.locals i = .running pc → pc.index = some idx →
    lastClaim i l = some idx ∧ idx < R.plan.length
  puts : PutsClaimed R l

namespace ClaimInv

variable {l : List (WorkerAct n)} {s s' : ChunkState n}

/-- A step of the pool that is no step of a body. -/
theorem idle {p : Parent (Result UploadResult)} {live : Int} {w : Fin n → Worker ChunkPc}
    (h : ClaimInv R l s) (hw : ∀ i pc idx, w i = .running pc → pc.index = some idx → s.locals i = .running pc) :
    ClaimInv R l ⟨⟨p, live, s.shared.body⟩, w⟩ where
  claims := h.claims
  last i pc idx hi hidx := h.last i pc idx (hw i pc idx hi hidx) hidx
  puts := h.puts

theorem idle_update {p : Parent (Result UploadResult)} {live : Int} {v : Worker ChunkPc}
    (h : ClaimInv R l s) (hv : ∀ pc idx, v = .running pc → pc.index ≠ some idx) :
    ClaimInv R l ⟨⟨p, live, s.shared.body⟩, Function.update s.locals i v⟩ := by
  refine h.idle fun j pc idx hj hidx => ?_
  rcases eq_of_update_eq hj with ⟨-, ho⟩ | ⟨-, hj⟩
  · exact absurd hidx (hv pc idx ho)
  · exact hj

/-- A step of a body that is no claim. -/
theorem keeps (h : ClaimInv R l s) (hw : s.locals i = .running pc)
    (hk : KeepsIndex s.shared.body pc sh' o) :
    ClaimInv R l ⟨{ s.shared with body := sh' }, Function.update s.locals i (.after o)⟩ where
  claims := by
    rw [h.claims, hk.next]
  last j pc' idx hj hidx := by
    rcases eq_of_update_eq hj with ⟨rfl, ho⟩ | ⟨-, hj⟩
    · cases o with
      | none => cases ho
      | some q =>
        cases ho
        exact h.last j pc idx hw (hk.index _ idx rfl hidx)
    · exact h.last j pc' idx hj hidx
  puts := h.puts

theorem put {req : PutRequest} {idx : Nat} (h : ClaimInv R l s) (hw : s.locals i = .running pc)
    (hidx : pc.index = some idx) (hreq : R.Carries idx req) : ClaimInv R (l ++ [.put i req]) s where
  claims := by rw [claims_append, claims_put, List.append_nil, h.claims]
  last j pc' k hj hk := by
    rw [lastClaim_put]
    exact h.last j pc' k hj hk
  puts := h.puts.put (h.last i pc idx hw hidx).1 hreq

theorem claimed (h : ClaimInv R l s) (hlt : s.shared.body.nextIndex < R.plan.length) :
    ClaimInv R (l ++ [.claim i s.shared.body.nextIndex])
      ⟨{ s.shared with body := { s.shared.body with toQueue := s.shared.body.claimed } },
        Function.update s.locals i (.after (some (.reading s.shared.body.nextIndex)))⟩ where
  claims := by
    have hnow : min s.shared.body.nextIndex R.plan.length = s.shared.body.nextIndex := by omega
    have hthen : min (s.shared.body.nextIndex + 1) R.plan.length = s.shared.body.nextIndex + 1 := by omega
    rw [claims_append, claims_claim, h.claims, hnow]
    show _ = List.range (min (s.shared.body.nextIndex + 1) R.plan.length)
    rw [hthen, List.range_succ]
  last j pc idx hj hidx := by
    rcases eq_of_update_eq hj with ⟨rfl, ho⟩ | ⟨hne, hj⟩
    · cases ho
      cases hidx
      exact ⟨lastClaim_claim .., hlt⟩
    · rw [lastClaim_claim_of_ne (Ne.symm hne)]
      exact h.last j pc idx hj hidx
  puts := h.puts.claim i _

theorem exhausted (h : ClaimInv R l s) (hle : R.plan.length ≤ s.shared.body.nextIndex) :
    ClaimInv R l ⟨{ s.shared with body := { s.shared.body with toQueue := s.shared.body.claimed } },
      Function.update s.locals i (.after none)⟩ where
  claims := by
    have hsame : min (s.shared.body.nextIndex + 1) R.plan.length =
        min s.shared.body.nextIndex R.plan.length := by omega
    show _ = List.range (min (s.shared.body.nextIndex + 1) R.plan.length)
    rw [hsame, h.claims]
  last j pc idx hj hidx := by
    rcases eq_of_update_eq hj with ⟨-, ho⟩ | ⟨-, hj⟩
    · cases ho
    · exact h.last j pc idx hj hidx
  puts := h.puts

theorem run (h : ClaimInv R l s) (hw : s.locals i = .running pc)
    (hs : chunkWorker R s.shared.body pc e = some (sh', o)) :
    ClaimInv R (l ++ workerActs R sessionUri i s.shared.body pc e)
      ⟨{ s.shared with body := sh' }, Function.update s.locals i (.after o)⟩ := by
  by_cases hpc : pc = .claim
  · subst hpc
    obtain ⟨rfl, rfl, rfl⟩ := claim_inv hs
    by_cases hlt : s.shared.body.nextIndex < R.plan.length
    · rw [if_neg (Nat.not_le_of_lt hlt), workerActs, if_pos hlt]
      exact h.claimed hlt
    · rw [if_pos (Nat.le_of_not_lt hlt), workerActs, if_neg hlt, List.append_nil]
      exact h.exhausted (Nat.le_of_not_lt hlt)
  · have hk := keepsIndex hpc hs
    rcases workerActs_inv sessionUri i s.shared.body e hpc with hacts | ⟨idx, token, hidx, hacts⟩
    · rw [hacts, List.append_nil]
      exact h.keeps hw hk
    · rw [hacts]
      exact (h.put hw hidx (Resumable.carries_putRequest (h.last i pc idx hw hidx).2 _ _)).keeps hw hk

theorem step {ev : PoolEvent n ChunkEvent} (h : ClaimInv R l s) (hs : PoolStep (chunkBody R) s ev s') :
    ClaimInv R (l ++ acts R sessionUri s ev) s' := by
  cases hs with
  | run hw hb =>
    simp only [acts, hw]
    exact h.run hw hb
  | spawn | startWait | abandon | interrupt | resume =>
    simp only [acts, List.append_nil]
    exact h.idle fun _ _ _ hi _ => hi
  | start hw =>
    simp only [acts, List.append_nil]
    refine h.idle_update fun pc idx hpc => ?_
    cases hpc
    exact fun h => by cases h
  | exit hw =>
    simp only [acts, List.append_nil]
    refine h.idle_update fun pc idx hpc => ?_
    split at hpc <;> cases hpc
  | cancel hw =>
    simp only [acts, List.append_nil]
    exact h.idle_update fun pc idx hpc => by cases hpc

theorem start (R : Resumable) : ClaimInv R [] (chunkStart R) where
  claims := by
    show [] = List.range (min 0 R.plan.length)
    rw [Nat.zero_min]
    rfl
  last i pc idx hi := by cases hi
  puts i req l' hl := by simp at hl

end ClaimInv

variable {P : ChunkState R.parallelism → PoolEvent R.parallelism ChunkEvent → Prop}
  {s : ChunkState R.parallelism} {t : List (PoolEvent R.parallelism ChunkEvent)}

theorem claims_of_runs (sessionUri : String) (h : (chunkPool R).Steps P (chunkStart R) t s) :
    ClaimInv R ((chunkPool R).trail (acts R sessionUri) (chunkStart R) t) s :=
  h.trail_invariant (I := ClaimInv R) (.start R) fun _ _ _ _ _ hi hs => hi.step (step_inv hs)

theorem nextIndex_le (h : chunkWorker R sh pc e = some (sh', o)) : sh.nextIndex ≤ sh'.nextIndex := by
  by_cases hpc : pc = .claim
  · subst hpc
    obtain ⟨-, rfl, -⟩ := claim_inv h
    exact Nat.le_succ _
  · exact (keepsIndex hpc h).next.ge

/-- A worker that has left stayed to the end of the plan. -/
theorem all_claimed (h : (chunkPool R).Steps (StaysToEnd R) (chunkStart R) t s) (i : Fin R.parallelism)
    (hi : (s.locals i).stage = .left) : R.plan.length ≤ s.shared.body.nextIndex := by
  refine rule (A := fun _ sh v => ∀ i, v i = .left → R.plan.length ≤ sh.nextIndex) ?_ ?_
    (fun _ _ hA _ => hA) (fun _ _ hA => hA) (fun _ _ hA => hA) (.start _) (fun j hj => by cases hj) h i hi
  · intro _ sh v k hA _ j hj
    rcases eq_of_update_eq hj with ⟨-, hrunning⟩ | ⟨-, hj⟩
    · cases hrunning
    · exact hA j hj
  · intro s k pc x sh' o hstay hA hw hb j hj
    rcases eq_of_update_eq hj with ⟨rfl, hleft⟩ | ⟨-, hj⟩
    · cases o with
      | some pc' => cases hleft
      | none =>
        obtain rfl := hstay pc sh' hw hb
        obtain ⟨-, rfl, ho⟩ := claim_inv hb
        split at ho
        · exact Nat.le_succ_of_le ‹_›
        · cases ho
    · exact Nat.le_trans (hA j hj) (nextIndex_le hb)

/-- The counter is raised past the plan's end by a worker that leaves. -/
theorem nextIndex_step (h : chunkWorker R sh pc e = some (sh', o)) :
    sh'.nextIndex ≤ R.plan.length ∨ sh'.nextIndex ≤ sh.nextIndex + hasLeft (.after o) := by
  by_cases hpc : pc = .claim
  · subst hpc
    obtain ⟨-, rfl, rfl⟩ := claim_inv h
    split
    · exact .inr (Nat.le_refl _)
    · exact .inl (Nat.lt_of_not_le ‹_›)
  · exact .inr ((keepsIndex hpc h).next.le.trans (Nat.le_add_right _ _))

/-- While the counter fits, what it returns is an index of the plan or past its end. -/
theorem not_indexesOutside (hfit : R.plan.length + R.parallelism ≤ 2147483648)
    (h : (chunkPool R).Steps P (chunkStart R) t s) : ¬ IndexesOutside s := by
  rintro ⟨i, hi, hneg⟩
  have hlt := next_lt_of_running (fun sh : ChunkShared => sh.nextIndex) (B := chunkBody R)
    (fun _ _ _ _ _ => nextIndex_step) (Nat.zero_le _) h hi
  unfold Queue.fetched at hneg
  rw [Int.bmod_def] at hneg
  omega

theorem claimsRight (sessionUri : String) (hfit : R.plan.length + R.parallelism ≤ 2147483648) :
    R.ClaimsRight sessionUri := by
  intro t s h
  have hinv := claims_of_runs sessionUri h
  refine ⟨not_indexesOutside hfit h, ?_, fun idx hidx => ?_, fun hstay hleft idx hidx => ?_, hinv.puts⟩
  · rw [hinv.claims]
    exact List.nodup_range
  · rw [hinv.claims, List.mem_range] at hidx
    omega
  · have hall := all_claimed hstay ⟨0, R.parallelism_pos⟩ (hleft _)
    rw [hinv.claims, List.mem_range]
    omega

/-! ### The counter past 2^31 -/

theorem alone_toClaim (habort : sh.abort = false) :
    Alone (chunkBody R) (fun _ _ => True) sh .checkAbort sh (some .claim) := by
  have hgoes : (chunkBody R).step sh .checkAbort .run = some (sh, some .checkCancel) := by
    simp [chunkBody, chunkWorker, habort]
  exact .cons trivial hgoes (.cons (e := .cancelState false) trivial rfl (.nil sh _))

/-- A chunk is read, sent and answered with 308. -/
theorem alone_sends (sh : ChunkShared) (idx : Nat) (habort : sh.abort = false) : Alone (chunkBody R) (fun _ _ => True) sh
    (.reading idx) { sh with puts := sh.puts ++ [(R.chunk idx, ⟨308, "", []⟩)] } (some .claim) := by
  have hread : (chunkBody R).step sh (.reading idx) (.read (R.chunk idx).length) =
      some (sh, some (.bearer idx 0 false)) := if_pos rfl
  have hroute : ∀ sh : ChunkShared, sh.abort = false → (chunkBody R).step sh (.routing idx ⟨308, "", []⟩) .run =
      some (sh, some (.deciding idx ⟨308, "", []⟩)) := by
    intro sh habort
    simp [chunkBody, chunkWorker, habort]
  exact .cons trivial hread (.cons (e := .bearer (.ok "")) trivial rfl
    (.cons (e := .answer (.ok ⟨308, "", []⟩)) trivial rfl (.cons (e := .run) trivial rfl
    (.cons trivial (hroute { sh with puts := sh.puts ++ [(R.chunk idx, ⟨308, "", []⟩)] } habort)
    (.cons (e := .run) trivial rfl (alone_toClaim habort))))))

/-- A worker that nobody disturbs sends one chunk after the other. -/
theorem claims_chunkBody (R : Resumable) : Claims (chunkBody R) (fun _ _ => True)
    (fun sh => sh.abort = false) (fun sh => sh.nextIndex) .claim R.plan.length 2147483648 where
  begins sh habort := ⟨sh, .cons (e := .opened true) trivial rfl (alone_toClaim habort), habort, rfl⟩
  works sh habort hlt hfew := by
    refine ⟨{ sh with toQueue := sh.claimed, puts := sh.puts ++ [(R.chunk sh.nextIndex, ⟨308, "", []⟩)] },
      .cons (e := .run) trivial ?_ (alone_sends { sh with toQueue := sh.claimed } sh.nextIndex habort),
      habort, rfl⟩
    simp [chunkBody, chunkWorker, hfew, Nat.not_le_of_lt hlt]
  leaves sh habort hle hfew := by
    refine ⟨{ sh with toQueue := sh.claimed }, .last (e := .run) trivial ?_, habort, rfl⟩
    simp [chunkBody, chunkWorker, hfew, hle]

/-- With too many chunks and workers for the counter, a worker indexes the plan out of bounds. -/
theorem exists_indexesOutside (hfew : R.plan.length < 2147483648)
    (hmany : 2147483648 < R.plan.length + R.parallelism) :
    ∃ t s, (chunkPool R).Runs (chunkStart R) t s ∧ IndexesOutside s := by
  have hallows : Allows (fun (_ : ChunkState R.parallelism) (_ : PoolEvent R.parallelism ChunkEvent) => True)
      fun (_ : ChunkPc) (_ : ChunkEvent) => True := ⟨fun _ => trivial, fun _ _ => trivial, fun _ _ _ _ _ _ => trivial⟩
  obtain ⟨t, s, i, h, hw, hnext⟩ :=
    (claims_chunkBody R).exists_claim_at hallows {} rfl rfl hfew hmany
  refine ⟨t, s, h, i, hw, ?_⟩
  unfold Queue.fetched
  rw [hnext]
  decide

/-- For fewer than 2^31 chunks: the plan cuts the file into ranges that follow each other, aligned but
for the last. In every run of the workers each index is claimed at most once, all are when no worker
stops early, and a PUT carries what its worker claimed, exactly when the counter takes the chunks and
one more for each worker. -/
theorem chunk_claims_iff (R : Resumable) (sessionUri : String)
    (hfit : R.total + R.chunkSize < 9223372036854775808) (hfew : R.plan.length < 2147483648) :
    R.Planned ∧ R.ClaimsRight sessionUri ↔ R.plan.length + R.parallelism ≤ 2147483648 := by
  constructor
  · rintro ⟨-, hright⟩
    by_contra hmany
    obtain ⟨t, s, h, hout⟩ := exists_indexesOutside hfew (Nat.lt_of_not_le hmany)
    exact (hright t s h).1 hout
  · exact fun h => ⟨Resumable.planned hfit hfew, claimsRight sessionUri h⟩

theorem chunk_claims_two_chunks : twoChunks.Planned ∧ twoChunks.ClaimsRight "session" := by
  have hplan : twoChunks.plan.length + twoChunks.parallelism ≤ 2147483648 := by decide
  exact (chunk_claims_iff twoChunks "session" (by decide) (by decide)).2 hplan

/-- 2^31 - 1 blocks, for two workers. -/
def manyChunks : Resumable := ⟨idParser, "f", fun _ => 0, 562949953159168, 262144, 2, 6⟩

theorem manyChunks_plan_length : manyChunks.plan.length = 2147483647 := by
  have hbytes : manyChunks.chunkBytes = 262144 := by decide
  have hlt : ∀ k, k < manyChunks.plan.length ↔ k < 2147483647 := by
    intro k
    rw [Resumable.lt_plan_length, hbytes]
    show k * 262144 < 562949953159168 ↔ _
    omega
  have h₁ := (hlt 2147483647).not.2 (Nat.lt_irrefl _)
  have h₂ := (hlt 2147483646).2 (by decide)
  omega

theorem claim_past_int : manyChunks.total + manyChunks.chunkSize < 9223372036854775808 ∧
    manyChunks.plan.length < 2147483648 ∧ ¬ manyChunks.ClaimsRight "session" := by
  have hlen := manyChunks_plan_length
  have hpar : manyChunks.parallelism = 2 := by
    unfold Resumable.parallelism
    rw [hlen]
    decide
  refine ⟨by decide, by omega, fun hright => ?_⟩
  obtain ⟨t, s, h, hout⟩ := exists_indexesOutside (R := manyChunks) (by omega) (by omega)
  exact (hright t s h).1 hout

end Cmlb.Upload.GoogleDrive
