import Cmlb.Upload.Pools

/-!
# The parts of a split file and the messenger (`TelegramUploader::upload_file`)

The pool of `partsPool` next to the files it sends. TDLib answers a `sendMessage` before it has read
the file, so the messenger reads a part from the moment a worker goes on to `send_file` with it until
the update that reports the message as sent or failed. `PartsCleanup` deletes the parts, one after
the other, once the call has left the scope of the pool, and it waits for nothing. No part is deleted
while it is read exactly if the call leaves when the messenger is done with every part, and no worker
comes to `send_file` later with a part that is still to be deleted (`parts_live_iff`). That is so when
the caller is not cancelled and every send is answered after its update (`inTime_of_answered`).
-/

namespace Cmlb.Upload.Telegram

open WorkerPool

abbrev PartsPool (n : Nat) := PoolState n PartsShared PartPc (Result UploadResult)

/-- `reading` are the parts that the messenger has and has not reported as sent or failed, `cleaned` is
how many parts the cleanup has been through, `removed` are those that it has deleted. -/
structure Split (n : Nat) where
  pool : PartsPool n
  reading : Nat → Bool
  cleaned : Nat
  removed : Nat → Bool

/-- `sendEnded` is `updateMessageSendSucceeded` or `updateMessageSendFailed` for the message of the
part, or its refusal; `remove` is the next `fs::remove` of the cleanup, which may fail. -/
inductive SplitEvent (n : Nat)
  | pool (e : PoolEvent n PartEvent)
  | sendEnded (idx : Nat)
  | remove (ok : Bool)

variable {n : Nat}

/-- The part with which a worker goes on to `send_file`: the one it has got the size of. -/
def handedOver (p : PartsPool n) : PoolEvent n PartEvent → Option Nat
  | .act i (.run (.fileSize (.ok _))) =>
    match p.locals i with
    | .running (.sizing idx) => some idx
    | _ => none
  | _ => none

/-- The pool, the messenger and the cleanup take steps in any order. `fs::file_size` fails on a file
that has been deleted. -/
def splitMachine (n totalParts : Nat) : Machine (Split n) (SplitEvent n) where
  step s
    | .pool e =>
      match handedOver s.pool e with
      | none => ((WorkerPool.pool (partsBody totalParts) n).machine.step s.pool e).map fun p =>
          { s with pool := p }
      | some idx =>
        if s.removed idx then none
        else ((WorkerPool.pool (partsBody totalParts) n).machine.step s.pool e).map fun p =>
          { s with pool := p, reading := Function.update s.reading idx true }
    | .sendEnded idx =>
      if s.reading idx then some { s with reading := Function.update s.reading idx false } else none
    | .remove ok =>
      if s.pool.shared.parent.over = true ∧ s.cleaned < totalParts then
        some { s with cleaned := s.cleaned + 1,
                      removed := if ok then Function.update s.removed s.cleaned true else s.removed }
      else none

def uploadParts (configured : Int) (totalParts : Nat) :=
  splitMachine (partParallelism configured totalParts) totalParts

def splitStart (configured : Int) (totalParts : Nat) : Split (partParallelism configured totalParts) :=
  ⟨partsStart configured totalParts, fun _ => false, 0, fun _ => false⟩

/-- A part has been deleted while the messenger was reading it. -/
def LostPart (s : Split n) : Prop := ∃ idx, s.removed idx = true ∧ s.reading idx = true

/-- The call leaves the scope of the pool (it returns, or is cancelled before its wait) only when the
messenger reads no part, and a worker goes on to `send_file` only with a part that the cleanup has
passed already, if it has begun. -/
def InTime (s : Split n) : SplitEvent n → Prop
  | .pool (.env .resume) => ∀ idx, s.reading idx = false
  | .pool (.env .interrupt) => s.pool.shared.parent = .waiting ∨ ∀ idx, s.reading idx = false
  | .pool (.act i x) => ∀ idx, handedOver s.pool (.act i x) = some idx →
      s.pool.shared.parent.over = true → idx < s.cleaned
  | _ => True

/-- No state on the way of `t`, or of the deletions that can follow on the way, has lost a part. -/
def PartsLive (configured : Int) (totalParts : Nat)
    (t : List (SplitEvent (partParallelism configured totalParts))) : Prop :=
  ∀ t₁ m s₁, t₁ <+: t →
    (uploadParts configured totalParts).Runs (splitStart configured totalParts)
      (t₁ ++ List.replicate m (.remove true)) s₁ → ¬ LostPart s₁

variable {totalParts : Nat} {s s' : Split n} {e : SplitEvent n} {p p' : PartsPool n}
  {x : PoolEvent n PartEvent} {idx : Nat}

/-! ### What a step can do -/

theorem handedOver_inv (h : handedOver p x = some idx) :
    ∃ i size, x = .act i (.run (.fileSize (.ok size))) ∧ p.locals i = .running (.sizing idx) := by
  unfold handedOver at h
  split at h
  · split at h
    · cases h
      exact ⟨_, _, rfl, ‹_›⟩
    · cases h
  · cases h

inductive SplitStep (totalParts : Nat) (s : Split n) : SplitEvent n → Split n → Prop
  | pool {x : PoolEvent n PartEvent} {p : PartsPool n} (hx : handedOver s.pool x = none)
      (hs : PoolStep (partsBody totalParts) s.pool x p) :
      SplitStep totalParts s (.pool x) { s with pool := p }
  | hand {x : PoolEvent n PartEvent} {p : PartsPool n} {idx : Nat}
      (hx : handedOver s.pool x = some idx) (hr : s.removed idx = false)
      (hs : PoolStep (partsBody totalParts) s.pool x p) :
      SplitStep totalParts s (.pool x)
        { s with pool := p, reading := Function.update s.reading idx true }
  | sendEnded (idx : Nat) (hr : s.reading idx = true) :
      SplitStep totalParts s (.sendEnded idx) { s with reading := Function.update s.reading idx false }
  | remove (ok : Bool) (ho : s.pool.shared.parent.over = true) (hc : s.cleaned < totalParts) :
      SplitStep totalParts s (.remove ok)
        { s with cleaned := s.cleaned + 1,
                 removed := if ok then Function.update s.removed s.cleaned true else s.removed }

theorem split_inv (h : (splitMachine n totalParts).step s e = some s') : SplitStep totalParts s e s' := by
  cases e with
  | pool x =>
    simp only [splitMachine] at h
    split at h
    · rename_i hx
      obtain ⟨p, hp, rfl⟩ := Option.map_eq_some_iff.1 h
      exact .pool hx (step_inv hp)
    · rename_i idx hx
      split at h
      · cases h
      · rename_i hr
        obtain ⟨p, hp, rfl⟩ := Option.map_eq_some_iff.1 h
        exact .hand hx (eq_false_of_ne_true hr) (step_inv hp)
  | sendEnded idx =>
    simp only [splitMachine] at h
    split at h
    · cases h
      exact .sendEnded idx ‹_›
    · cases h
  | remove ok =>
    simp only [splitMachine] at h
    split at h
    · rename_i hc
      cases h
      exact .remove ok hc.1 hc.2
    · cases h

/-- The call is over by its return or by a cancellation before its wait, and it stays over. -/
theorem over_step (hs : PoolStep (partsBody totalParts) p x p') (ho : p'.shared.parent.over = true) :
    p.shared.parent.over = true ∨ x = .env .resume ∨
      x = .env .interrupt ∧ p.shared.parent ≠ .waiting := by
  cases hs with
  | spawn | startWait | interrupt => cases ho
  | abandon hp =>
    refine .inr (.inr ⟨rfl, ?_⟩)
    rw [hp]
    exact fun h => by cases h
  | resume => exact .inr (.inl rfl)
  | start | run | exit => exact .inl ho
  | cancel =>
    refine .inl ?_
    cases hp : p.shared.parent with
    | waiting => simp [hp, Parent.cancelled, Parent.over] at ho
    | spawning | woken | returned | threw => simpa [hp, Parent.cancelled] using ho

theorem over_stays (hs : PoolStep (partsBody totalParts) p x p') (ho : p.shared.parent.over = true) :
    p'.shared.parent.over = true := by
  cases hs with
  | spawn hp | startWait hp | abandon hp | interrupt hp | resume hp =>
    rw [hp] at ho
    cases ho
  | start | run | exit => exact ho
  | cancel =>
    cases hp : p.shared.parent with
    | waiting =>
      rw [hp] at ho
      cases ho
    | spawning | woken | returned | threw => simpa [hp, Parent.cancelled] using ho

theorem over_hand (hs : PoolStep (partsBody totalParts) p x p') (hx : handedOver p x = some idx) :
    p'.shared.parent = p.shared.parent := by
  obtain ⟨i, size, rfl, -⟩ := handedOver_inv hx
  cases hs with
  | run => rfl

/-! ### No part is lost -/

/-- A part that is read has not been deleted, and the cleanup does not come to it any more. -/
structure Kept (s : Split n) : Prop where
  live : ∀ k, s.reading k = true → s.removed k = false
  passed : ∀ k, s.reading k = true → s.pool.shared.parent.over = true → k < s.cleaned

theorem Kept.pool (h : Kept s) (hp : InTime s (.pool x))
    (hs : PoolStep (partsBody totalParts) s.pool x p) : Kept { s with pool := p } := by
  refine ⟨h.live, ?_⟩
  intro k hk ho
  rcases over_step hs ho with ho | rfl | ⟨rfl, hwait⟩
  · exact h.passed k hk ho
  · have hidle := hp k
    rw [hk] at hidle
    cases hidle
  · have hidle := hp.resolve_left hwait k
    rw [hk] at hidle
    cases hidle

theorem Kept.hand (h : Kept s) (hp : InTime s (.pool x)) (hx : handedOver s.pool x = some idx)
    (hr : s.removed idx = false) (hs : PoolStep (partsBody totalParts) s.pool x p) :
    Kept { s with pool := p, reading := Function.update s.reading idx true } := by
  have hover := over_hand hs hx
  constructor
  · intro k hk
    rcases eq_of_update_eq hk with ⟨rfl, -⟩ | ⟨-, hk⟩
    · exact hr
    · exact h.live k hk
  · intro k hk ho
    rw [hover] at ho
    rcases eq_of_update_eq hk with ⟨rfl, -⟩ | ⟨-, hk⟩
    · obtain ⟨i, size, rfl, -⟩ := handedOver_inv hx
      exact hp k hx ho
    · exact h.passed k hk ho

theorem Kept.remove (h : Kept s) (ok : Bool) (ho : s.pool.shared.parent.over = true) :
    Kept { s with cleaned := s.cleaned + 1,
                  removed := if ok then Function.update s.removed s.cleaned true else s.removed } := by
  constructor
  · intro k hk
    have hlt := h.passed k hk ho
    have hne : k ≠ s.cleaned := by omega
    cases ok with
    | false => exact h.live k hk
    | true => simpa [hne] using h.live k hk
  · intro k hk _
    exact Nat.lt_succ_of_lt (h.passed k hk ho)

theorem Kept.step (h : Kept s) (hp : InTime s e) (hs : SplitStep totalParts s e s') : Kept s' := by
  cases hs with
  | pool hx hs => exact h.pool hp hs
  | hand hx hr hs => exact h.hand hp hx hr hs
  | sendEnded idx =>
    have hold : ∀ k, Function.update s.reading idx false k = true → s.reading k = true := by
      intro k hk
      rcases eq_of_update_eq hk with ⟨-, hk⟩ | ⟨-, hk⟩
      · cases hk
      · exact hk
    exact ⟨fun k hk => h.live k (hold k hk), fun k hk => h.passed k (hold k hk)⟩
  | remove ok ho => exact h.remove ok ho

theorem Kept.not_lost (h : Kept s) : ¬ LostPart s := by
  rintro ⟨k, hremoved, hreading⟩
  rw [h.live k hreading] at hremoved
  cases hremoved

/-! ### A part is lost -/

/-- Workers take the parts that there are, and the cleanup waits for the end of the call. -/
structure Bounds (totalParts : Nat) (s : Split n) : Prop where
  sizing : ∀ i k, s.pool.locals i = .running (.sizing k) → k < totalParts
  reading : ∀ k, s.reading k = true → k < totalParts
  cleaned : s.pool.shared.parent.over = false → s.cleaned = 0

theorem partWorker_sizing {sh sh' : PartsShared} {pc : PartPc} {y : PartEvent} {k : Nat}
    (h : partWorker totalParts sh pc y = some (sh', some (.sizing k))) : k < totalParts := by
  cases partWorker_inv h with
  | claimed hlt => exact hlt

theorem Bounds.sizing_step (h : ∀ i k, p.locals i = .running (.sizing k) → k < totalParts)
    (hs : PoolStep (partsBody totalParts) p x p') (i : Fin n) (k : Nat)
    (hk : p'.locals i = .running (.sizing k)) : k < totalParts := by
  cases hs with
  | spawn | startWait | abandon | interrupt | resume => exact h i k hk
  | start =>
    rcases eq_of_update_eq hk with ⟨-, hk⟩ | ⟨-, hk⟩
    · cases hk
    · exact h i k hk
  | @run j l y body o hw hrun =>
    rcases eq_of_update_eq hk with ⟨-, hk⟩ | ⟨-, hk⟩
    · cases o with
      | none => cases hk
      | some l' =>
        cases hk
        exact partWorker_sizing hrun
    · exact h i k hk
  | exit =>
    rcases eq_of_update_eq hk with ⟨-, hk⟩ | ⟨-, hk⟩
    · split at hk <;> cases hk
    · exact h i k hk
  | cancel =>
    rcases eq_of_update_eq hk with ⟨-, hk⟩ | ⟨-, hk⟩
    · cases hk
    · exact h i k hk

theorem not_over_of_step (hs : PoolStep (partsBody totalParts) p x p')
    (ho : p'.shared.parent.over = false) : p.shared.parent.over = false := by
  by_contra hne
  rw [over_stays hs (eq_true_of_ne_false hne)] at ho
  cases ho

theorem Bounds.step (h : Bounds totalParts s) (hs : SplitStep totalParts s e s') :
    Bounds totalParts s' := by
  cases hs with
  | pool _ hs =>
    exact ⟨Bounds.sizing_step h.sizing hs, h.reading, fun ho => h.cleaned (not_over_of_step hs ho)⟩
  | hand hx _ hs =>
    refine ⟨Bounds.sizing_step h.sizing hs, ?_, fun ho => h.cleaned (not_over_of_step hs ho)⟩
    intro k hk
    rcases eq_of_update_eq hk with ⟨rfl, -⟩ | ⟨-, hk⟩
    · obtain ⟨i, size, -, hw⟩ := handedOver_inv hx
      exact h.sizing i k hw
    · exact h.reading k hk
  | sendEnded idx =>
    refine ⟨h.sizing, ?_, h.cleaned⟩
    intro k hk
    rcases eq_of_update_eq hk with ⟨-, hk⟩ | ⟨-, hk⟩
    · cases hk
    · exact h.reading k hk
  | remove _ ho =>
    refine ⟨h.sizing, h.reading, ?_⟩
    intro hover
    rw [ho] at hover
    cases hover

/-- The cleanup is still to come to a part that is read. -/
def Doomed (totalParts : Nat) (s : Split n) : Prop :=
  s.pool.shared.parent.over = true ∧ ∃ k, s.reading k = true ∧ s.cleaned ≤ k ∧ k < totalParts

theorem doomed_of_leave (hb : Bounds totalParts s) (hbefore : s.pool.shared.parent.over = false)
    (hafter : p.shared.parent.over = true) (hread : ¬ ∀ k, s.reading k = false) :
    Doomed totalParts { s with pool := p } := by
  simp only [not_forall, Bool.not_eq_false] at hread
  obtain ⟨k, hk⟩ := hread
  have hcleaned := hb.cleaned hbefore
  exact ⟨hafter, k, hk, by simp [hcleaned], hb.reading k hk⟩

theorem doomed_of_pool (hb : Bounds totalParts s) (hp : ¬ InTime s (.pool x))
    (hx : handedOver s.pool x = none) (hs : PoolStep (partsBody totalParts) s.pool x p) :
    Doomed totalParts { s with pool := p } := by
  cases hs with
  | spawn | startWait => exact absurd trivial hp
  | abandon hq => exact doomed_of_leave hb (by rw [hq]; rfl) rfl fun hidle => hp (.inr hidle)
  | interrupt hq => exact absurd (.inl hq) hp
  | resume hq => exact doomed_of_leave hb (by rw [hq]; rfl) rfl hp
  | start | run | exit | cancel =>
    refine absurd (fun idx hidx => ?_) hp
    rw [hx] at hidx
    cases hidx

theorem doomed_of_hand (hb : Bounds totalParts s) (hp : ¬ InTime s (.pool x))
    (hx : handedOver s.pool x = some idx) (hs : PoolStep (partsBody totalParts) s.pool x p) :
    Doomed totalParts { s with pool := p, reading := Function.update s.reading idx true } := by
  have hparent := over_hand hs hx
  obtain ⟨i, size, rfl, hw⟩ := handedOver_inv hx
  simp only [InTime, hx, Option.some.injEq, forall_eq', Classical.not_imp, Nat.not_lt] at hp
  exact ⟨hparent ▸ hp.1, idx, Function.update_self idx true s.reading, hp.2, hb.sizing i idx hw⟩

theorem doomed_of_late (hb : Bounds totalParts s) (hp : ¬ InTime s e)
    (hs : SplitStep totalParts s e s') : Doomed totalParts s' := by
  cases hs with
  | pool hx hs => exact doomed_of_pool hb hp hx hs
  | hand hx _ hs => exact doomed_of_hand hb hp hx hs
  | sendEnded | remove => exact absurd trivial hp

theorem Doomed.lost (h : Doomed totalParts s) : ∃ m s',
    (splitMachine n totalParts).Runs s (List.replicate m (.remove true)) s' ∧ LostPart s' := by
  obtain ⟨ho, k, hk, hle, hlt⟩ := h
  -- the number of parts that the cleanup has in front of this one
  induction hd : k - s.cleaned generalizing s with
  | zero =>
    have heq : s.cleaned = k := by omega
    refine ⟨1, _, .cons trivial (if_pos ⟨ho, by omega⟩) (.nil _), k, ?_, hk⟩
    simp [heq]
  | succ d ih =>
    let s₁ : Split n :=
      { s with cleaned := s.cleaned + 1, removed := Function.update s.removed s.cleaned true }
    have hle₁ : s₁.cleaned ≤ k := by
      show s.cleaned + 1 ≤ k
      omega
    have hd₁ : k - s₁.cleaned = d := by
      show k - (s.cleaned + 1) = d
      omega
    obtain ⟨m, s', hrun, hlost⟩ := ih (s := s₁) ho hk hle₁ hd₁
    exact ⟨m + 1, s', .cons trivial (if_pos ⟨ho, by omega⟩) hrun, hlost⟩

/-! ### A messenger that answers last -/

/-- The caller is not cancelled, and a send is answered after the update for its part. -/
def Answered (s : Split n) : SplitEvent n → Prop
  | .pool (.env .interrupt) => False
  | .pool (.act i (.run _)) => ∀ k, s.pool.locals i = .running (.sending k) → s.reading k = false
  | _ => True

/-- Every part that is read has a worker that waits for its answer. -/
def Awaited (s : Split n) : Prop := ∀ k, s.reading k = true → ∃ i, s.pool.locals i = .running (.sending k)

theorem Awaited.pool (h : Awaited s) (hp : Answered s (.pool x))
    (hs : PoolStep (partsBody totalParts) s.pool x p) : Awaited { s with pool := p } := by
  intro k hk
  obtain ⟨i, hw⟩ := h k hk
  rcases hs.running hw with hw' | ⟨y, rfl⟩
  · exact ⟨i, hw'⟩
  · have hread := hp k hw
    rw [hk] at hread
    cases hread

theorem sending_of_hand (hx : handedOver p x = some idx) (hs : PoolStep (partsBody totalParts) p x p') :
    ∃ i, p'.locals i = .running (.sending idx) := by
  obtain ⟨i, size, rfl, hw⟩ := handedOver_inv hx
  cases hs with
  | run hl hrun =>
    rw [hw] at hl
    cases hl
    cases hrun
    exact ⟨i, Function.update_self i _ _⟩

theorem Awaited.hand (h : Awaited s) (hp : Answered s (.pool x)) (hx : handedOver s.pool x = some idx)
    (hs : PoolStep (partsBody totalParts) s.pool x p) :
    Awaited { s with pool := p, reading := Function.update s.reading idx true } := by
  intro k hk
  rcases eq_of_update_eq hk with ⟨rfl, -⟩ | ⟨-, hk⟩
  · exact sending_of_hand hx hs
  · exact h.pool hp hs k hk

theorem Awaited.step (h : Awaited s) (hp : Answered s e) (hs : SplitStep totalParts s e s') :
    Awaited s' := by
  cases hs with
  | pool _ hs => exact h.pool hp hs
  | hand hx _ hs => exact h.hand hp hx hs
  | sendEnded idx =>
    intro k hk
    rcases eq_of_update_eq hk with ⟨-, hk⟩ | ⟨-, hk⟩
    · cases hk
    · exact h k hk
  | remove => exact h

theorem Answered.cancelledIdle (hp : Answered s (.pool x)) : CancelledIdle s.pool x := by
  rcases x with y | ⟨i, y⟩
  · cases y with
    | interrupt => cases hp
    | spawn | startWait | resume => trivial
  · trivial

structure JoinedInv (s : Split n) : Prop where
  join : JoinInv s.pool
  all : JoinsAll s.pool
  awaited : Awaited s

theorem JoinedInv.step (h : JoinedInv s) (hp : Answered s e) (hs : SplitStep totalParts s e s') :
    JoinedInv s' := by
  have hawaited := h.awaited.step hp hs
  cases hs with
  | pool _ hs | hand _ _ hs =>
    exact ⟨h.join.step hs, h.all.step h.join hp.cancelledIdle hs, hawaited⟩
  | sendEnded | remove => exact ⟨h.join, h.all, hawaited⟩

/-- Past the join there is no worker left. -/
theorem JoinedInv.not_running (h : JoinedInv s) (hj : s.pool.shared.parent.joining = false) (i : Fin n)
    (l : PartPc) : s.pool.locals i ≠ .running l := by
  intro hw
  have hcount := h.join.count_eq_zero (h.all hj) i
  rw [hw] at hcount
  cases hcount

theorem JoinedInv.inTime (h : JoinedInv s) (hp : Answered s e) (hs : SplitStep totalParts s e s') :
    InTime s e := by
  cases hs with
  | sendEnded | remove => trivial
  | @pool x p hx hs =>
    cases hs with
    | spawn | startWait => trivial
    | abandon | interrupt => cases hp
    | resume hq =>
      intro k
      by_contra hk
      obtain ⟨i, hw⟩ := h.awaited k (eq_true_of_ne_false hk)
      exact h.not_running (by rw [hq]; rfl) i _ hw
    | start | run | exit | cancel =>
      intro k hk
      rw [hx] at hk
      cases hk
  | @hand x p idx hx _ hs =>
    obtain ⟨i, size, rfl, hw⟩ := handedOver_inv hx
    intro k _ ho
    exact absurd hw (h.not_running (Parent.joining_of_over ho) i _)

/-! ### Whole runs -/

variable {configured : Int} {t : List (SplitEvent (partParallelism configured totalParts))}
  {u : Split (partParallelism configured totalParts)}

theorem kept_start : Kept (splitStart configured totalParts) :=
  ⟨fun k hk => (by cases hk), fun k hk => (by cases hk)⟩

theorem bounds_start : Bounds totalParts (splitStart configured totalParts) :=
  ⟨fun i k hk => (by cases hk), fun k hk => (by cases hk), fun _ => rfl⟩

/-- The parts are in time when the caller is not cancelled and the messenger answers last. -/
theorem inTime_of_answered
    (h : (uploadParts configured totalParts).Steps Answered (splitStart configured totalParts) t u) :
    (uploadParts configured totalParts).Steps InTime (splitStart configured totalParts) t u := by
  have hstart : JoinedInv (splitStart configured totalParts) :=
    ⟨.start _, joinsAll_start _, fun k hk => by cases hk⟩
  refine h.imp_of_invariant hstart ?_ ?_
  · exact fun _ _ _ hp hi hs => hi.step hp (split_inv hs)
  · exact fun _ _ _ hp hi hs => hi.inTime hp (split_inv hs)

/-- In a run of the upload of a split file, no part is deleted while the messenger reads it exactly if
the call leaves its pool, and hands over parts, in time. -/
theorem parts_live_iff
    (h : (uploadParts configured totalParts).Runs (splitStart configured totalParts) t u) :
    PartsLive configured totalParts t ↔
      (uploadParts configured totalParts).Steps InTime (splitStart configured totalParts) t u := by
  constructor
  · intro hlive
    rcases h.guarded_or_break InTime with hP | ⟨t₁, e, t₂, s₁, s₂, rfl, h₁, hlate, hs, -⟩
    · exact hP
    · have hb : Bounds totalParts s₁ := h₁.invariant bounds_start fun _ _ _ _ hb hs => hb.step (split_inv hs)
      obtain ⟨m, s₃, hrun, hlost⟩ := (doomed_of_late hb hlate (split_inv hs)).lost
      have hfirst : (uploadParts configured totalParts).Runs (splitStart configured totalParts)
          (t₁ ++ [e]) s₂ := .snoc h₁.runs trivial hs
      exact absurd hlost (hlive (t₁ ++ [e]) m s₃ ⟨t₂, by simp⟩ (hfirst.append hrun))
  · rintro hP t₁ m s₁ ⟨t₂, rfl⟩ h₁
    obtain ⟨s₀, h₀, hrun⟩ := h₁.append_inv
    -- a deletion is never late by itself
    have hclean := hrun.of_forall_mem (P := InTime) fun s e he => by
      rw [List.eq_of_mem_replicate he]
      trivial
    have hall := (hP.of_append h₀).append hclean
    exact (hall.invariant kept_start fun _ _ _ hp hk hs => hk.step hp (split_inv hs)).not_lost

/-- A worker takes its next part, of this size, and goes on to the next. -/
def sendsPart {n : Nat} (i : Fin n) (size : Int) (answer : List (SplitEvent n)) : List (SplitEvent n) :=
  [.pool (.act i (.run .run)), .pool (.act i (.run (.cancelState false))), .pool (.act i (.run .run)),
    .pool (.act i (.run (.fileSize (.ok size))))] ++ answer ++ [.pool (.act i (.run .run))]

/-- Two parts, from their worker's start to the end of the call and the cleanup. -/
def sendsTwo {n : Nat} (i : Fin n) (first second : List (SplitEvent n)) : List (SplitEvent n) :=
  [.pool (.env .spawn), .pool (.env .startWait), .pool (.act i .start)] ++ sendsPart i 10 first ++
    sendsPart i 4 second ++
  [.pool (.act i (.run .run)), .pool (.act i (.run (.cancelState false))), .pool (.act i (.run .run)),
    .pool (.act i .exit), .pool (.act i .cancel), .pool (.env .resume), .remove true, .remove true]

/-- The messenger answers when the message is sent. -/
def answersLast (i : Fin (partParallelism 1 2)) : List (SplitEvent (partParallelism 1 2)) :=
  sendsTwo i [.sendEnded 0, .pool (.act i (.run (.sent (.ok 77))))]
    [.sendEnded 1, .pool (.act i (.run (.sent (.ok 78))))]

/-- The messenger answers at once, as TDLib does, and the parts are still read. -/
def answersFirst (i : Fin (partParallelism 1 2)) : List (SplitEvent (partParallelism 1 2)) :=
  sendsTwo i [.pool (.act i (.run (.sent (.ok 5))))] [.pool (.act i (.run (.sent (.ok 6))))]

theorem parts_live_answersLast : PartsLive 1 2 (answersLast ⟨0, by decide⟩) := by
  have hrun : ∃ u, (uploadParts 1 2).Steps Answered (splitStart 1 2) (answersLast ⟨0, by decide⟩) u := by
    refine ⟨_, .cons trivial rfl (.cons trivial rfl (.cons trivial rfl
      -- the first part
      (.cons ?_ rfl (.cons ?_ rfl (.cons ?_ rfl (.cons ?_ rfl (.cons trivial rfl (.cons ?_ rfl (.cons ?_ rfl
      -- the second part
      (.cons ?_ rfl (.cons ?_ rfl (.cons ?_ rfl (.cons ?_ rfl (.cons trivial rfl (.cons ?_ rfl (.cons ?_ rfl
      -- the end of the call
      (.cons ?_ rfl (.cons ?_ rfl (.cons ?_ rfl (.cons trivial rfl (.cons trivial rfl (.cons trivial rfl
      (.cons trivial rfl (.cons trivial rfl (.nil _)))))))))))))))))))))))))⟩
    all_goals
      intro k hk
      cases hk
    all_goals rfl
  obtain ⟨u, hu⟩ := hrun
  exact (parts_live_iff hu.runs).2 (inTime_of_answered hu)

set_option maxRecDepth 4000 in
theorem part_lost : ∃ u, (uploadParts 1 2).Runs (splitStart 1 2) (answersFirst ⟨0, by decide⟩) u ∧
    LostPart u := by
  have hobs : ((uploadParts 1 2).run (splitStart 1 2) (answersFirst ⟨0, by decide⟩)).map
      (fun u => (u.removed 0, u.reading 0)) = some (true, true) := by decide
  obtain ⟨u, hu, ho⟩ := Machine.exists_runs hobs
  obtain ⟨hremoved, hreading⟩ := Prod.mk.inj ho
  exact ⟨u, hu, 0, hremoved, hreading⟩

end Cmlb.Upload.Telegram
