import Mathlib.Data.Nat.Count
import Cmlb.Lib.Machine

/-!
# The pipes of a child (`spawn_sync`)

The parent writes all of `stdin_data` and closes the pipe before it starts to drain the other two;
the child runs any program of reads and writes. Bytes go through the pipes one at a time, and which of
the two processes is next is open. What a full pipe takes again when some of it has been read is up to the
kernel, which may free it by whole pages only (`pages`); of the stdin pipe it is a parameter. The parent is
stuck in its `write` when the child is stuck in one of its own; that can happen exactly if the child comes to
fill an output pipe while the input is more than the stdin pipe takes in all after what the child has read by
then (`no_deadlock_iff`).
-/

namespace Cmlb.System.SpawnPipes

inductive ChildOp
  | read
  | out
  | err
  | exit
deriving DecidableEq

/-- What a pipe takes while nobody reads it. -/
structure Capacity where
  bytes : Nat
  positive : 0 < bytes

/-- A pipe that is read: `takes r` is what it takes in all up to the next wait of the writer, when `r` bytes
have been read. An empty pipe takes a byte. -/
structure Pipe where
  takes : Nat → Nat
  monotone : Monotone takes
  room : ∀ r, r < takes r

/-- A child that is spawned: the size of `stdin_data`, the three pipes and what the child does, one
byte at a time. Nobody reads the output pipes while `stdin_data` is written. -/
structure Setup where
  size : Nat
  stdin : Pipe
  stdout : Capacity
  stderr : Capacity
  script : Nat → ChildOp

/-- `writing off`: the `write` loop with `off` bytes in the pipe. -/
inductive Parent
  | writing (off : Nat)
  | draining
deriving DecidableEq

/-- The bytes in the pipes, what the child has read of its stdin, and its operation `next`. -/
structure State where
  parent : Parent := .writing 0
  input : Nat := 0
  got : Nat := 0
  output : Nat := 0
  errors : Nat := 0
  next : Nat := 0
  alive : Bool := true
deriving DecidableEq

inductive Event
  | write
  -- `write` fails: nobody can read the pipe any more
  | writeFailed
  | written
  | drainStdout
  | drainStderr
  | child
  | childKilled
deriving DecidableEq

variable (p : Setup)

/-- The next operation of the child; a read at the end of the input returns without a byte. -/
def childStep (s : State) : Option State :=
  match p.script s.next with
  | .read =>
    if 0 < s.input then some { s with input := s.input - 1, got := s.got + 1, next := s.next + 1 }
    else if s.parent = .draining then some { s with next := s.next + 1 }
    else none
  | .out =>
    if s.output < p.stdout.bytes then some { s with output := s.output + 1, next := s.next + 1 }
    else none
  | .err =>
    if s.errors < p.stderr.bytes then some { s with errors := s.errors + 1, next := s.next + 1 }
    else none
  | .exit => some { s with alive := false }

def spawnSync : Machine State Event where
  step s e :=
    match s.parent, e with
    | .writing off, .write =>
      if off < p.size ∧ off < p.stdin.takes s.got then
        some { s with parent := .writing (off + 1), input := s.input + 1 }
      else none
    | .writing off, .writeFailed =>
      if off < p.size ∧ s.alive = false then some { s with parent := .draining } else none
    | .writing off, .written => if off = p.size then some { s with parent := .draining } else none
    | .draining, .drainStdout =>
      if 0 < s.output then some { s with output := s.output - 1 } else none
    | .draining, .drainStderr =>
      if 0 < s.errors then some { s with errors := s.errors - 1 } else none
    | _, .child => if s.alive then childStep p s else none
    | _, .childKilled => some { s with alive := false }
    | _, _ => none

/-- The child is in a `write` to a full pipe. -/
def ChildStuck (s : State) : Prop :=
  s.alive = true ∧ (p.script s.next = .out ∧ s.output = p.stdout.bytes ∨
    p.script s.next = .err ∧ s.errors = p.stderr.bytes)

/-- The parent is in a `write` to a full pipe. -/
def ParentStuck (s : State) : Prop :=
  ∃ off, s.parent = .writing off ∧ off < p.size ∧ p.stdin.takes s.got ≤ off

def Deadlocked (s : State) : Prop := ParentStuck p s ∧ ChildStuck p s

/-- How often the child does `op` in its first `k` operations. -/
def done (op : ChildOp) (k : Nat) : Nat := Nat.count (fun i => p.script i = op) k

/-- Operation `k` is a write that the pipe does not take, unless the parent drains it. -/
def Overflows (k : Nat) : Prop :=
  p.script k = .out ∧ p.stdout.bytes ≤ done p .out k ∨ p.script k = .err ∧ p.stderr.bytes ≤ done p .err k

/-- The child comes to its operation `k` if none makes it wait. -/
def Comes (k : Nat) : Prop := ∀ i < k, p.script i ≠ .exit

variable {p} {s s' : State} {t : List Event} {k : Nat}

/-- While the parent writes, nothing leaves the output pipes. -/
structure WritingInv (p : Setup) (off : Nat) (s : State) : Prop where
  input : off = s.input + s.got
  got : s.got = done p .read s.next
  output : s.output = done p .out s.next
  errors : s.errors = done p .err s.next
  comes : Comes p s.next

def Inv (p : Setup) (s : State) : Prop := ∀ off, s.parent = .writing off → WritingInv p off s

theorem done_succ (op : ChildOp) : done p op (k + 1) = done p op k + if p.script k = op then 1 else 0 :=
  Nat.count_succ _ k

theorem done_mono (op : ChildOp) {j k : Nat} (h : j ≤ k) : done p op j ≤ done p op k :=
  Nat.count_monotone _ h

theorem comes_succ (h : Comes p k) (hk : p.script k ≠ .exit) : Comes p (k + 1) := by
  intro i hi
  rcases Nat.lt_succ_iff_lt_or_eq.1 hi with hlt | rfl
  · exact h i hlt
  · exact hk

theorem childStep_parent (h : childStep p s = some s') : s'.parent = s.parent := by
  unfold childStep at h
  split at h
  all_goals
    try split_ifs at h
    all_goals
      cases h
      rfl

/-- One operation of the child, while the parent writes. -/
theorem childStep_inv {off : Nat} (hinv : WritingInv p off s) (hparent : s.parent = .writing off)
    (h : childStep p s = some s') : WritingInv p off s' := by
  obtain ⟨hin, hgot, hout, herr, hcomes⟩ := hinv
  unfold childStep at h
  split at h
  case h_1 hop =>
    have hwriting : s.parent ≠ .draining := by
      rw [hparent]
      nofun
    rw [if_neg hwriting] at h
    split_ifs at h with hpos
    cases h
    refine ⟨?_, ?_, ?_, ?_, comes_succ hcomes (by rw [hop]; nofun)⟩
    · dsimp only
      omega
    · simp [done_succ, hop, hgot]
    · simp [done_succ, hop, hout]
    · simp [done_succ, hop, herr]
  case h_2 hop =>
    split_ifs at h
    cases h
    refine ⟨hin, ?_, ?_, ?_, comes_succ hcomes (by rw [hop]; nofun)⟩
    · simp [done_succ, hop, hgot]
    · simp [done_succ, hop, hout]
    · simp [done_succ, hop, herr]
  case h_3 hop =>
    split_ifs at h
    cases h
    refine ⟨hin, ?_, ?_, ?_, comes_succ hcomes (by rw [hop]; nofun)⟩
    · simp [done_succ, hop, hgot]
    · simp [done_succ, hop, hout]
    · simp [done_succ, hop, herr]
  case h_4 hop =>
    cases h
    exact ⟨hin, hgot, hout, herr, hcomes⟩

theorem step_inv {e : Event} (hinv : Inv p s) (h : (spawnSync p).step s e = some s') : Inv p s' := by
  intro off hoff
  simp only [spawnSync] at h
  split at h
  case h_1 off' hparent =>
    split_ifs at h with hroom
    cases h
    cases hoff
    obtain ⟨hin, hgot, hout, herr, hcomes⟩ := hinv off' hparent
    exact ⟨by dsimp only; omega, hgot, hout, herr, hcomes⟩
  case h_6 =>
    split_ifs at h
    have hparent := (childStep_parent h).symm.trans hoff
    exact childStep_inv (hinv off hparent) hparent h
  case h_7 =>
    cases h
    obtain ⟨hin, hgot, hout, herr, hcomes⟩ := hinv off hoff
    exact ⟨hin, hgot, hout, herr, hcomes⟩
  case h_8 => cases h
  -- the other steps end the writing, or come after it
  all_goals
    rename_i hparent
    split_ifs at h
    cases h
    first
      | cases hoff
      | exact absurd (hparent.symm.trans hoff) nofun

theorem inv_of_runs (h : (spawnSync p).Runs {} t s) : Inv p s := by
  refine h.invariant (I := Inv p) ?_ fun _ _ _ _ hinv hstep => step_inv hinv hstep
  intro off hoff
  cases hoff
  exact ⟨rfl, rfl, rfl, rfl, nofun⟩

/-- The input is more than the stdin pipe takes by then when the child is to fill an output pipe. -/
theorem size_of_deadlocked (hinv : Inv p s) (h : Deadlocked p s) :
    Comes p s.next ∧ Overflows p s.next ∧ p.stdin.takes (done p .read s.next) < p.size := by
  obtain ⟨⟨off, hparent, hoff, hfull⟩, -, hstuck⟩ := h
  obtain ⟨-, hgot, hout, herr, hcomes⟩ := hinv off hparent
  rw [hgot] at hfull
  refine ⟨hcomes, ?_, Nat.lt_of_le_of_lt hfull hoff⟩
  rcases hstuck with ⟨hop, hfull⟩ | ⟨hop, hfull⟩
  · exact .inl ⟨hop, by omega⟩
  · exact .inr ⟨hop, by omega⟩

/-! ### The way to a deadlock -/

variable (p) in
/-- The stdin pipe is full, and the child is at operation `k`. -/
def full (k : Nat) : State where
  parent := .writing (p.stdin.takes (done p .read k))
  input := p.stdin.takes (done p .read k) - done p .read k
  got := done p .read k
  output := done p .out k
  errors := done p .err k
  next := k

theorem step_write {off : Nat} (hparent : s.parent = .writing off) (hoff : off < p.size)
    (hroom : off < p.stdin.takes s.got) : (spawnSync p).step s .write =
      some { s with parent := .writing (off + 1), input := s.input + 1 } := by
  simp only [spawnSync, hparent]
  exact if_pos ⟨hoff, hroom⟩

theorem step_child (halive : s.alive = true) : (spawnSync p).step s .child = childStep p s := by
  cases hparent : s.parent <;> simp only [spawnSync, hparent] <;> exact if_pos halive

/-- The parent writes on, as far as the pipe takes it. -/
theorem reaches_written {off off' : Nat} (hparent : s.parent = .writing off) (hle : off ≤ off')
    (htakes : off' ≤ p.stdin.takes s.got) (hsize : off' ≤ p.size) :
    ∃ t, (spawnSync p).Runs s t { s with parent := .writing off', input := s.input + (off' - off) } := by
  induction off', hle using Nat.le_induction with
  | base =>
    rw [← hparent, Nat.sub_self, Nat.add_zero]
    exact ⟨[], .nil s⟩
  | succ off' hle ih =>
    obtain ⟨t, h⟩ := ih (by omega) (by omega)
    have hinput : s.input + (off' + 1 - off) = s.input + (off' - off) + 1 := by omega
    rw [hinput]
    exact ⟨_, h.snoc trivial (step_write rfl hsize htakes)⟩

/-- As long as no pipe overflows the child goes on, and the parent fills up what the pipe takes again. -/
theorem reaches_full (hcomes : Comes p k) (hnone : ∀ j < k, ¬Overflows p j)
    (hsize : p.stdin.takes (done p .read k) < p.size) : ∃ t, (spawnSync p).Runs {} t (full p k) := by
  induction k with
  | zero =>
    obtain ⟨t, h⟩ := reaches_written (p := p) (s := {}) rfl (Nat.zero_le _) (Nat.le_refl _) (Nat.le_of_lt hsize)
    rw [Nat.sub_zero, Nat.zero_add] at h
    exact ⟨t, h⟩
  | succ k ih =>
    have hread : done p .read k ≤ done p .read (k + 1) := done_mono .read (Nat.le_succ k)
    have htakes := p.stdin.monotone hread
    obtain ⟨t, h⟩ := ih (fun i hi => hcomes i (by omega)) (fun j hj => hnone j (by omega)) (by omega)
    have hnot := hnone k (Nat.lt_succ_self k)
    rw [Overflows, not_or, not_and, not_and] at hnot
    cases hop : p.script k with
    | read =>
      have hroom := p.stdin.room (done p .read k)
      have hone : done p .read (k + 1) = done p .read k + 1 := by simp [done_succ, hop]
      rw [hone] at htakes hsize
      have hchild : (spawnSync p).step (full p k) .child = some { full p k with
          input := (full p k).input - 1, got := done p .read k + 1, next := k + 1 } := by
        rw [step_child rfl]
        simp only [childStep, full, hop]
        exact if_pos (by omega)
      obtain ⟨t', h'⟩ := reaches_written (p := p) (s := { full p k with
          input := (full p k).input - 1, got := done p .read k + 1, next := k + 1 })
        rfl htakes (Nat.le_refl _) (Nat.le_of_lt hsize)
      have hfull : full p (k + 1) = { full p k with
          parent := .writing (p.stdin.takes (done p .read k + 1))
          input := (full p k).input - 1 +
            (p.stdin.takes (done p .read k + 1) - p.stdin.takes (done p .read k))
          got := done p .read k + 1
          next := k + 1 } := by
        have hinput : p.stdin.takes (done p .read k + 1) - (done p .read k + 1) =
            p.stdin.takes (done p .read k) - done p .read k - 1 +
              (p.stdin.takes (done p .read k + 1) - p.stdin.takes (done p .read k)) := by omega
        simp [full, done_succ, hop, hinput]
      exact ⟨_, hfull ▸ (h.snoc trivial hchild).append h'⟩
    | out =>
      have hroom : done p .out k < p.stdout.bytes := Nat.lt_of_not_le (hnot.1 hop)
      have hchild : childStep p (full p k) = some (full p (k + 1)) := by
        simp [childStep, full, done_succ, hop, hroom]
      exact ⟨_, h.snoc trivial ((step_child rfl).trans hchild)⟩
    | err =>
      have hroom : done p .err k < p.stderr.bytes := Nat.lt_of_not_le (hnot.2 hop)
      have hchild : childStep p (full p k) = some (full p (k + 1)) := by
        simp [childStep, full, done_succ, hop, hroom]
      exact ⟨_, h.snoc trivial ((step_child rfl).trans hchild)⟩
    | exit => exact absurd hop (hcomes k (Nat.lt_succ_self k))

/-- The outputs have not overflowed before the first operation that overflows. -/
theorem done_le (hnone : ∀ j < k, ¬Overflows p j) :
    done p .out k ≤ p.stdout.bytes ∧ done p .err k ≤ p.stderr.bytes := by
  induction k with
  | zero => exact ⟨Nat.zero_le _, Nat.zero_le _⟩
  | succ k ih =>
    obtain ⟨hout, herr⟩ := ih fun j hj => hnone j (Nat.lt_succ_of_lt hj)
    have hnot := hnone k (Nat.lt_succ_self k)
    rw [Overflows, not_or, not_and, not_and, Nat.not_le, Nat.not_le] at hnot
    constructor
    · rw [done_succ]
      split_ifs with hop
      · exact hnot.1 hop
      · exact hout
    · rw [done_succ]
      split_ifs with hop
      · exact hnot.2 hop
      · exact herr

theorem deadlock_reachable (hcomes : Comes p k) (hover : Overflows p k)
    (hsize : p.stdin.takes (done p .read k) < p.size) :
    ∃ t s, (spawnSync p).Runs {} t s ∧ Deadlocked p s := by
  classical
  -- the first operation that overflows
  have hex : ∃ j, Overflows p j := ⟨k, hover⟩
  have hle : Nat.find hex ≤ k := Nat.find_min' hex hover
  have hnone : ∀ j < Nat.find hex, ¬Overflows p j := fun j hj => Nat.find_min hex hj
  have htakes := p.stdin.monotone (done_mono (p := p) .read hle)
  have hearlier := Nat.lt_of_le_of_lt htakes hsize
  obtain ⟨t, h⟩ := reaches_full (fun i hi => hcomes i (by omega)) hnone hearlier
  obtain ⟨hout, herr⟩ := done_le hnone
  refine ⟨t, _, h, ⟨_, rfl, hearlier, Nat.le_refl _⟩, rfl, ?_⟩
  rcases Nat.find_spec hex with ⟨hop, hfull⟩ | ⟨hop, hfull⟩
  · exact .inl ⟨hop, Nat.le_antisymm hout hfull⟩
  · exact .inr ⟨hop, Nat.le_antisymm herr hfull⟩

/-- No run deadlocks exactly if the stdin pipe takes the input after what the child has read, whenever the
child is to write to a full pipe. -/
theorem no_deadlock_iff (p : Setup) : (∀ t s, (spawnSync p).Runs {} t s → ¬Deadlocked p s) ↔
    ∀ k, Comes p k → Overflows p k → p.size ≤ p.stdin.takes (done p .read k) := by
  constructor
  · intro h k hcomes hover
    by_contra hsize
    obtain ⟨t, s, hrun, hdead⟩ := deadlock_reachable hcomes hover (Nat.lt_of_not_le hsize)
    exact h t s hrun hdead
  · intro h t s hrun hdead
    obtain ⟨hcomes, hover, hsize⟩ := size_of_deadlocked (inv_of_runs hrun) hdead
    exact absurd hsize (Nat.not_lt.2 (h _ hcomes hover))

/-- The default pipe of Linux: 16 pages, each free again when all of it has been read. -/
def pages : Pipe where
  takes r := 65536 + r / 4096 * 4096
  monotone _ _ h := Nat.add_le_add_left (Nat.mul_le_mul_right _ (Nat.div_le_div_right h)) _
  room r := by omega

/-- A child that only writes, with one byte of input more than the pipe takes. -/
def chatty : Setup where
  size := 65537
  stdin := pages
  stdout := ⟨65536, by decide⟩
  stderr := ⟨65536, by decide⟩
  script _ := .out

theorem chatty_deadlocks : ¬∀ p t s, (spawnSync p).Runs {} t s → ¬Deadlocked p s := by
  intro h
  have hout : done chatty .out 65536 = 65536 := by
    simp [done, chatty]
  have hread : done chatty .read 65536 = 0 := by
    simp [done, chatty]
  obtain ⟨t, s, hrun, hdead⟩ := deadlock_reachable (p := chatty) (k := 65536) nofun
    (.inl ⟨rfl, Nat.le_of_eq hout.symm⟩) (by rw [hread]; decide)
  exact h _ t s hrun hdead

end Cmlb.System.SpawnPipes
