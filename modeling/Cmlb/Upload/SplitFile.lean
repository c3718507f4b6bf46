import Mathlib.Data.List.Range
import Cmlb.Lib.Pieces
import Cmlb.Upload.Telegram

/-!
# The bytes of a split file (`split_file`)

`split_file` over a directory and over what goes wrong outside. A stream whose read is short is never
good again, since nothing clears it: the rest of the file is not read, whatever the reason, and the
parts that are left are created empty. So a pattern of failing reads, or of a file that becomes shorter,
is told by the bytes that the stream delivers before. A write is checked when it is made, but what is
still buffered then is written when the stream is closed, and a failure of that is not seen.

Where nothing goes wrong the parts are the pieces of the file (`split_lossless`). When `split_file`
returns its parts they make up the file only if nothing went wrong that is not checked for
(`split_complete_iff`).
-/

namespace Cmlb.Upload.Telegram

open Pieces

def kSplitStreamBuffer : Nat := 1048576

/-- The files of a directory, by their paths. -/
abbrev Disk := Path → Option (List UInt8)

/-- What is outside of `split_file`: the file with its content, as it is when its size is taken, and
what fails. `writes i j` says if the stream of the part `i` is good after its `j`-th write, `loses i` is
how many bytes at the end of what was written to it are not in its file when it has been closed. -/
structure SplitWorld where
  content : List UInt8
  delivered : List UInt8
  delivers : delivered <+: content
  opened : Bool := true
  sizeFails : Option String := none
  creates : Nat → Bool := fun _ => true
  writes : Nat → Nat → Bool := fun _ _ => true
  loses : Nat → Nat := fun _ => 0

/-- `std::ifstream`: what it still delivers, and if it is good. -/
structure Source where
  rest : List UInt8
  good : Bool
deriving DecidableEq

/-- `in.read`, of a good stream. The bytes that were got are `gcount` many. -/
def Source.read (s : Source) (toRead : Nat) : List UInt8 × Source :=
  (s.rest.take toRead, ⟨s.rest.drop toRead, decide (toRead ≤ s.rest.length)⟩)

namespace SplitWorld

variable (w : SplitWorld)

/-- The copy loop of the part `i`, from its round `j` on: if no write failed, the source, and what was
written. A round takes a byte at least, so that `remaining` rounds are enough. -/
def copyPart (i : Nat) : Nat → Nat → Nat → Source → List UInt8 → Bool × Source × List UInt8
  | 0, _, _, s, written => (true, s, written)
  | fuel + 1, j, remaining, s, written =>
    if 0 < remaining ∧ s.good = true then
      let toRead := min remaining kSplitStreamBuffer
      let (got, s') := s.read toRead
      if got = [] then (true, s', written)
      else if w.writes i j then
        copyPart i fuel (j + 1) (remaining - got.length) s' (written ++ got)
      else (false, s', written ++ got)
    else (true, s, written)

/-- What is in the file of the part `i` when its stream has been closed. -/
def closed (i : Nat) (written : List UInt8) : List UInt8 := written.take (written.length - w.loses i)

/-- The loop over the parts, from the part `i` on. -/
def splitParts (src : Path) (chunk : Nat) : Nat → Nat → Source → Disk → List Path →
    Result (List Path) × Disk
  | 0, _, _, disk, parts => (.ok parts, disk)
  | left + 1, i, s, disk, parts =>
    let part := partPath src i
    if w.creates i then
      match w.copyPart i chunk 0 chunk s [] with
      | (true, s', written) =>
        splitParts src chunk left (i + 1) s' (Function.update disk part (some (w.closed i written)))
          (parts ++ [part])
      | (false, _, written) =>
        (.error ⟨.io, "telegram_uploader: write failed for " ++ part⟩,
          Function.update disk part (some (w.closed i written)))
    else (.error ⟨.io, "telegram_uploader: cannot create part " ++ part⟩, disk)

/-- `split_file`, and the directory after it. There is no result when `reserve` throws, which it does
for a number of parts that is negative as an `int`. -/
def splitFile (src : Path) (chunkBytes : Int) (disk : Disk) : Option (Result (List Path)) × Disk :=
  if w.opened then
    match w.sizeFails with
    | some what => (some (sizeFailed what), disk)
    | none =>
      if chunkBytes ≤ 0 then
        (some (.error ⟨.invalidArgument, "telegram_uploader: split_size must be > 0"⟩), disk)
      else
        let chunkCount := chunkCount w.content.length chunkBytes
        if chunkCount < 0 then (none, disk)
        else
          let (res, disk') :=
            w.splitParts src chunkBytes.toNat chunkCount.toNat 0 ⟨w.delivered, true⟩ disk []
          (some res, disk')
  else (some (.error ⟨.io, "telegram_uploader: cannot open " ++ src ++ " for splitting"⟩), disk)

end SplitWorld

variable {w : SplitWorld} {src : Path} {disk : Disk} {parts : List Path} {s : Source}
  {written : List UInt8} {chunk i j fuel remaining : Nat}

/-! ### The copy loop -/

theorem kSplitStreamBuffer_pos : 0 < kSplitStreamBuffer := by decide

/-- A write fails that is made from the round `j` on. -/
def WriteFails (w : SplitWorld) (i j remaining len : Nat) : Prop :=
  ∃ d, d * kSplitStreamBuffer < remaining ∧ d * kSplitStreamBuffer < len ∧ w.writes i (j + d) = false

/-- After a full round the same writes are still to come. -/
theorem writeFails_succ (hwrite : w.writes i j = true) {toRead len : Nat}
    (hread : toRead = min remaining kSplitStreamBuffer) :
    WriteFails w i (j + 1) (remaining - toRead) (len - toRead) ↔ WriteFails w i j remaining len := by
  have hpos := kSplitStreamBuffer_pos
  constructor
  · rintro ⟨d, hrem, hlen, hfail⟩
    refine ⟨d + 1, ?_, ?_, by rwa [Nat.add_comm d, ← Nat.add_assoc]⟩
    · rw [Nat.succ_mul]
      omega
    · rw [Nat.succ_mul]
      omega
  · rintro ⟨d, hrem, hlen, hfail⟩
    cases d with
    | zero =>
      rw [Nat.add_zero, hwrite] at hfail
      cases hfail
    | succ d =>
      rw [Nat.succ_mul] at hrem hlen
      refine ⟨d, by omega, by omega, ?_⟩
      rwa [Nat.add_assoc, Nat.add_comm 1]

theorem not_writeFails_nil : ¬WriteFails w i j remaining 0 := by
  rintro ⟨d, -, hlen, -⟩
  omega

/-- A stream that is no longer good has nothing left. -/
def Source.Sound (s : Source) : Prop := s.good = false → s.rest = []

theorem Source.Sound.read (s : Source) (toRead : Nat) : (s.read toRead).2.Sound := by
  intro hbad
  have hlt : ¬toRead ≤ s.rest.length := by simpa [Source.read] using hbad
  exact List.drop_of_length_le (by omega)

/-- The source when a part has been copied. -/
def Source.after (s : Source) (remaining : Nat) : Source :=
  ⟨s.rest.drop remaining, s.good && decide (remaining ≤ s.rest.length)⟩

theorem Source.Sound.after (h : s.Sound) (remaining : Nat) : (s.after remaining).Sound := by
  intro hbad
  show s.rest.drop remaining = []
  simp only [Source.after, Bool.and_eq_false_iff, decide_eq_false_iff_not, not_le] at hbad
  rcases hbad with hbad | hlt
  · rw [h hbad, List.drop_nil]
  · exact List.drop_of_length_le hlt.le

/-- A loop that is not entered has copied what there was to copy. -/
theorem copied_of_stop (hs : s.Sound) (hstop : ¬(0 < remaining ∧ s.good = true)) :
    ¬WriteFails w i j remaining s.rest.length ∧ s = s.after remaining ∧ s.rest.take remaining = [] := by
  obtain ⟨rest, good⟩ := s
  by_cases hgood : good = true
  · have hzero : remaining = 0 := by
      by_contra hne
      exact hstop ⟨by omega, hgood⟩
    subst hzero
    refine ⟨?_, by simp [Source.after], List.take_zero⟩
    rintro ⟨d, hrem, -, -⟩
    omega
  · have hrest : rest = [] := hs (by simpa using hgood)
    subst hrest
    exact ⟨not_writeFails_nil, by simp [Source.after, hgood], List.take_nil⟩

section Round

variable {rest : List UInt8} {toRead : Nat}

/-- A round, and what is copied after it. -/
theorem after_read (hle : toRead ≤ remaining) :
    ((Source.mk rest true).read toRead).2.after
        (remaining - ((Source.mk rest true).read toRead).1.length) = (Source.mk rest true).after remaining := by
  by_cases hfull : toRead ≤ rest.length
  · have hgot : (rest.take toRead).length = toRead := List.length_take_of_le hfull
    have hdrop : toRead + (remaining - toRead) = remaining := by omega
    have hgood : remaining - toRead ≤ rest.length - toRead ↔ remaining ≤ rest.length := by omega
    simp only [Source.read, Source.after, hgot, List.drop_drop, List.length_drop, hdrop, hfull, hgood,
      decide_true, Bool.true_and]
  · have hdrop : rest.drop toRead = [] := List.drop_of_length_le (by omega)
    have hdrop' : rest.drop remaining = [] := List.drop_of_length_le (by omega)
    have hshort : ¬remaining ≤ rest.length := by omega
    simp only [Source.read, Source.after, hdrop, hdrop', List.drop_nil, hfull, hshort, decide_false,
      Bool.false_and, Bool.and_false]

theorem take_read (hle : toRead ≤ remaining) :
    ((Source.mk rest true).read toRead).1 ++ ((Source.mk rest true).read toRead).2.rest.take
      (remaining - ((Source.mk rest true).read toRead).1.length) = rest.take remaining := by
  show rest.take toRead ++ (rest.drop toRead).take (remaining - (rest.take toRead).length) = _
  by_cases hfull : toRead ≤ rest.length
  · rw [List.length_take_of_le hfull, ← List.take_add]
    congr 1
    omega
  · have hdrop : rest.drop toRead = [] := List.drop_of_length_le (by omega)
    have htake : rest.take toRead = rest := List.take_of_length_le (by omega)
    have htake' : rest.take remaining = rest := List.take_of_length_le (by omega)
    rw [hdrop, htake, htake', List.take_nil, List.append_nil]

/-- The writes after a round are those that were still to come. -/
theorem writeFails_read (hwrite : w.writes i j = true) (hread : toRead = min remaining kSplitStreamBuffer) :
    WriteFails w i (j + 1) (remaining - ((Source.mk rest true).read toRead).1.length)
        ((Source.mk rest true).read toRead).2.rest.length ↔ WriteFails w i j remaining rest.length := by
  rw [← writeFails_succ hwrite hread]
  show WriteFails w i (j + 1) (remaining - (rest.take toRead).length) (rest.drop toRead).length ↔ _
  rw [List.length_drop]
  by_cases hfull : toRead ≤ rest.length
  · rw [List.length_take_of_le hfull]
  · have hzero : rest.length - toRead = 0 := by omega
    rw [hzero]
    exact iff_of_false not_writeFails_nil not_writeFails_nil

/-- A round that gets nothing has come to the end. -/
theorem read_nil (hpos : 0 < toRead) (hle : toRead ≤ remaining)
    (hnil : ((Source.mk rest true).read toRead).1 = []) :
    ((Source.mk rest true).read toRead).2 = (Source.mk rest true).after remaining ∧ rest = [] := by
  have hrest : rest = [] := by
    rcases List.take_eq_nil_iff.1 hnil with hzero | hrest
    · omega
    · exact hrest
  subst hrest
  refine ⟨?_, rfl⟩
  have hshort : ¬toRead ≤ 0 := by omega
  have hshort' : ¬remaining ≤ 0 := by omega
  simp [Source.read, Source.after, hshort, hshort']

end Round

/-- What the loop comes to: as much as there is is copied, unless a write fails. -/
theorem copyPart_spec (w : SplitWorld) (i j : Nat) (written : List UInt8) (hfuel : remaining ≤ fuel)
    (hs : s.Sound) :
    (¬WriteFails w i j remaining s.rest.length ∧ w.copyPart i fuel j remaining s written =
        (true, s.after remaining, written ++ s.rest.take remaining)) ∨
      (WriteFails w i j remaining s.rest.length ∧ (w.copyPart i fuel j remaining s written).1 = false) := by
  induction fuel generalizing j remaining s written with
  | zero =>
    have hstop : ¬(0 < remaining ∧ s.good = true) := by omega
    obtain ⟨hno, hafter, htake⟩ := copied_of_stop hs hstop
    rw [htake, List.append_nil, ← hafter]
    exact .inl ⟨hno, rfl⟩
  | succ fuel ih =>
    unfold SplitWorld.copyPart
    split
    · rename_i hgo
      obtain ⟨rest, good⟩ := s
      obtain ⟨hpos, hgood⟩ := hgo
      cases hgood
      have hbuffer := kSplitStreamBuffer_pos
      obtain ⟨toRead, hread⟩ : ∃ toRead, toRead = min remaining kSplitStreamBuffer := ⟨_, rfl⟩
      have hle : toRead ≤ remaining := by omega
      rw [← hread]
      dsimp only
      split
      · rename_i hnil
        obtain ⟨hafter, rfl⟩ := read_nil (by omega) hle hnil
        rw [hafter, List.take_nil, List.append_nil]
        exact .inl ⟨not_writeFails_nil, rfl⟩
      · rename_i hne
        have hlen : 0 < ((Source.mk rest true).read toRead).1.length := List.length_pos_iff.2 hne
        split
        · rename_i hwrite
          rw [← writeFails_read hwrite hread, ← after_read hle, ← take_read hle, ← List.append_assoc]
          exact ih _ _ (by omega) (Source.Sound.read ⟨rest, true⟩ toRead)
        · rename_i hwrite
          refine .inr ⟨⟨0, by omega, ?_, by simpa using hwrite⟩, rfl⟩
          simp only [Source.read, List.length_take] at hlen
          omega
    · rename_i hstop
      obtain ⟨hno, hafter, htake⟩ := copied_of_stop hs hstop
      rw [htake, List.append_nil, ← hafter]
      exact .inl ⟨hno, rfl⟩

/-! ### The parts -/

theorem partPath_injective (src : Path) : Function.Injective (partPath src) := by
  have hvalue : ∀ i, Nat.ofDigitChars 10 ((List.replicate (3 - (toString (i + 1)).length) '0') ++
      Nat.toDigits 10 (i + 1)) 0 = i + 1 := by
    intro i
    rw [Nat.ofDigitChars_append, Nat.ofDigitChars_replicate_zero, Nat.mul_zero,
      Nat.ofDigitChars_toDigits (by decide) (by decide)]
  have hpath : ∀ i, (partPath src i).toList = (src ++ ".part").toList ++
      ((List.replicate (3 - (toString (i + 1)).length) '0') ++ Nat.toDigits 10 (i + 1)) := by
    intro i
    have hdigits : (toString (i + 1)).toList = Nat.toDigits 10 (i + 1) := Nat.toList_repr
    simp only [partPath, String.toList_append, String.toList_ofList, hdigits, List.append_assoc]
  intro i j h
  have hlist := congrArg String.toList h
  rw [hpath, hpath, List.append_cancel_left_eq] at hlist
  have hnum := congrArg (fun l => Nat.ofDigitChars 10 l 0) hlist
  simp only [hvalue] at hnum
  omega

theorem partPath_ne (src : Path) (i : Nat) : src ≠ partPath src i := by
  intro h
  have hlen := congrArg String.length h
  simp only [partPath, String.length_append] at hlen
  have hsuffix : ".part".length = 5 := rfl
  omega

/-- The part cannot be created, or a write to it fails. -/
def PartFails (w : SplitWorld) (chunk i : Nat) : Prop :=
  w.creates i = false ∨ WriteFails w i 0 chunk (w.delivered.length - i * chunk)

/-- What is in the file of a part that was copied. -/
def partContent (w : SplitWorld) (chunk i : Nat) : List UInt8 := w.closed i (piece chunk w.delivered i)

/-- The directory with these parts copied. -/
def withParts (w : SplitWorld) (src : Path) (chunk : Nat) (indices : List Nat) (disk : Disk) : Disk :=
  indices.foldl (fun disk i => Function.update disk (partPath src i) (some (partContent w chunk i))) disk

theorem withParts_of_notMem {indices : List Nat} {p : Path} (h : ∀ i ∈ indices, p ≠ partPath src i) :
    withParts w src chunk indices disk p = disk p := by
  unfold withParts
  induction indices generalizing disk with
  | nil => rfl
  | cons i indices ih =>
    obtain ⟨hi, hrest⟩ := List.forall_mem_cons.1 h
    rw [List.foldl_cons, ih hrest, Function.update_of_ne hi]

theorem withParts_of_mem {indices : List Nat} (h : i ∈ indices) :
    withParts w src chunk indices disk (partPath src i) = some (partContent w chunk i) := by
  induction indices generalizing disk with
  | nil => cases h
  | cons k indices ih =>
    by_cases hi : i ∈ indices
    · exact ih hi
    · have hik : i = k := (List.mem_cons.1 h).resolve_right hi
      subst hik
      show withParts w src chunk indices _ _ = _
      rw [withParts_of_notMem]
      · exact Function.update_self ..
      · intro k hk heq
        exact hi (partPath_injective src heq ▸ hk)

/-- The source stands at the part `i`: what was delivered of the parts before it has been read. -/
structure Source.At (w : SplitWorld) (chunk i : Nat) (s : Source) : Prop where
  sound : s.Sound
  rest_eq : s.rest = w.delivered.drop (i * chunk)

theorem Source.At.start (w : SplitWorld) (chunk : Nat) : (Source.mk w.delivered true).At w chunk 0 where
  sound := by
    intro hbad
    cases hbad
  rest_eq := by rw [Nat.zero_mul, List.drop_zero]

theorem Source.At.after (h : s.At w chunk i) : (s.after chunk).At w chunk (i + 1) where
  sound := h.sound.after chunk
  rest_eq := by
    show s.rest.drop chunk = _
    rw [h.rest_eq, List.drop_drop, Nat.succ_mul]

/-- The part `i` is copied as far as it was delivered, unless a write to it fails. -/
theorem Source.At.copyPart (h : s.At w chunk i) :
    (¬WriteFails w i 0 chunk (w.delivered.length - i * chunk) ∧
        w.copyPart i chunk 0 chunk s [] = (true, s.after chunk, piece chunk w.delivered i)) ∨
      (WriteFails w i 0 chunk (w.delivered.length - i * chunk) ∧
        (w.copyPart i chunk 0 chunk s []).1 = false) := by
  have hlen : s.rest.length = w.delivered.length - i * chunk := by
    rw [h.rest_eq, List.length_drop]
  have hpiece : s.rest.take chunk = piece chunk w.delivered i := by
    rw [h.rest_eq]
    rfl
  have hspec := copyPart_spec w i 0 [] (le_refl chunk) h.sound
  rwa [hlen, hpiece, List.nil_append] at hspec

theorem splitParts_ok {left : Nat} (hs : s.At w chunk i)
    (hno : ∀ k ∈ List.range' i left, ¬PartFails w chunk k) :
    w.splitParts src chunk left i s disk parts =
      (.ok (parts ++ (List.range' i left).map (partPath src)),
        withParts w src chunk (List.range' i left) disk) := by
  induction left generalizing i s disk parts with
  | zero => simp [SplitWorld.splitParts, withParts]
  | succ left ih =>
    rw [List.range'_succ] at hno
    obtain ⟨hi, hmore⟩ := List.forall_mem_cons.1 hno
    obtain ⟨hcreate, hwrite⟩ := not_or.1 hi
    rcases hs.copyPart with ⟨-, hcopy⟩ | ⟨hfails, -⟩
    · unfold SplitWorld.splitParts
      rw [if_pos (by simpa using hcreate), hcopy]
      dsimp only
      rw [ih hs.after hmore, List.range'_succ]
      simp [withParts, partContent]
    · exact absurd hfails hwrite

theorem splitParts_error (src : Path) (disk : Disk) (parts : List Path) {left : Nat} (hs : s.At w chunk i)
    (h : ∃ k ∈ List.range' i left, PartFails w chunk k) :
    ∃ err, (w.splitParts src chunk left i s disk parts).1 = .error err := by
  induction left generalizing i s disk parts with
  | zero =>
    obtain ⟨k, hk, -⟩ := h
    simp at hk
  | succ left ih =>
    unfold SplitWorld.splitParts
    split
    · rename_i hcreate
      rcases hs.copyPart with ⟨hno, hcopy⟩ | ⟨-, hcopy⟩
      · rw [hcopy]
        refine ih _ _ hs.after ?_
        obtain ⟨k, hk, hfail⟩ := h
        rw [List.range'_succ] at hk
        rcases List.mem_cons.1 hk with rfl | hk
        · rcases hfail with hfail | hfail
          · rw [hcreate] at hfail
            cases hfail
          · exact absurd hfail hno
        · exact ⟨k, hk, hfail⟩
      · generalize w.copyPart i chunk 0 chunk s [] = copied at hcopy
        obtain ⟨ok, s', written⟩ := copied
        cases hcopy
        exact ⟨_, rfl⟩
    · exact ⟨_, rfl⟩

/-! ### The whole call -/

/-- The number of parts that are made; it is that of the pieces while an `int` holds it. -/
def SplitWorld.partCount (w : SplitWorld) (chunkBytes : Int) : Nat :=
  (chunkCount w.content.length chunkBytes).toNat

/-- The parts are begun: the file is open and has its size, and the number of the parts is one. -/
structure Begins (w : SplitWorld) (chunkBytes : Int) : Prop where
  opened : w.opened = true
  sized : w.sizeFails = none
  positive : 0 < chunkBytes
  counted : 0 ≤ chunkCount w.content.length chunkBytes

/-- A failure that is checked for. -/
def Reports (w : SplitWorld) (chunkBytes : Int) : Prop :=
  ¬Begins w chunkBytes ∨ ∃ i < w.partCount chunkBytes, PartFails w chunkBytes.toNat i

variable {chunkBytes : Int} {res : Result (List Path)} {disk' : Disk}

theorem splitFile_of_begins (h : Begins w chunkBytes) : w.splitFile src chunkBytes disk =
    (some (w.splitParts src chunkBytes.toNat (w.partCount chunkBytes) 0 ⟨w.delivered, true⟩ disk []).1,
      (w.splitParts src chunkBytes.toNat (w.partCount chunkBytes) 0 ⟨w.delivered, true⟩ disk []).2) := by
  unfold SplitWorld.splitFile
  rw [if_pos h.opened, h.sized]
  dsimp only
  rw [if_neg (not_le.2 h.positive), if_neg (not_lt.2 h.counted)]
  rfl

theorem begins_of_ok (h : w.splitFile src chunkBytes disk = (some (.ok parts), disk')) :
    Begins w chunkBytes := by
  unfold SplitWorld.splitFile at h
  split at h
  · rename_i hopened
    split at h
    · cases h
    · rename_i hsized
      split at h
      · cases h
      · rename_i hpositive
        dsimp only at h
        split at h
        · cases h
        · rename_i hcounted
          exact ⟨hopened, hsized, not_le.1 hpositive, not_lt.1 hcounted⟩
  · cases h

/-- Where nothing goes wrong that is checked for, the parts are made. -/
theorem splitFile_ok (h : ¬Reports w chunkBytes) : w.splitFile src chunkBytes disk =
    (some (.ok ((List.range (w.partCount chunkBytes)).map (partPath src))),
      withParts w src chunkBytes.toNat (List.range (w.partCount chunkBytes)) disk) := by
  obtain ⟨hbegins, hno⟩ := not_or.1 h
  rw [splitFile_of_begins (not_not.1 hbegins), splitParts_ok (Source.At.start w _)]
  · rw [List.nil_append, ← List.range_eq_range']
  · intro k hk hfail
    rw [← List.range_eq_range'] at hk
    exact hno ⟨k, List.mem_range.1 hk, hfail⟩

theorem not_reports_of_ok (h : w.splitFile src chunkBytes disk = (some (.ok parts), disk')) :
    ¬Reports w chunkBytes := by
  have hbegins := begins_of_ok h
  rintro (hno | ⟨k, hk, hfail⟩)
  · exact hno hbegins
  · rw [splitFile_of_begins hbegins] at h
    obtain ⟨err, herr⟩ := splitParts_error src disk [] (Source.At.start w _)
      ⟨k, by rwa [← List.range_eq_range', List.mem_range], hfail⟩
    rw [herr] at h
    cases h

/-- The bytes of the files put together. -/
def joined (disk : Disk) (parts : List Path) : List UInt8 := parts.flatMap fun p => (disk p).getD []

theorem joined_withParts (w : SplitWorld) (src : Path) (chunk : Nat) (disk : Disk) (indices : List Nat) :
    joined (withParts w src chunk indices disk) (indices.map (partPath src)) =
      indices.flatMap (partContent w chunk) := by
  unfold joined
  rw [List.flatMap_map]
  refine List.flatMap_congr fun i hi => ?_
  rw [withParts_of_mem hi, Option.getD_some]

/-! ### The number of the parts -/

/-- The number of pieces of this length. -/
def pieceCount (total chunk : Nat) : Nat := (total + chunk - 1) / chunk

theorem chunkCount_eq (total : Nat) (hc : 0 < chunk) :
    chunkCount total chunk = (pieceCount total chunk : Int).bmod 4294967296 := by
  have hcast : ((total + chunk - 1 : Nat) : Int) = (total : Int) + chunk - 1 := by omega
  unfold chunkCount pieceCount
  rw [← hcast, ← Int.natCast_ediv]

theorem partCount_of_lt (hc : 0 < chunk) (hlt : pieceCount w.content.length chunk < 2 ^ 31) :
    chunkCount w.content.length chunk = pieceCount w.content.length chunk ∧
      w.partCount chunk = pieceCount w.content.length chunk := by
  have hcount := chunkCount_eq w.content.length hc
  unfold SplitWorld.partCount
  rw [hcount]
  have hbmod : (pieceCount w.content.length chunk : Int).bmod 4294967296 =
      pieceCount w.content.length chunk := Int.bmod_eq_of_le (by omega) (by omega)
  rw [hbmod]
  exact ⟨rfl, Int.toNat_natCast _⟩

theorem lt_of_partCount (hc : 0 < chunk) (hle : pieceCount w.content.length chunk ≤ w.partCount chunk) :
    pieceCount w.content.length chunk < 2 ^ 31 := by
  have hcount := chunkCount_eq w.content.length hc
  unfold SplitWorld.partCount at hle
  rw [hcount] at hle
  have hupper := Int.bmod_lt (x := (pieceCount w.content.length chunk : Int)) (m := 4294967296)
    (by decide)
  omega

/-! ### What the parts hold -/

theorem partContent_begins (w : SplitWorld) (chunk i : Nat) :
    partContent w chunk i <+: piece chunk w.content i :=
  (List.take_prefix _ _).trans (piece_begins w.delivers)

/-- All is read, the number of the parts is not cut off, and no byte is lost when a part is closed. -/
structure CopiesAll (w : SplitWorld) (chunk : Nat) : Prop where
  delivered : w.delivered = w.content
  counted : pieceCount w.content.length chunk < 2 ^ 31
  kept : ∀ i < pieceCount w.content.length chunk, w.loses i = 0

theorem CopiesAll.partContent (h : CopiesAll w chunk) (hi : i < pieceCount w.content.length chunk) :
    partContent w chunk i = piece chunk w.content i := by
  unfold Telegram.partContent SplitWorld.closed
  rw [h.kept i hi, h.delivered, Nat.sub_zero, List.take_length]

/-- A piece that is whole in its file was delivered, and nothing of it was lost. -/
theorem whole_inv (hne : piece chunk w.content i ≠ [])
    (h : partContent w chunk i = piece chunk w.content i) :
    w.loses i = 0 ∧ piece chunk w.delivered i = piece chunk w.content i := by
  have hpre := piece_begins (c := chunk) (i := i) w.delivers
  have hle := hpre.length_le
  have hpos := List.length_pos_iff.2 hne
  have hlen := congrArg List.length h
  unfold Telegram.partContent SplitWorld.closed at hlen
  rw [List.length_take] at hlen
  exact ⟨by omega, hpre.eq_of_length (by omega)⟩

theorem joined_eq_iff (hc : 0 < chunk) :
    (List.range (w.partCount chunk)).flatMap (partContent w chunk) = w.content ↔ CopiesAll w chunk := by
  rw [flatMap_prefix_iff (partContent_begins w chunk)]
  constructor
  · rintro ⟨hcover, hall⟩
    have hlt := lt_of_partCount hc (le_of_covers hc hcover)
    obtain ⟨-, hcount⟩ := partCount_of_lt hc hlt
    rw [hcount] at hcover hall
    have hwhole : ∀ i < pieceCount w.content.length chunk,
        w.loses i = 0 ∧ piece chunk w.delivered i = piece chunk w.content i := by
      intro i hi
      exact whole_inv (piece_ne_nil hc (mul_lt_of_lt_ceil hc hi)) (hall i hi)
    refine ⟨w.delivers.eq_of_length_le ?_, hlt, fun i hi => (hwhole i hi).1⟩
    have hpieces : (List.range (pieceCount w.content.length chunk)).flatMap (piece chunk w.delivered) =
        w.content :=
      (List.flatMap_congr fun i hi => (hwhole i (List.mem_range.1 hi)).2).trans (flatMap_piece_of_le hcover)
    have hlen := congrArg List.length hpieces
    rw [flatMap_piece, List.length_take] at hlen
    omega
  · intro h
    obtain ⟨-, hcount⟩ := partCount_of_lt hc h.counted
    rw [hcount]
    exact ⟨ceil_covers hc _, fun i hi => h.partContent hi⟩

/-- Nothing goes wrong. -/
structure SplitWorld.Faultless (w : SplitWorld) : Prop where
  opened : w.opened = true
  sized : w.sizeFails = none
  delivered : w.delivered = w.content
  creates : ∀ i, w.creates i = true
  writes : ∀ i j, w.writes i j = true
  kept : ∀ i, w.loses i = 0

/-- Where nothing goes wrong the parts are the pieces of the file. -/
theorem split_lossless (src : Path) (disk : Disk) (hw : w.Faultless) (hc : 0 < chunk)
    (hfew : pieceCount w.content.length chunk < 2 ^ 31) :
    (w.splitFile src chunk disk = (some (.ok ((List.range (pieceCount w.content.length chunk)).map
        (partPath src))), withParts w src chunk (List.range (pieceCount w.content.length chunk)) disk)) ∧
      ∀ i < pieceCount w.content.length chunk, partContent w chunk i = piece chunk w.content i := by
  obtain ⟨hcounted, hcount⟩ := partCount_of_lt hc hfew
  have hbegins : Begins w chunk := ⟨hw.opened, hw.sized, by omega, by omega⟩
  have hno : ¬Reports w chunk := by
    rintro (hno | ⟨i, -, hcreate | ⟨d, -, -, hwrite⟩⟩)
    · exact hno hbegins
    · rw [hw.creates] at hcreate
      cases hcreate
    · rw [hw.writes] at hwrite
      cases hwrite
  have hcopies : CopiesAll w chunk := ⟨hw.delivered, hfew, fun i _ => hw.kept i⟩
  refine ⟨?_, fun i hi => hcopies.partContent hi⟩
  rw [splitFile_ok hno, hcount, Int.toNat_natCast]

/-- When `split_file` returns its parts, they make up the file, in every case exactly if a failure is
checked for or all is copied. -/
theorem split_complete_iff (w : SplitWorld) (src : Path) (chunkBytes : Int) (disk : Disk) :
    (∀ parts disk', w.splitFile src chunkBytes disk = (some (.ok parts), disk') →
      joined disk' parts = w.content) ↔
      Reports w chunkBytes ∨ CopiesAll w chunkBytes.toNat := by
  by_cases hreports : Reports w chunkBytes
  · refine iff_of_true ?_ (.inl hreports)
    intro parts disk' h
    exact absurd hreports (not_reports_of_ok h)
  · have hbegins := not_not.1 (not_or.1 hreports).1
    obtain ⟨chunk, rfl⟩ := Int.eq_ofNat_of_zero_le hbegins.positive.le
    have hc : 0 < chunk := by
      have hpositive := hbegins.positive
      omega
    have hcopies : CopiesAll w (chunk : Int).toNat ↔ CopiesAll w chunk := by
      rw [Int.toNat_natCast]
    have hjoined := joined_withParts w src chunk disk (List.range (w.partCount chunk))
    rw [splitFile_ok hreports, or_iff_right hreports, hcopies, ← joined_eq_iff hc, ← hjoined,
      Int.toNat_natCast]
    constructor
    · intro h
      exact h _ _ rfl
    · intro h parts disk' heq
      cases heq
      exact h

/-- A file that has become one byte long since its size of three bytes was taken. -/
def truncated : SplitWorld := { content := [1, 2, 3], delivered := [1], delivers := ⟨[2, 3], rfl⟩ }

theorem not_reports_truncated : ¬Reports truncated 2 := by
  rintro (hno | ⟨i, -, hcreate | ⟨d, -, -, hwrite⟩⟩)
  · exact hno ⟨rfl, rfl, by decide, by decide⟩
  · cases hcreate
  · cases hwrite

/-- Two parts are returned, with one byte between them. -/
theorem truncated_file_split : ¬∀ parts disk', truncated.splitFile "f" 2 (fun _ => none) =
    (some (.ok parts), disk') → (joined disk' parts).length = truncated.content.length ∧
      joined disk' parts = truncated.content := by
  intro h
  have hlen := (h _ _ (splitFile_ok not_reports_truncated)).1
  rw [joined_withParts] at hlen
  exact absurd hlen (by decide)

end Cmlb.Upload.Telegram
