import Cmlb.Lib.Separated

/-!
# Lines from a pipe (`LineSlicer`)

The bytes of a pipe come in chunks. `feed` hands over the lines that are complete and keeps the rest,
`flush` hands over what is left at the end. Where the chunks were cut makes no difference
(`sliced_eq`).
-/

namespace Cmlb.System

open Separated

def lineFeed : UInt8 := 10

def carriageReturn : UInt8 := 13

/-- `full` is the capture string, if there is one, and `onLine` says if there is a callback. -/
structure LineSlicer where
  full : Option (List UInt8)
  pending : List UInt8 := []
  onLine : Bool
deriving DecidableEq

/-- `pending.find('\n', pos)`. -/
def findLineFeed (pending : List UInt8) (pos : Nat) : Option Nat :=
  ((pending.drop pos).idxOf? lineFeed).map (pos + ·)

/-- Where the line from `pos` to `end` ends without a `\r`. -/
def lineEnd (pending : List UInt8) (pos stop : Nat) : Nat :=
  if pos < stop ∧ pending[stop - 1]? = some carriageReturn then stop - 1 else stop

/-- The loop over the line feeds from `pos` on: the lines for the callback, and `pos` after it. A round
takes a byte at least. -/
def sliceFrom (pending : List UInt8) : Nat → Nat → List (List UInt8) × Nat
  | 0, pos => ([], pos)
  | fuel + 1, pos =>
    match findLineFeed pending pos with
    | none => ([], pos)
    | some nl =>
      let line := (pending.drop pos).take (lineEnd pending pos nl - pos)
      let (lines, pos') := sliceFrom pending fuel (nl + 1)
      (line :: lines, pos')

namespace LineSlicer

/-- The slicer after the chunk, and what the callback was called with. -/
def feed (s : LineSlicer) (chunk : List UInt8) : LineSlicer × List (List UInt8) :=
  let full := s.full.map (· ++ chunk)
  if s.onLine then
    let pending := s.pending ++ chunk
    let (lines, pos) := sliceFrom pending pending.length 0
    ({ s with full := full, pending := pending.drop pos }, lines)
  else ({ s with full := full }, [])

def flush (s : LineSlicer) : LineSlicer × List (List UInt8) :=
  if s.onLine = false ∨ s.pending = [] then (s, [])
  else
    let stop := lineEnd s.pending 0 s.pending.length
    ({ s with pending := [] }, if 0 < stop then [s.pending.take stop] else [])

/-- Chunk after chunk, as they are read from the pipe. -/
def feedAll (s : LineSlicer) : List (List UInt8) → LineSlicer × List (List UInt8)
  | [] => (s, [])
  | chunk :: chunks =>
    let (s, lines) := s.feed chunk
    let (s', lines') := s.feedAll chunks
    (s', lines ++ lines')

end LineSlicer

/-- The line without one `\r` at its end. -/
def chomp (line : List UInt8) : List UInt8 :=
  if line.getLast? = some carriageReturn then line.dropLast else line

/-- The lines of the bytes, cut at once: those that are ended, and what stands after them if there is
something. -/
def linesOf (bytes : List UInt8) : List (List UInt8) :=
  (complete lineFeed bytes).map chomp ++ [chomp (rest lineFeed bytes)].filter (· ≠ [])

variable {pending : List UInt8} {fuel pos : Nat}

theorem take_lineEnd (pending : List UInt8) (pos len : Nat) (h : pos + len ≤ pending.length) :
    (pending.drop pos).take (lineEnd pending pos (pos + len) - pos) = chomp ((pending.drop pos).take len) := by
  have hlast : 0 < len → ((pending.drop pos).take len).getLast? = pending[pos + len - 1]? := by
    intro hpos
    rw [List.getLast?_eq_getElem?, List.length_take, List.length_drop, List.getElem?_take_of_lt (by omega),
      List.getElem?_drop]
    congr 1
    omega
  unfold lineEnd chomp
  by_cases hzero : len = 0
  · subst hzero
    simp
  · rw [hlast (by omega)]
    by_cases hcr : pending[pos + len - 1]? = some carriageReturn
    · rw [if_pos ⟨by omega, hcr⟩, if_pos hcr, List.dropLast_eq_take, List.length_take, List.length_drop,
        List.take_take]
      congr 1
      omega
    · rw [if_neg (fun h => hcr h.2), if_neg hcr]
      congr 1
      omega

theorem findLineFeed_eq_none (h : findLineFeed pending pos = none) : lineFeed ∉ pending.drop pos := by
  simpa [findLineFeed] using h

theorem findLineFeed_eq_some {nl : Nat} (h : findLineFeed pending pos = some nl) :
    ∃ u v, pending.drop pos = u ++ lineFeed :: v ∧ lineFeed ∉ u ∧ nl = pos + u.length := by
  obtain ⟨k, hk, rfl⟩ := Option.map_eq_some_iff.1 h
  obtain ⟨u, v, heq, hu, rfl⟩ := exists_of_idxOf? hk
  exact ⟨u, v, heq, hu, rfl⟩

/-- The loop cuts what is behind `pos`. -/
theorem sliceFrom_eq (hfuel : pending.length ≤ fuel + pos) :
    (sliceFrom pending fuel pos).1 = (complete lineFeed (pending.drop pos)).map chomp ∧
      pending.drop (sliceFrom pending fuel pos).2 = rest lineFeed (pending.drop pos) := by
  induction fuel generalizing pos with
  | zero =>
    rw [List.drop_of_length_le (by omega : pending.length ≤ pos)]
    exact ⟨rfl, List.drop_of_length_le (by simpa [sliceFrom] using hfuel)⟩
  | succ fuel ih =>
    unfold sliceFrom
    cases hfind : findLineFeed pending pos with
    | none =>
      have hno := findLineFeed_eq_none hfind
      rw [complete_of_notMem hno, rest_of_notMem hno]
      exact ⟨rfl, rfl⟩
    | some nl =>
      obtain ⟨u, v, hsplit, hu, rfl⟩ := findLineFeed_eq_some hfind
      have hlen : u.length + (v.length + 1) = pending.length - pos := by
        rw [← List.length_drop, hsplit, List.length_append, List.length_cons]
      have hline : (pending.drop pos).take u.length = u := by
        rw [hsplit, List.take_left]
      have hfuel' : pending.length ≤ fuel + (pos + u.length + 1) := by omega
      have hnext : pending.drop (pos + u.length + 1) = v := by
        rw [Nat.add_assoc, ← List.drop_drop, hsplit, ← List.drop_drop, List.drop_left]
        rfl
      obtain ⟨hlines, hrest⟩ := ih hfuel'
      rw [hnext] at hlines hrest
      have hcomplete : complete lineFeed (pending.drop pos) = u :: complete lineFeed v := by
        rw [hsplit, complete_append_cons hu]
      have hrest' : rest lineFeed (pending.drop pos) = rest lineFeed v := by
        rw [hsplit, rest_append_cons hu]
      have hchomp := take_lineEnd pending pos u.length (by omega)
      rw [hline] at hchomp
      dsimp only
      rw [hcomplete, hrest', List.map_cons, hchomp, hlines]
      exact ⟨rfl, hrest⟩

variable {s : LineSlicer} {bytes : List UInt8}

/-- What a slicer has made of the bytes so far. -/
structure LineSlicer.Holds (s : LineSlicer) (bytes : List UInt8) : Prop where
  full : s.full = some bytes
  pending : s.pending = rest lineFeed bytes
  onLine : s.onLine = true

theorem LineSlicer.Holds.feed (h : s.Holds bytes) (chunk : List UInt8) :
    (s.feed chunk).1.Holds (bytes ++ chunk) ∧ (complete lineFeed bytes).map chomp ++ (s.feed chunk).2 =
      (complete lineFeed (bytes ++ chunk)).map chomp := by
  have hslice := sliceFrom_eq (Nat.le_add_right (s.pending ++ chunk).length 0)
  rw [List.drop_zero, h.pending, ← rest_append] at hslice
  unfold LineSlicer.feed
  rw [if_pos h.onLine]
  refine ⟨⟨?_, ?_, h.onLine⟩, ?_⟩
  · rw [h.full]
    rfl
  · rw [← h.pending] at hslice
    exact hslice.2
  · rw [complete_append, List.map_append, ← hslice.1, h.pending]

theorem LineSlicer.Holds.feedAll (h : s.Holds bytes) (chunks : List (List UInt8)) :
    (s.feedAll chunks).1.Holds (bytes ++ chunks.flatten) ∧
      (complete lineFeed bytes).map chomp ++ (s.feedAll chunks).2 =
        (complete lineFeed (bytes ++ chunks.flatten)).map chomp := by
  induction chunks generalizing s bytes with
  | nil => simpa [LineSlicer.feedAll] using h
  | cons chunk chunks ih =>
    obtain ⟨hs, hlines⟩ := h.feed chunk
    obtain ⟨hs', hlines'⟩ := ih hs
    rw [List.flatten_cons, ← List.append_assoc]
    refine ⟨hs', ?_⟩
    rw [← hlines', ← hlines, List.append_assoc]
    rfl

theorem LineSlicer.Holds.flush (h : s.Holds bytes) :
    s.flush.1.full = some bytes ∧ s.flush.2 = [chomp (rest lineFeed bytes)].filter (· ≠ []) := by
  have hend := take_lineEnd s.pending 0 s.pending.length (by omega)
  rw [Nat.zero_add, Nat.sub_zero, List.drop_zero, List.take_length, h.pending] at hend
  unfold LineSlicer.flush
  rw [h.onLine, h.pending]
  by_cases hnil : rest lineFeed bytes = []
  · rw [if_pos (.inr hnil), hnil]
    exact ⟨h.full, rfl⟩
  · rw [if_neg (by simp [hnil])]
    refine ⟨h.full, ?_⟩
    dsimp only
    rw [← hend]
    generalize lineEnd (rest lineFeed bytes) 0 (rest lineFeed bytes).length = stop
    rcases Nat.eq_zero_or_pos stop with rfl | hpos
    · simp
    · have hne : (rest lineFeed bytes).take stop ≠ [] := by simp [hnil, Nat.ne_of_gt hpos]
      simp [hpos, hne]

/-- The slicer of a pipe that is captured and has a callback, before the first byte. -/
def fresh : LineSlicer where
  full := some []
  onLine := true

/-- However the bytes are cut into chunks, the callback gets their lines, and the capture string has
them all. -/
theorem sliced_eq (chunks : List (List UInt8)) :
    (fresh.feedAll chunks).2 ++ (fresh.feedAll chunks).1.flush.2 = linesOf chunks.flatten ∧
      (fresh.feedAll chunks).1.flush.1.full = some chunks.flatten := by
  have hstart : fresh.Holds [] := ⟨rfl, rfl, rfl⟩
  obtain ⟨hs, hlines⟩ := hstart.feedAll chunks
  obtain ⟨hfull, hlast⟩ := hs.flush
  rw [List.nil_append] at hlines hfull hlast
  refine ⟨?_, hfull⟩
  rw [linesOf, hlast, ← hlines]
  rfl

/-- A `\r` and the `\n` after it that come in two chunks. -/
example : (fresh.feedAll [[97, 13], [10, 98], [13]]).2 = [[97]] := by decide

end Cmlb.System
