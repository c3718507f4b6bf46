import Cmlb.Upload.SplitCall
import Cmlb.Upload.SplitFile

/-!
# The directory after an upload (`TelegramUploader::upload_file`)

`split_file` creates its parts next to the file under names that it does not look up, and truncates what
is there. `PartsCleanup` removes them, but there is one only when all of them have been written. So the
directory is as before exactly if each part that was created is removed and was not there, or is left
with the bytes that were there (`uploadFile_keeps_iff`).

`SplitWorld.splitFile_dialog` has the calls of a split in its world, and what they leave.
-/

namespace Cmlb.Upload.Telegram

/-- `PartsCleanup`: `removes p` says if `fs::remove` of `p` works. -/
def removeParts (removes : Path → Bool) (disk : Disk) (parts : List Path) : Disk :=
  parts.foldl (fun disk p => if removes p then Function.update disk p none else disk) disk

/-- What a call leaves in the directory: `bytes p` are the bytes in the file of the part `p` when its
stream has been closed. The parts are removed when their workers have been waited for. -/
def leaves (bytes : Path → List UInt8) (removes : Path → Bool) (disk : Disk) :
    (Σ c, TelegramCall.Answer c) → Disk
  | ⟨.writePart _, .cannotCreate⟩ => disk
  | ⟨.writePart p, .failed⟩ | ⟨.writePart p, .written⟩ => Function.update disk p (some (bytes p))
  | ⟨.joinParts _ parts, _⟩ => removeParts removes disk parts
  | _ => disk

def afterCalls (bytes : Path → List UInt8) (removes : Path → Bool) (disk : Disk) (log : TelegramLog) : Disk :=
  log.foldl (leaves bytes removes) disk

/-- The call has created the part `p`, or has truncated it. -/
def Creates (p : Path) : (Σ c, TelegramCall.Answer c) → Prop
  | ⟨.writePart q, outcome⟩ => q = p ∧ outcome ≠ .cannotCreate
  | _ => False

def Created (log : TelegramLog) (p : Path) : Prop := ∃ e ∈ log, Creates p e

def TelegramCall.Joins : TelegramCall → Prop
  | .joinParts _ _ => True
  | _ => False

variable {T : TelegramUploader} {path : Path} {config : UploadConfig} {log : TelegramLog}
  {r : Result UploadResult} {bytes : Path → List UInt8} {removes : Path → Bool} {disk : Disk} {p : Path}
  {parts : List Path} {e : Σ c, TelegramCall.Answer c}

/-! ### What the calls leave -/

theorem removeParts_of_removed (hp : p ∈ parts) (hremoves : removes p = true) :
    removeParts removes disk parts p = none := by
  have hstays : ∀ (parts : List Path) (disk : Disk), disk p = none →
      removeParts removes disk parts p = none := by
    intro parts
    induction parts with
    | nil => exact fun _ h => h
    | cons q parts ih =>
      intro disk h
      refine ih _ ?_
      dsimp only
      split
      · by_cases hq : p = q
        · rw [hq, Function.update_self]
        · rw [Function.update_of_ne hq, h]
      · exact h
  induction parts generalizing disk with
  | nil => cases hp
  | cons q parts ih =>
    rcases List.mem_cons.1 hp with rfl | hp
    · refine hstays parts _ ?_
      dsimp only
      rw [if_pos hremoves, Function.update_self]
    · exact ih hp

theorem removeParts_of_kept (h : p ∉ parts ∨ removes p = false) :
    removeParts removes disk parts p = disk p := by
  induction parts generalizing disk with
  | nil => rfl
  | cons q parts ih =>
    have hrest : p ∉ parts ∨ removes p = false := h.imp_left (mt (List.mem_cons_of_mem q))
    refine (ih hrest).trans ?_
    dsimp only
    split
    · rename_i hq
      have hne : p ≠ q := by
        rintro rfl
        rcases h with h | h
        · exact h List.mem_cons_self
        · rw [h] at hq
          cases hq
      exact Function.update_of_ne hne _ _
    · rfl

theorem leaves_of_creates (h : Creates p e) : leaves bytes removes disk e p = some (bytes p) := by
  obtain ⟨c, answer⟩ := e
  cases c with
  | writePart q =>
    obtain ⟨rfl, hne⟩ := h
    cases answer with
    | cannotCreate => exact absurd rfl hne
    | failed | written => exact Function.update_self ..
  | _ => exact h.elim

theorem leaves_of_not_creates (hjoin : ¬e.1.Joins) (h : ¬Creates p e) :
    leaves bytes removes disk e p = disk p := by
  obtain ⟨c, answer⟩ := e
  cases c with
  | writePart q =>
    cases answer with
    | cannotCreate => rfl
    | failed | written =>
      have hne : p ≠ q := fun heq => h ⟨heq.symm, fun h => by cases h⟩
      exact Function.update_of_ne hne _ _
  | joinParts => exact absurd trivial hjoin
  | _ => rfl

theorem afterCalls_of_not_created (hjoin : ∀ e ∈ log, ¬e.1.Joins) (h : ¬Created log p) :
    afterCalls bytes removes disk log p = disk p := by
  induction log generalizing disk with
  | nil => rfl
  | cons e log ih =>
    obtain ⟨hj, hjoin⟩ := List.forall_mem_cons.1 hjoin
    have hrest : ¬Created log p := fun ⟨x, hx, hc⟩ => h ⟨x, List.mem_cons_of_mem _ hx, hc⟩
    refine (ih hjoin hrest).trans ?_
    exact leaves_of_not_creates hj fun hc => h ⟨e, List.mem_cons_self, hc⟩

theorem afterCalls_of_created (hjoin : ∀ e ∈ log, ¬e.1.Joins) (h : Created log p) :
    afterCalls bytes removes disk log p = some (bytes p) := by
  induction log generalizing disk with
  | nil =>
    obtain ⟨e, he, -⟩ := h
    cases he
  | cons e log ih =>
    obtain ⟨-, hjoin⟩ := List.forall_mem_cons.1 hjoin
    by_cases hrest : Created log p
    · exact ih hjoin hrest
    · refine (afterCalls_of_not_created hjoin hrest).trans ?_
      obtain ⟨x, hx, hc⟩ := h
      rcases List.mem_cons.1 hx with rfl | hx
      · exact leaves_of_creates hc
      · exact absurd ⟨x, hx, hc⟩ hrest

/-! ### The directory after the call -/

/-- A part that was created is removed and was not there, or was there with what is left in it. It is
removed if all parts were written and `fs::remove` of it works. -/
def Restored (bytes : Path → List UInt8) (removes : Path → Bool) (disk : Disk) (log : TelegramLog)
    (p : Path) : Prop :=
  (AllWritten log ∧ removes p = true → disk p = none) ∧
    (¬(AllWritten log ∧ removes p = true) → disk p = some (bytes p))

theorem created_append {log' : TelegramLog} : Created (log ++ log') p ↔ Created log p ∨ Created log' p := by
  simp only [Created, List.mem_append, or_and_right, exists_or]

/-- The parts that were created are those that were written, or begun. -/
theorem created_iff : Created log p ↔ ∃ outcome, outcome ≠ PartWrite.cannotCreate ∧
    (⟨.writePart p, outcome⟩ : Σ c, TelegramCall.Answer c) ∈ log := by
  constructor
  · rintro ⟨⟨c, answer⟩, he, hc⟩
    cases c with
    | writePart q =>
      obtain ⟨rfl, hne⟩ := hc
      exact ⟨answer, hne, he⟩
    | _ => exact hc.elim
  · rintro ⟨outcome, hne, he⟩
    exact ⟨_, he, rfl, hne⟩

theorem not_created_of_prepares (h : ∀ e ∈ log, e.1.Prepares) : ¬Created log p := by
  intro hp
  obtain ⟨outcome, -, he⟩ := created_iff.1 hp
  exact h _ he

theorem not_joins_of_prepares (h : ∀ e ∈ log, e.1.Prepares) : ∀ e ∈ log, ¬e.1.Joins := by
  rintro ⟨c, answer⟩ he
  cases c with
  | joinParts => exact fun _ => h _ he
  | _ => exact fun hj => hj

theorem not_joins_of_splits (h : ∀ e ∈ log, e.1.Splits) : ∀ e ∈ log, ¬e.1.Joins := by
  rintro ⟨c, answer⟩ he
  cases c with
  | joinParts => exact fun _ => h _ he
  | _ => exact fun hj => hj

/-- Without a cleanup the parts that were created are there. -/
theorem afterCalls_eq_iff (hjoin : ∀ e ∈ log, ¬e.1.Joins) :
    afterCalls bytes removes disk log = disk ↔ ∀ p, Created log p → disk p = some (bytes p) := by
  constructor
  · intro h p hp
    rw [← h, afterCalls_of_created hjoin hp]
  · intro h
    funext p
    by_cases hp : Created log p
    · rw [afterCalls_of_created hjoin hp, h p hp]
    · exact afterCalls_of_not_created hjoin hp

theorem uncreated_keeps (hjoin : ∀ e ∈ log, ¬e.1.Joins) (hno : ∀ p, ¬Created log p) :
    afterCalls bytes removes disk log = disk ↔
      ∀ p, Created log p → Restored bytes removes disk log p := by
  rw [afterCalls_eq_iff hjoin]
  exact forall_congr' fun p => by simp [hno p]

/-- After a split that failed nothing is removed. -/
theorem unsplit_keeps (hjoin : ∀ e ∈ log, ¬e.1.Joins) (hnot : ∀ p, Created log p → ¬AllWritten log) :
    afterCalls bytes removes disk log = disk ↔
      ∀ p, Created log p → Restored bytes removes disk log p := by
  rw [afterCalls_eq_iff hjoin]
  refine forall_congr' fun p => imp_congr_right fun hp => ?_
  have hkept : ¬(AllWritten log ∧ removes p = true) := fun h => hnot p hp h.1
  simp [Restored, hkept]

theorem split_keeps {configured : Int} {j : TelegramCall.Answer (.joinParts configured parts)}
    (hjoin : ∀ e ∈ log, ¬e.1.Joins) (hall : AllWritten (log ++ [⟨.joinParts configured parts, j⟩]))
    (hparts : ∀ p, Created log p ↔ p ∈ parts) :
    afterCalls bytes removes disk (log ++ [⟨.joinParts configured parts, j⟩]) = disk ↔
      ∀ p, Created (log ++ [⟨.joinParts configured parts, j⟩]) p →
        Restored bytes removes disk (log ++ [⟨.joinParts configured parts, j⟩]) p := by
  have hafter : afterCalls bytes removes disk (log ++ [⟨.joinParts configured parts, j⟩]) =
      removeParts removes (afterCalls bytes removes disk log) parts := by
    unfold afterCalls
    rw [List.foldl_append]
    rfl
  have hcreated : ∀ p, Created (log ++ [⟨.joinParts configured parts, j⟩]) p ↔ p ∈ parts := by
    intro p
    rw [created_append, ← hparts]
    simp [Created, Creates]
  rw [hafter, funext_iff]
  refine forall_congr' fun p => ?_
  rw [hcreated]
  by_cases hp : p ∈ parts
  · have hthere : afterCalls bytes removes disk log p = some (bytes p) :=
      afterCalls_of_created hjoin ((hparts p).2 hp)
    by_cases hremoves : removes p = true
    · rw [removeParts_of_removed hp hremoves]
      simp [Restored, hall, hremoves, hp, eq_comm]
    · rw [removeParts_of_kept (.inr (by simpa using hremoves)), hthere]
      simp [Restored, hremoves, hp, eq_comm]
  · rw [removeParts_of_kept (.inl hp), afterCalls_of_not_created hjoin (mt (hparts p).1 hp)]
    simp [hp]

/-- However `upload_file` ends, the directory is as before exactly if each part that it has created is
restored. -/
theorem uploadFile_keeps_iff (bytes : Path → List UInt8) (removes : Path → Bool) (disk : Disk)
    (h : (T.uploadFile path config).Dialog log r) :
    afterCalls bytes removes disk log = disk ↔
      ∀ p, Created log p → Restored bytes removes disk log p := by
  cases uploadFile_run h with
  | failed hprepares =>
    exact uncreated_keeps (not_joins_of_prepares hprepares) fun p => not_created_of_prepares hprepares
  | whole hprepares =>
    refine uncreated_keeps (List.forall_mem_append.2 ⟨not_joins_of_prepares hprepares, ?_⟩) fun p hp => ?_
    · simp [TelegramCall.Joins]
    · rcases created_append.1 hp with hp | hp
      · exact not_created_of_prepares hprepares hp
      · simp [Created, Creates] at hp
  | @unsplit prepared splitting err hprepares hsplit =>
    have hsplits := (only_splitFile path config.splitSize).dialog hsplit
    refine unsplit_keeps (List.forall_mem_append.2
      ⟨not_joins_of_prepares hprepares, not_joins_of_splits hsplits⟩) fun p hp hall => ?_
    rw [created_append, or_iff_right (not_created_of_prepares hprepares)] at hp
    obtain ⟨outcome, -, he⟩ := created_iff.1 hp
    exact splitFile_unwritten hsplit he fun q o hmem => hall q o (List.mem_append_right _ hmem)
  | @split prepared splitting parts hprepares hsplit j =>
    obtain ⟨hall, hparts, -⟩ := splitFile_written hsplit
    have hsplits := (only_splitFile path config.splitSize).dialog hsplit
    refine split_keeps (List.forall_mem_append.2
      ⟨not_joins_of_prepares hprepares, not_joins_of_splits hsplits⟩) ?_ fun p => ?_
    · intro p outcome hmem
      rcases List.mem_append.1 hmem with hmem | hmem
      · rcases List.mem_append.1 hmem with hmem | hmem
        · exact (hprepares _ hmem).elim
        · exact hall p outcome hmem
      · simp at hmem
    · rw [created_append, or_iff_right (not_created_of_prepares hprepares), created_iff, hparts]
      constructor
      · rintro ⟨outcome, -, he⟩
        cases hall p outcome he
        exact he
      · intro hmem
        exact ⟨.written, by simp, hmem⟩

/-! ### The split in its world -/

/-- The calls of the loop over the parts, and what they leave. -/
theorem SplitWorld.splitParts_dialog {w : SplitWorld} {src : Path} {chunk left i : Nat} {s : Source}
    {res : Result (List Path)} {disk' : Disk} (removes : Path → Bool)
    (h : w.splitParts src chunk left i s disk parts = (res, disk')) :
    ∃ log, (Telegram.splitParts src left i parts).Dialog log res ∧
      (∀ e ∈ log, ∃ k outcome, i ≤ k ∧ e = ⟨.writePart (partPath src k), outcome⟩) ∧
      afterCalls (fun p => (disk' p).getD []) removes disk log = disk' := by
  induction left generalizing i s disk parts with
  | zero =>
    cases h
    exact ⟨[], .pure _, by simp, rfl⟩
  | succ left ih =>
    unfold SplitWorld.splitParts at h
    dsimp only at h
    split at h
    · split at h
      · rename_i s' written _
        obtain ⟨log, hd, hlog, hafter⟩ := ih h
        have hthere : disk' (partPath src i) = some (w.closed i written) := by
          rw [← hafter, afterCalls_of_not_created]
          · exact Function.update_self ..
          · intro e he
            obtain ⟨k, outcome, -, rfl⟩ := hlog e he
            exact fun hj => hj
          · rintro ⟨e, he, hc⟩
            obtain ⟨k, outcome, hk, rfl⟩ := hlog e he
            have heq := partPath_injective src hc.1
            omega
        refine ⟨⟨.writePart (partPath src i), .written⟩ :: log, .call _ hd, ?_, ?_⟩
        · intro e he
          rcases List.mem_cons.1 he with rfl | he
          · exact ⟨i, _, le_rfl, rfl⟩
          · obtain ⟨k, outcome, hk, rfl⟩ := hlog e he
            exact ⟨k, outcome, by omega, rfl⟩
        · show afterCalls _ _ (Function.update disk _ (some ((disk' (partPath src i)).getD []))) log = disk'
          rw [hthere]
          exact hafter
      · cases h
        refine ⟨[⟨.writePart (partPath src i), .failed⟩], .call _ (.pure _), ?_, ?_⟩
        · intro e he
          exact ⟨i, _, le_rfl, List.mem_singleton.1 he⟩
        · show Function.update disk _ (some _) = _
          dsimp only
          rw [Function.update_self]
          rfl
    · cases h
      refine ⟨[⟨.writePart (partPath src i), .cannotCreate⟩], .call _ (.pure _), ?_, rfl⟩
      intro e he
      exact ⟨i, _, le_rfl, List.mem_singleton.1 he⟩

/-- What `fs::file_size` of the file answers. -/
def SplitWorld.fileSize (w : SplitWorld) : Except String Nat :=
  match w.sizeFails with
  | some what => .error what
  | none => .ok w.content.length

/-- A split in its world makes calls of `split_file` that are answered as the world has it, with the same
result, and the directory after it is what they leave. -/
theorem SplitWorld.splitFile_dialog {w : SplitWorld} {src : Path} {chunkBytes : Int}
    {res : Result (List Path)} {disk' : Disk} (removes : Path → Bool)
    (h : w.splitFile src chunkBytes disk = (some res, disk')) :
    ∃ log, (Telegram.splitFile src chunkBytes).Dialog log res ∧
      (∀ p size, ⟨.fileSize p, size⟩ ∈ log → p = src ∧ size = w.fileSize) ∧
      afterCalls (fun p => (disk' p).getD []) removes disk log = disk' := by
  unfold SplitWorld.splitFile at h
  split at h
  · split at h
    · rename_i what hfails
      cases h
      refine ⟨[⟨.openSource src, true⟩, ⟨.fileSize src, .error what⟩], .call _ (.call _ (.pure _)), ?_, rfl⟩
      simp [SplitWorld.fileSize, hfails]
    · rename_i hsized
      split at h
      · rename_i hnot
        cases h
        refine ⟨[⟨.openSource src, true⟩, ⟨.fileSize src, .ok w.content.length⟩], .call _ (.call _ ?_),
          by simp [SplitWorld.fileSize, hsized], rfl⟩
        show Prog.Dialog (if chunkBytes ≤ 0 then _ else _) _ _
        rw [if_pos hnot]
        exact .pure _
      · rename_i hpos
        dsimp only at h
        split at h
        · cases h
        · obtain ⟨log, hd, hlog, hafter⟩ := SplitWorld.splitParts_dialog (w := w) removes rfl
          cases h
          refine ⟨⟨.openSource src, true⟩ :: ⟨.fileSize src, .ok w.content.length⟩ :: log,
            .call _ (.call _ ?_), ?_, hafter⟩
          · show Prog.Dialog (if chunkBytes ≤ 0 then _ else _) _ _
            rw [if_neg hpos]
            exact hd
          · intro p size hmem
            have hnone : (⟨.fileSize p, size⟩ : Σ c, TelegramCall.Answer c) ∉ log := by
              intro hmem
              obtain ⟨k, outcome, -, heq⟩ := hlog _ hmem
              cases heq
            simpa [SplitWorld.fileSize, hsized, hnone] using hmem
  · cases h
    exact ⟨[⟨.openSource src, false⟩], .call _ (.pure _), by simp, rfl⟩

/-! ### A split that fails midway -/

def oneByOne : TelegramUploader := ⟨1, 1⟩

/-- The file is split into parts of two bytes. -/
def intoTwos : UploadConfig := { chatId := some ⟨1⟩, splitSize := 2 }

/-- A directory with the file only. -/
def onlyFile : Disk := Function.update (fun _ => none) "f" (some [1, 2, 3])

/-- The part `i` cannot be created. -/
def cannotCreate (i : Nat) : AppError :=
  ⟨.io, "telegram_uploader: cannot create part " ++ partPath "f" i⟩

theorem dialog_failed_split {splitting : TelegramLog} {err : AppError}
    (h : (splitFile "f" 2).Dialog splitting (.error err)) :
    (oneByOne.uploadFile "f" intoTwos).Dialog (beforeSplit "f" 3 ++ splitting) (.error err) := by
  have hsplit : (oneByOne.uploadSplit "f" intoTwos).Dialog (splitting ++ []) (.error err) :=
    h.bind (.pure _)
  rw [List.append_nil] at hsplit
  exact dialog_uploadFile rfl (by decide) hsplit

/-- Where the first part cannot be created nothing changes. -/
theorem uploadFile_keeps_iff_uncreated : ∃ log, (oneByOne.uploadFile "f" intoTwos).Dialog log
    (.error (cannotCreate 0)) ∧ afterCalls (fun _ => []) (fun _ => true) onlyFile log = onlyFile := by
  have hsplit : (splitFile "f" 2).Dialog [⟨.openSource "f", true⟩, ⟨.fileSize "f", .ok 3⟩,
      ⟨.writePart (partPath "f" 0), .cannotCreate⟩] (.error (cannotCreate 0)) :=
    .call _ (.call _ (.call _ (.pure _)))
  refine ⟨_, dialog_failed_split hsplit, ?_⟩
  refine (uploadFile_keeps_iff _ _ onlyFile (dialog_failed_split hsplit)).2 ?_
  intro p hp
  obtain ⟨outcome, hne, he⟩ := created_iff.1 hp
  have hcannot : outcome = .cannotCreate := by
    simp [beforeSplit] at he
    exact he.2
  exact absurd hcannot hne

/-- Where the second part cannot be created the first is left. -/
theorem part_left_behind : ¬∀ (removes : Path → Bool) (log : TelegramLog) (r : Result UploadResult),
    (oneByOne.uploadFile "f" intoTwos).Dialog log r →
      afterCalls (fun _ => [1, 2]) removes onlyFile log = onlyFile := by
  intro h
  have hsplit : (splitFile "f" 2).Dialog [⟨.openSource "f", true⟩, ⟨.fileSize "f", .ok 3⟩,
      ⟨.writePart (partPath "f" 0), .written⟩, ⟨.writePart (partPath "f" 1), .cannotCreate⟩]
        (.error (cannotCreate 1)) := .call _ (.call _ (.call _ (.call _ (.pure _))))
  have hsame := congrFun (h (fun _ => true) _ _ (dialog_failed_split hsplit)) (partPath "f" 0)
  rw [afterCalls_of_created, onlyFile, Function.update_of_ne (partPath_ne "f" 0).symm] at hsame
  · cases hsame
  · simp [beforeSplit, TelegramCall.Joins]
  · exact ⟨⟨.writePart (partPath "f" 0), .written⟩, by simp, rfl, fun h => by cases h⟩

end Cmlb.Upload.Telegram
