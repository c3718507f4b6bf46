import Cmlb.Upload.Telegram

/-!
# The calls of an upload that splits (`TelegramUploader::upload_file`)

What `upload_file` has called when it is done (`uploadFile_run`): it splits the file or it sends it
whole, and it hands the parts to its workers exactly if `split_file` has written each of them
(`splitFile_ok_iff`).
-/

namespace Cmlb.Upload.Telegram

abbrev TelegramLog := List (Σ c, TelegramCall.Answer c)

/-- What `upload_file` calls before it sends anything. -/
def TelegramCall.Prepares : TelegramCall → Prop
  | .fileExists _ | .fileSize _ | .cancellationState => True
  | _ => False

/-- What `split_file` calls. -/
def TelegramCall.Splits : TelegramCall → Prop
  | .openSource _ | .fileSize _ | .writePart _ => True
  | _ => False

/-- Every part that was begun was written. -/
def AllWritten (log : TelegramLog) : Prop :=
  ∀ p outcome, (⟨.writePart p, outcome⟩ : Σ c, TelegramCall.Answer c) ∈ log → outcome = PartWrite.written

/-- What `upload_file` has called and returns. -/
inductive UploadRun (T : TelegramUploader) (path : Path) (config : UploadConfig) :
    TelegramLog → Result UploadResult → Prop
  | failed {log : TelegramLog} {err : AppError} (h : ∀ e ∈ log, e.1.Prepares) :
      UploadRun T path config log (.error err)
  | whole {log : TelegramLog} {r : Result UploadResult} {size : Nat} {chat : ChatId} {caption : String}
      {thumbnail : Option Path} {sent : Result Int} (h : ∀ e ∈ log, e.1.Prepares)
      (hsize : ⟨.fileSize path, .ok size⟩ ∈ log) (hle : (size : Int) ≤ config.splitSize) :
      UploadRun T path config (log ++ [⟨.sendFile chat path caption thumbnail, sent⟩]) r
  | unsplit {log splitting : TelegramLog} {err : AppError} (h : ∀ e ∈ log, e.1.Prepares)
      (hsplit : (splitFile path config.splitSize).Dialog splitting (.error err)) :
      UploadRun T path config (log ++ splitting) (.error err)
  | split {log splitting : TelegramLog} {parts : List Path} (h : ∀ e ∈ log, e.1.Prepares)
      (hsplit : (splitFile path config.splitSize).Dialog splitting (.ok parts))
      (j : TelegramCall.Answer (.joinParts T.uploadParallelism parts)) :
      UploadRun T path config (log ++ splitting ++ [⟨.joinParts T.uploadParallelism parts, j⟩]) j.result

variable {T : TelegramUploader} {path src : Path} {config : UploadConfig} {log : TelegramLog}
  {r : Result UploadResult} {parts : List Path} {left i : Nat} {chunkBytes : Int}

/-! ### `split_file` -/

theorem only_splitParts (src : Path) (left i : Nat) (parts : List Path) :
    (splitParts src left i parts).Only TelegramCall.Splits := by
  induction left generalizing i parts with
  | zero => exact .pure _
  | succ left ih =>
    refine .ask_bind trivial fun outcome => ?_
    cases outcome with
    | cannotCreate | failed => exact .pure _
    | written => exact ih (i + 1) _

theorem only_splitFile (src : Path) (chunkBytes : Int) :
    (splitFile src chunkBytes).Only TelegramCall.Splits := by
  refine .ask_bind trivial fun opened => ?_
  split
  · refine .ask_bind trivial fun total => ?_
    cases total with
    | error what => exact .pure _
    | ok total =>
      dsimp only
      split
      · exact .pure _
      · exact only_splitParts src _ 0 []
  · exact .pure _

theorem AllWritten.of_cons {p : Path} {outcome : PartWrite}
    (h : AllWritten (⟨.writePart p, outcome⟩ :: log)) : outcome = .written ∧ AllWritten log :=
  ⟨h p outcome List.mem_cons_self, fun q o ho => h q o (List.mem_cons_of_mem _ ho)⟩

theorem AllWritten.cons {p : Path} (h : AllWritten log) :
    AllWritten (⟨.writePart p, .written⟩ :: log) := by
  intro q outcome hmem
  rcases List.mem_cons.1 hmem with heq | hmem
  · cases heq
    rfl
  · exact h q outcome hmem

/-- The loop returns the parts exactly if it has written each. -/
theorem splitParts_cases {res : Result (List Path)} (h : (splitParts src left i parts).Dialog log res) :
    (AllWritten log ∧ res = .ok (parts ++ (List.range' i left).map (partPath src)) ∧
        ∀ p, p ∈ (List.range' i left).map (partPath src) ↔ ⟨.writePart p, .written⟩ ∈ log) ∨
      ¬AllWritten log ∧ ∃ err, res = .error err := by
  induction left generalizing i parts log with
  | zero =>
    obtain ⟨rfl, rfl⟩ := h.pure_inv
    exact .inl ⟨fun _ _ hmem => absurd hmem List.not_mem_nil, by simp, by simp⟩
  | succ left ih =>
    obtain ⟨outcome, rest, rfl, hrest⟩ := h.ask_bind_inv
    cases outcome with
    | cannotCreate | failed =>
      obtain ⟨rfl, rfl⟩ := hrest.pure_inv
      refine .inr ⟨fun hall => ?_, _, rfl⟩
      cases hall.of_cons.1
    | written =>
      rcases ih hrest with ⟨hall, hres, hwritten⟩ | ⟨hnot, herr⟩
      · refine .inl ⟨hall.cons, ?_, ?_⟩
        · rw [hres, List.range'_succ, List.map_cons, List.append_assoc, List.singleton_append]
        · intro p
          rw [List.range'_succ, List.map_cons, List.mem_cons, List.mem_cons, hwritten]
          simp
      · exact .inr ⟨fun hall => hnot hall.of_cons.2, herr⟩

/-- What a run of `split_file` comes to: a failure before the first part, or the loop over the parts. -/
theorem splitFile_cases {res : Result (List Path)} (h : (splitFile src chunkBytes).Dialog log res) :
    ((∃ err, res = .error err) ∧ ∀ p outcome,
        (⟨.writePart p, outcome⟩ : Σ c, TelegramCall.Answer c) ∉ log) ∨
      ∃ total rest, 0 < chunkBytes ∧ log = ⟨.openSource src, true⟩ :: ⟨.fileSize src, .ok total⟩ :: rest ∧
        (splitParts src (chunkCount total chunkBytes).toNat 0 []).Dialog rest res := by
  obtain ⟨opened, log₁, rfl, h₁⟩ := h.ask_bind_inv
  cases opened with
  | false =>
    obtain ⟨rfl, rfl⟩ := h₁.pure_inv
    exact .inl ⟨⟨_, rfl⟩, by simp⟩
  | true =>
    obtain ⟨total, log₂, rfl, h₂⟩ := h₁.ask_bind_inv
    cases total with
    | error what =>
      obtain ⟨rfl, rfl⟩ := h₂.pure_inv
      exact .inl ⟨⟨_, rfl⟩, by simp⟩
    | ok total =>
      dsimp only at h₂
      split at h₂
      · obtain ⟨rfl, rfl⟩ := h₂.pure_inv
        exact .inl ⟨⟨_, rfl⟩, by simp⟩
      · rename_i hpos
        exact .inr ⟨total, log₂, by omega, rfl, h₂⟩

/-- The parts that `split_file` returns are those it has written. -/
theorem splitFile_written (h : (splitFile src chunkBytes).Dialog log (.ok parts)) :
    AllWritten log ∧ (∀ p, p ∈ parts ↔ ⟨.writePart p, .written⟩ ∈ log) ∧
      ∃ total, ⟨.fileSize src, .ok total⟩ ∈ log ∧
        parts = (List.range (chunkCount total chunkBytes).toNat).map (partPath src) := by
  rcases splitFile_cases h with ⟨⟨err, herr⟩, -⟩ | ⟨total, rest, -, rfl, hloop⟩
  · cases herr
  · rcases splitParts_cases hloop with ⟨hall, hparts, hwritten⟩ | ⟨-, err, herr⟩
    · rw [List.nil_append, ← List.range_eq_range'] at hparts
      rw [← List.range_eq_range'] at hwritten
      cases hparts
      refine ⟨?_, ?_, total, by simp, rfl⟩
      · intro p outcome hmem
        exact hall p outcome (by simpa using hmem)
      · intro p
        rw [hwritten]
        simp
    · cases herr

/-- A `split_file` that fails has written no part, or not each that it began. -/
theorem splitFile_unwritten {err : AppError} (h : (splitFile src chunkBytes).Dialog log (.error err))
    {p : Path} {outcome : PartWrite} (hmem : ⟨.writePart p, outcome⟩ ∈ log) : ¬AllWritten log := by
  rcases splitFile_cases h with ⟨-, hnone⟩ | ⟨total, rest, -, rfl, hloop⟩
  · exact absurd hmem (hnone p outcome)
  · rcases splitParts_cases hloop with ⟨-, hok, -⟩ | ⟨hnot, -⟩
    · cases hok
    · intro hall
      refine hnot fun q o ho => hall q o ?_
      exact List.mem_cons_of_mem _ (List.mem_cons_of_mem _ ho)

/-! ### `upload_file` -/

theorem uploadSplit_run {before : TelegramLog} (hbefore : ∀ e ∈ before, e.1.Prepares)
    (h : (T.uploadSplit path config).Dialog log r) : UploadRun T path config (before ++ log) r := by
  obtain ⟨splitting, rest, res, rfl, hsplit, h₁⟩ := h.bind_inv
  cases res with
  | error err =>
    obtain ⟨rfl, rfl⟩ := h₁.pure_inv
    rw [List.append_nil]
    exact .unsplit hbefore hsplit
  | ok parts =>
    obtain ⟨j, log', rfl, h₂⟩ := h₁.ask_bind_inv
    obtain ⟨rfl, rfl⟩ := h₂.pure_inv
    rw [← List.append_assoc]
    exact .split hbefore hsplit j

theorem uploadSized_run {before : TelegramLog} {chat : ChatId} {size : Nat}
    (hbefore : ∀ e ∈ before, e.1.Prepares) (hsize : ⟨.fileSize path, .ok size⟩ ∈ before)
    (h : (T.uploadSized chat path size config).Dialog log r) :
    UploadRun T path config (before ++ log) r := by
  obtain ⟨stopped, rest, rfl, h₁⟩ := h.ask_bind_inv
  have hprepares : ∀ e ∈ before ++ [⟨.cancellationState, stopped⟩], e.1.Prepares := by
    intro e he
    rcases List.mem_append.1 he with he | he
    · exact hbefore e he
    · rw [List.mem_singleton.1 he]
      trivial
  rw [List.append_cons]
  cases stopped with
  | true =>
    obtain ⟨rfl, rfl⟩ := h₁.pure_inv
    rw [List.append_nil]
    exact .failed hprepares
  | false =>
    rw [if_neg Bool.false_ne_true] at h₁
    split at h₁
    · rename_i hle
      obtain ⟨sent, rest, rfl, h₂⟩ := h₁.ask_bind_inv
      have hrest : rest = [] := by
        cases sent with
        | error err => exact h₂.pure_inv.1
        | ok msg => exact h₂.pure_inv.1
      subst hrest
      exact .whole hprepares (List.mem_append_left _ hsize) hle
    · exact uploadSplit_run hprepares h₁

theorem uploadFile_run (h : (T.uploadFile path config).Dialog log r) : UploadRun T path config log r := by
  unfold TelegramUploader.uploadFile at h
  split at h
  · obtain ⟨rfl, rfl⟩ := h.pure_inv
    exact .failed (by simp)
  · obtain ⟨present, log₁, rfl, h₁⟩ := h.ask_bind_inv
    split at h₁
    · obtain ⟨size, log₂, rfl, h₂⟩ := h₁.ask_bind_inv
      cases size with
      | error what =>
        obtain ⟨rfl, rfl⟩ := h₂.pure_inv
        exact .failed (by simp [TelegramCall.Prepares])
      | ok size =>
        have hbefore : ∀ e ∈ ([⟨.fileExists path, present⟩, ⟨.fileSize path, .ok size⟩] : TelegramLog),
            e.1.Prepares := by simp [TelegramCall.Prepares]
        exact uploadSized_run hbefore (by simp) h₂
    · obtain ⟨rfl, rfl⟩ := h₁.pure_inv
      exact .failed (by simp [TelegramCall.Prepares])

/-- A value for a file that is longer than the split size comes from the workers that send its parts. -/
theorem uploadFile_split {total : Nat} {res : UploadResult}
    (h : (T.uploadFile path config).Dialog log (.ok res))
    (hsize : ∀ size, ⟨.fileSize path, size⟩ ∈ log → size = Except.ok total)
    (hlong : config.splitSize < total) :
    ∃ before parts j, log = before ++ [⟨.joinParts T.uploadParallelism parts, j⟩] ∧
      (∀ e ∈ before, e.1.Prepares ∨ e.1.Splits) ∧
      parts = (List.range (chunkCount total config.splitSize).toNat).map (partPath path) ∧
      j.result = .ok res := by
  generalize hr : Except.ok res = r at h
  cases uploadFile_run h with
  | failed | unsplit => cases hr
  | whole _ hmem hle =>
    cases hsize _ (List.mem_append_left _ hmem)
    omega
  | @split log splitting parts hprepares hsplit j =>
    obtain ⟨-, -, found, hmem, hparts⟩ := splitFile_written hsplit
    cases hsize _ (List.mem_append_left _ (List.mem_append_right _ hmem))
    refine ⟨_, parts, j, rfl, ?_, hparts, rfl⟩
    intro e he
    rcases List.mem_append.1 he with he | he
    · exact .inl (hprepares e he)
    · exact .inr ((only_splitFile path _).dialog hsplit e he)

theorem dialog_uploadSplit (hsplit : (splitFile path config.splitSize).Dialog log (.ok parts))
    (j : TelegramCall.Answer (.joinParts T.uploadParallelism parts)) :
    (T.uploadSplit path config).Dialog (log ++ [⟨.joinParts T.uploadParallelism parts, j⟩]) j.result := by
  have hjoin : (Prog.ask (TelegramCall.joinParts T.uploadParallelism parts) >>= fun j =>
      (pure j.result : Action (Result UploadResult))).Dialog
        [⟨.joinParts T.uploadParallelism parts, j⟩] j.result := by
    refine Prog.Dialog.ask_bind j ?_
    exact .pure _
  exact hsplit.bind hjoin

/-- The calls before a split. -/
def beforeSplit (path : Path) (size : Nat) : TelegramLog :=
  [⟨.fileExists path, true⟩, ⟨.fileSize path, .ok size⟩, ⟨.cancellationState, false⟩]

theorem dialog_uploadFile {size : Nat} {chat : ChatId} (hchat : config.chatId = some chat)
    (hlong : config.splitSize < size) (h : (T.uploadSplit path config).Dialog log r) :
    (T.uploadFile path config).Dialog (beforeSplit path size ++ log) r := by
  unfold TelegramUploader.uploadFile
  rw [hchat]
  refine .call _ (.call _ (.call _ ?_))
  show Prog.Dialog (if (size : Int) ≤ config.splitSize then _ else _) _ _
  rw [if_neg (not_le.2 hlong)]
  exact h

end Cmlb.Upload.Telegram
