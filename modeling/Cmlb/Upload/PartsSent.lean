import Mathlib.Algebra.BigOperators.Ring.Finset
import Cmlb.Lib.ClaimCount
import Cmlb.Upload.PartsFrame

/-!
# Split and send (`TelegramUploader::upload_file`)

A worker takes a part from `next_index`, so that no part is handed to `send_file` twice, and the slot of
a part is filled only with the message that carries it. The parent returns a value only if all slots are
filled: then each part was sent once (`sent_of_ok`), and the size that is returned is the sum of the
parts' sizes (`size_of_ok`). With the parts of `split_lossless` it is the size of the file
(`sent_lossless`). `next_index` is an `std::atomic<int>` that each worker raises once more after the last
part; where that takes it past 2^31 a worker indexes the parts out of bounds (`upload_lossless_iff`).
-/

namespace Cmlb.Upload.Telegram

open WorkerPool Pieces

/-- What is noted of `send_file`: that a worker goes on to it with a part, and what it returns. -/
inductive Sending
  | started (idx : Nat)
  | answered (idx : Nat) (msg : Int)
deriving DecidableEq

def sendings (_ : PartsShared) : PartPc → PartEvent → List Sending
  | .sizing idx, .fileSize (.ok _) => [.started idx]
  | .sending idx, .sent (.ok msg) => [.answered idx msg]
  | _, _ => []

/-- `send_file` was called for the part `k` once, and returned a message. -/
def SentOnce (l : List Sending) (k : Nat) : Prop :=
  l.count (.started k) = 1 ∧ ∃ msg, .answered k msg ∈ l

/-- `fs::file_size` of a part is what `size` says. -/
def SizedBy {n : Nat} (size : Nat → Int) (s : PoolState n PartsShared PartPc (Result UploadResult)) :
    PoolEvent n PartEvent → Prop
  | .act i (.run (.fileSize (.ok partSize))) =>
    ∀ idx, s.locals i = .running (.sizing idx) → partSize = size idx
  | _ => True

/-- A worker's next step indexes the parts with a negative number. -/
def IndexesOutside {n : Nat} (s : PoolState n PartsShared PartPc (Result UploadResult)) : Prop :=
  ∃ i, s.locals i = .running .claim ∧ s.shared.body.fetched < 0

variable {n totalParts : Nat} {sh sh' : PartsShared} {pc : PartPc} {e : PartEvent} {o : Option PartPc}
  {v : Fin n → WorkerStage PartPc} {i : Fin n} {l : List Sending} {size : Nat → Int}

/-! ### The parts and their slots -/

/-- One if the worker has taken the part `k` and not gone on to send it. -/
def holds (k : Nat) : WorkerStage PartPc → Nat
  | .running (.sizing idx) => if idx = k then 1 else 0
  | _ => 0

/-- A part is taken by one worker, which sends it once, and a slot is filled with what this returned. -/
structure SendInv (totalParts : Nat) (l : List Sending) (sh : PartsShared)
    (v : Fin n → WorkerStage PartPc) : Prop where
  counted : ∀ k, l.count (.started k) + ∑ i, holds k (v i) ≤ if k < sh.nextIndex then 1 else 0
  begun : ∀ i k, v i = .running (.sending k) → .started k ∈ l
  answered : ∀ k msg, sh.results[k]? = some (some msg) → .started k ∈ l ∧ .answered k msg ∈ l
  slots : sh.results.length = totalParts ∧ sh.partSizes.length = totalParts

theorem SendInv.counted_step (h : SendInv totalParts l sh v) (hv : v i = .running pc)
    (hs : PartStep totalParts sh pc e sh' o) (k : Nat) :
    (l ++ sendings sh pc e).count (.started k) + ∑ j, holds k (Function.update v i (.after o) j) ≤
      if k < sh'.nextIndex then 1 else 0 := by
  have hsum := sum_update (holds k) v i (.after o)
  have hk := h.counted k
  rw [hv] at hsum
  rw [List.count_append]
  generalize ∑ j, holds k (Function.update v i (.after o) j) = after at hsum ⊢
  generalize ∑ j, holds k (v j) = before at hsum hk
  cases hs with
  | claimed =>
    simp only [holds, WorkerStage.after_some, sendings, List.count_nil, Queue.claimed] at hsum ⊢
    grind
  | exhausted =>
    simp only [holds, WorkerStage.after_none, sendings, List.count_nil, Queue.claimed] at hsum ⊢
    grind
  | sized idx =>
    simp only [holds, WorkerStage.after_some, sendings, List.count_singleton, beq_iff_eq,
      Sending.started.injEq] at hsum ⊢
    omega
  | _ =>
    show _ ≤ if k < sh.nextIndex then 1 else 0
    simp [holds, sendings] at hsum ⊢
    omega

theorem SendInv.step (h : SendInv totalParts l sh v) (hv : v i = .running pc)
    (hs : PartStep totalParts sh pc e sh' o) :
    SendInv totalParts (l ++ sendings sh pc e) sh' (Function.update v i (.after o)) where
  counted := h.counted_step hv hs
  begun := by
    intro j k hj
    rcases eq_of_update_eq hj with ⟨-, ho⟩ | ⟨-, hj⟩
    · cases hs with
      | sized idx =>
        cases ho
        exact List.mem_append_right _ List.mem_cons_self
      | _ => cases ho
    · exact List.mem_append_left _ (h.begun j k hj)
  answered := by
    intro k msg hk
    have hold : sh.results[k]? = some (some msg) →
        .started k ∈ l ++ sendings sh pc e ∧ .answered k msg ∈ l ++ sendings sh pc e := fun hk =>
      ⟨List.mem_append_left _ (h.answered k msg hk).1, List.mem_append_left _ (h.answered k msg hk).2⟩
    cases hs with
    | sent idx m =>
      dsimp only at hk
      rw [List.getElem?_set] at hk
      split at hk
      · rename_i heq
        subst heq
        split at hk
        · cases hk
          exact ⟨List.mem_append_left _ (h.begun i idx hv), List.mem_append_right _ List.mem_cons_self⟩
        · cases hk
      · exact hold hk
    | _ => exact hold hk
  slots := by
    cases hs with
    | sized | sent => simpa using h.slots
    | _ => exact h.slots

theorem sendInv_start (n totalParts : Nat) : SendInv totalParts [] (partsShared totalParts)
    (stages (start n (partsShared totalParts) : PoolState n PartsShared PartPc (Result UploadResult))) where
  counted k := by simp [stages, start, Worker.stage, holds]
  begun i k h := by cases h
  answered k msg h := by
    rw [partsShared, List.getElem?_replicate] at h
    split at h <;> cases h
  slots := by simp [partsShared]

/-! ### Their sizes -/

/-- The size of a part that is sent is in its slot. -/
def SizeInv (size : Nat → Int) (l : List Sending) (sh : PartsShared) : Prop :=
  ∀ k, .started k ∈ l → k < sh.partSizes.length → sh.partSizes[k]? = some (size k)

theorem SizeInv.step (h : SizeInv size l sh) (hs : PartStep totalParts sh pc e sh' o)
    (hsize : ∀ idx partSize, pc = .sizing idx → e = .fileSize (.ok partSize) → partSize = size idx) :
    SizeInv size (l ++ sendings sh pc e) sh' := by
  cases hs with
  | sized idx partSize =>
    have heq := hsize idx partSize rfl rfl
    subst heq
    intro k hk hlen
    rw [List.length_set] at hlen
    rw [List.getElem?_set]
    split
    · rename_i heq
      subst heq
      rw [if_pos hlen]
    · rename_i hne
      refine h k ?_ hlen
      simpa [sendings, Ne.symm hne] using hk
  | sent idx msg =>
    intro k hk hlen
    exact h k (by simpa [sendings] using hk) hlen
  | _ =>
    intro k hk hlen
    exact h k (by simpa [sendings] using hk) hlen

/-! ### Whole runs -/

/-- What was noted of the sends in a run of the workers. -/
def sentIn (totalParts : Nat) (t : List (PoolEvent n PartEvent)) : List Sending :=
  (pool (partsBody totalParts) n).machine.trail (bodyNotes sendings) (start n (partsShared totalParts)) t

variable {t : List (PoolEvent n PartEvent)} {s : PoolState n PartsShared PartPc (Result UploadResult)}
  {res : UploadResult} {agg : UploadResult}

theorem sendInv_runs (h : (pool (partsBody totalParts) n).machine.Runs (start n (partsShared totalParts)) t s) :
    SendInv totalParts (sentIn totalParts t) s.shared.body (stages s) := by
  refine notes_rule sendings ?_ ?_ (sendInv_start n totalParts) h
  · intro l sh v i hinv hv
    refine ⟨fun k => ?_, fun j k hj => ?_, hinv.answered, hinv.slots⟩
    · have hsum := sum_update (holds k) v i (.running PartPc.checkAbort)
      have hk := hinv.counted k
      rw [hv] at hsum
      have hidle : holds k .fresh = holds k (.running .checkAbort) := rfl
      rw [hidle] at hsum
      exact (Nat.add_right_cancel hsum).symm ▸ hk
    · rcases eq_of_update_eq hj with ⟨-, ho⟩ | ⟨-, hj⟩
      · cases ho
      · exact hinv.begun j k hj
  · intro s l i pc e body o _ hinv hw hb
    exact hinv.step (Worker.stage_eq_running.2 hw) (partWorker_inv hb)

theorem sizeInv_steps (h : (pool (partsBody totalParts) n).machine.Steps (SizedBy size)
    (start n (partsShared totalParts)) t s) : SizeInv size (sentIn totalParts t) s.shared.body := by
  refine notes_rule sendings (A := fun l sh _ => SizeInv size l sh) (fun _ _ _ _ h _ => h) ?_ ?_ h
  · intro s l i pc e body o hguard hinv hw hb
    refine hinv.step (partWorker_inv hb) ?_
    rintro idx partSize rfl rfl
    exact hguard idx hw
  · intro k hk
    cases hk

/-! ### What is returned -/

/-- The loop over the slots goes on only where they are filled, and adds up the sizes. -/
theorem collect_ok {slots : List (Option Int × Int)} {i : Nat} (h : collect i agg slots = .ok res) :
    (∀ slot ∈ slots, ∃ msg, slot.1 = some msg) ∧ res.size = agg.size + (slots.map Prod.snd).sum := by
  induction slots generalizing i agg with
  | nil =>
    cases h
    simp
  | cons slot rest ih =>
    obtain ⟨result, partSize⟩ := slot
    cases result with
    | none => cases h
    | some msg =>
      obtain ⟨hrest, hsize⟩ := ih h
      refine ⟨List.forall_mem_cons.2 ⟨⟨msg, rfl⟩, hrest⟩, ?_⟩
      rw [hsize, List.map_cons, List.sum_cons, ← Int.add_assoc]

theorem partsVerdict_ok (h : partsVerdict sh = .ok res) (hslots : sh.results.length = sh.partSizes.length) :
    (∀ k < sh.results.length, ∃ msg, sh.results[k]? = some (some msg)) ∧ res.size = sh.partSizes.sum := by
  unfold partsVerdict at h
  split at h
  · cases h
  · obtain ⟨hfilled, hsize⟩ := collect_ok h
    rw [List.map_snd_zip hslots.ge] at hsize
    refine ⟨?_, by simpa using hsize⟩
    intro k hk
    have hmem : sh.results[k] ∈ (sh.results.zip sh.partSizes).map Prod.fst := by
      rw [List.map_fst_zip hslots.le]
      exact List.getElem_mem hk
    obtain ⟨slot, hslot, heq⟩ := List.mem_map.1 hmem
    obtain ⟨msg, hmsg⟩ := hfilled slot hslot
    refine ⟨msg, ?_⟩
    rw [List.getElem?_eq_getElem hk, ← heq, hmsg]

variable {j : Join (partsBody totalParts) n (partsShared totalParts)}

theorem filled_of_ok (hok : j.result = .ok res) {k : Nat} (hk : k < totalParts) :
    .started k ∈ sentIn totalParts j.events ∧ ∃ msg, .answered k msg ∈ sentIn totalParts j.events := by
  have hinv := sendInv_runs j.run
  obtain ⟨hresults, hsizes⟩ := hinv.slots
  obtain ⟨hfilled, -⟩ := partsVerdict_ok hok (hresults.trans hsizes.symm)
  obtain ⟨msg, hmsg⟩ := hfilled k (by omega)
  obtain ⟨hstarted, hanswered⟩ := hinv.answered k msg hmsg
  exact ⟨hstarted, msg, hanswered⟩

/-- When a value is returned each part has been sent once, and no part is sent later. -/
theorem sent_of_ok (hok : j.result = .ok res) (hlater : j.events <+: t)
    (h : (pool (partsBody totalParts) n).machine.Runs (start n (partsShared totalParts)) t s) {k : Nat}
    (hk : k < totalParts) : SentOnce (sentIn totalParts t) k := by
  obtain ⟨later, rfl⟩ := hlater
  have hsub : sentIn totalParts j.events <+: sentIn totalParts (j.events ++ later) :=
    Machine.trail_prefix _ _ _
  obtain ⟨hstarted, msg, hanswered⟩ := filled_of_ok hok hk
  refine ⟨?_, msg, hsub.subset hanswered⟩
  have hpos := List.count_pos_iff.2 (hsub.subset hstarted)
  have hle := (sendInv_runs h).counted k
  split at hle <;> omega

theorem size_of_ok (hok : j.result = .ok res) (hsized : (pool (partsBody totalParts) n).machine.Steps
      (SizedBy size) (start n (partsShared totalParts)) j.events j.state) :
    res.size = ((List.range totalParts).map size).sum := by
  obtain ⟨hresults, hsizes⟩ := (sendInv_runs j.run).slots
  obtain ⟨-, hsum⟩ := partsVerdict_ok hok (hresults.trans hsizes.symm)
  rw [hsum]
  congr 1
  refine List.ext_getElem? fun k => ?_
  by_cases hk : k < totalParts
  · rw [sizeInv_steps hsized k (filled_of_ok hok hk).1 (by omega)]
    simp [hk]
  · rw [List.getElem?_eq_none (by omega), List.getElem?_eq_none (by simpa using hk)]

/-! ### The upload -/

/-- `fs::file_size` answers as the directory has it, also where a worker asks for the size of a part. -/
def Sized (disk : Disk) : (Σ c, TelegramCall.Answer c) → Prop
  | ⟨.fileSize p, size⟩ => size = .ok ((disk p).getD []).length
  | ⟨.joinParts configured parts, j⟩ =>
    (pool (partsBody parts.length) (partParallelism configured parts.length)).machine.Steps
      (SizedBy fun idx => ((disk (parts.getD idx "")).getD []).length)
      (start (partParallelism configured parts.length) (partsShared parts.length)) j.events j.state
  | _ => True

/-- The sizes of the pieces, as the workers find them. -/
theorem sum_partSizes {w : SplitWorld} {src : Path} {chunk count : Nat} {disk : Disk}
    (hcover : w.content.length ≤ count * chunk)
    (hpieces : ∀ i < count, partContent w chunk i = piece chunk w.content i) :
    ((List.range count).map fun idx => ((((withParts w src chunk (List.range count) disk
      (((List.range count).map (partPath src)).getD idx "")).getD []).length : Nat) : Int)).sum =
        w.content.length := by
  have hsizes : (List.range count).map (fun idx => (((withParts w src chunk (List.range count) disk
      (((List.range count).map (partPath src)).getD idx "")).getD []).length : Nat)) =
        (List.range count).map fun i => (piece chunk w.content i).length := by
    refine List.map_congr_left fun i hi => ?_
    have hlt := List.mem_range.1 hi
    have hpath : ((List.range count).map (partPath src)).getD i "" = partPath src i := by
      simp [hlt]
    rw [hpath, withParts_of_mem hi, Option.getD_some, hpieces i hlt]
  have hsum : ((List.range count).map fun i => (piece chunk w.content i).length).sum =
      w.content.length := by
    rw [← List.length_flatMap, flatMap_piece_of_le hcover]
  rw [← hsum, ← hsizes, Nat.cast_list_sum, List.map_map]
  rfl

/-- What `fs::file_size` answers for a part. -/
def sizeOn (disk : Disk) (parts : List Path) (idx : Nat) : Int := ((disk (parts.getD idx "")).getD []).length

/-- A value of `upload_file` says that each part has been sent once, and no part is sent later. -/
def SentLossless (T : TelegramUploader) (path : Path) (config : UploadConfig) (size : Nat) (disk : Disk)
    (parts : List Path) : Prop :=
  ∀ log res, (T.uploadFile path config).Dialog log (.ok res) → (∀ e ∈ log, Sized disk e) →
    ∃ before j, log = before ++ [⟨.joinParts T.uploadParallelism parts, j⟩] ∧
      (∀ e ∈ before, e.1.Prepares ∨ e.1.Splits) ∧ res.size = size ∧
      ∀ t s, j.events <+: t → (partsPool T.uploadParallelism parts.length).Runs
          (partsStart T.uploadParallelism parts.length) t s →
        ∀ k < parts.length, SentOnce (sentIn parts.length t) k

/-- The file is split into its pieces, and where `upload_file` returns a value each of them was sent once,
whatever the parallelism and the order of the workers' steps; and no worker takes what is no part. -/
def Lossless (T : TelegramUploader) (path : Path) (config : UploadConfig) (w : SplitWorld) (disk : Disk) :
    Prop :=
  let parts := (List.range (pieceCount w.content.length config.splitSize.toNat)).map (partPath path)
  ∃ disk', w.splitFile path config.splitSize disk = (some (.ok parts), disk') ∧
    joined disk' parts = w.content ∧
    (∀ p ∈ parts, ∃ bytes, disk' p = some bytes ∧ (bytes.length : Int) ≤ config.splitSize) ∧
    SentLossless T path config w.content.length disk' parts ∧
    ∀ t s, (partsPool T.uploadParallelism parts.length).Steps (SizedBy (sizeOn disk' parts))
      (partsStart T.uploadParallelism parts.length) t s → ¬ IndexesOutside s

theorem sent_lossless {T : TelegramUploader} {path : Path} {config : UploadConfig} {w : SplitWorld}
    {disk : Disk} {chunk : Nat} (hfile : disk path = some w.content) (hw : w.Faultless) (hc : 0 < chunk)
    (hchunk : config.splitSize = chunk) (hlong : chunk < w.content.length)
    (hfew : pieceCount w.content.length chunk < 2 ^ 31) :
    SentLossless T path config w.content.length
      (withParts w path chunk (List.range (pieceCount w.content.length chunk)) disk)
      ((List.range (pieceCount w.content.length chunk)).map (partPath path)) := by
  intro log res hd hsized
  obtain ⟨-, hpieces⟩ := split_lossless path disk hw hc hfew
  have hpath : withParts w path chunk (List.range (pieceCount w.content.length chunk)) disk path =
      some w.content := by
    rw [withParts_of_notMem fun i _ => partPath_ne path i, hfile]
  have hsize : ∀ size, ⟨.fileSize path, size⟩ ∈ log → size = .ok w.content.length := by
    intro size hmem
    have hanswer : size = _ := hsized _ hmem
    rw [hanswer, hpath, Option.getD_some]
  obtain ⟨before, parts, j, rfl, hbefore, hparts, hres⟩ :=
    uploadFile_split hd hsize (hchunk.trans_lt (Int.ofNat_lt.2 hlong))
  have hcount : (chunkCount w.content.length config.splitSize).toNat =
      pieceCount w.content.length chunk := hchunk ▸ (partCount_of_lt hc hfew).2
  rw [hcount] at hparts
  subst hparts
  have hsteps := hsized _ (List.mem_append_right _ List.mem_cons_self)
  refine ⟨before, j, rfl, hbefore, ?_, ?_⟩
  · rw [size_of_ok hres hsteps, List.length_map, List.length_range]
    exact sum_partSizes (ceil_covers hc w.content.length) hpieces
  · intro t s hlater hruns k hk
    exact sent_of_ok hres hlater hruns hk

/-! ### The counter past 2^31 -/

/-- The counter is raised past the last part by a worker that leaves. -/
theorem nextIndex_step (h : partWorker totalParts sh pc e = some (sh', o)) :
    sh'.nextIndex ≤ totalParts ∨ sh'.nextIndex ≤ sh.nextIndex + hasLeft (.after o) := by
  cases partWorker_inv h with
  | exhausted => exact .inr (Nat.le_refl _)
  | claimed hlt => exact .inl hlt
  | _ => exact .inr (Nat.le_add_right _ _)

theorem not_indexesOutside {P : PoolState n PartsShared PartPc (Result UploadResult) → PoolEvent n PartEvent → Prop}
    (hfit : totalParts + n ≤ 2147483648) (h : (pool (partsBody totalParts) n).machine.Steps P
      (start n (partsShared totalParts)) t s) : ¬ IndexesOutside s := by
  rintro ⟨i, hi, hneg⟩
  have hlt := next_lt_of_running (fun sh : PartsShared => sh.nextIndex) (B := partsBody totalParts)
    (fun _ _ _ _ _ => nextIndex_step) (Nat.zero_le _) h hi
  unfold Queue.fetched at hneg
  rw [Int.bmod_def] at hneg
  omega

/-- A worker that asks for the size of a part gets it. -/
def SizesBy (size : Nat → Int) (pc : PartPc) (e : PartEvent) : Prop :=
  ∀ idx partSize, pc = .sizing idx → e = .fileSize (.ok partSize) → partSize = size idx

theorem allows_sizedBy (size : Nat → Int) : Allows (SizedBy (n := n) size) (SizesBy size) where
  spawn _ := trivial
  start _ _ := trivial
  run s i pc e hw hq := by
    cases e with
    | fileSize r =>
      cases r with
      | error what => trivial
      | ok partSize =>
        intro idx hidx
        cases hw.symm.trans hidx
        exact hq idx partSize rfl rfl
    | _ => trivial

theorem alone_toClaim (habort : sh.abort = false) :
    Alone (partsBody totalParts) (SizesBy size) sh .checkAbort sh (some .claim) := by
  have hgoes : (partsBody totalParts).step sh .checkAbort .run = some (sh, some .checkCancel) := by
    simp [partsBody, partWorker, habort]
  exact .cons (fun _ _ => nofun) hgoes (.cons (e := .cancelState false) (fun _ _ => nofun) rfl (.nil sh _))

/-- A part gets its size and is sent. -/
theorem alone_sends (sh : PartsShared) (idx : Nat) (habort : sh.abort = false) : Alone (partsBody totalParts) (SizesBy size) sh
    (.sizing idx) { sh with partSizes := sh.partSizes.set idx (size idx), results := sh.results.set idx (some 0) }
    (some .claim) := by
  have hsize : SizesBy size (.sizing idx) (.fileSize (.ok (size idx))) := by
    rintro _ _ ⟨⟩ ⟨⟩
    rfl
  exact .cons hsize rfl (.cons (e := .sent (.ok 0)) (fun _ _ => nofun) rfl
    (.cons (e := .run) (fun _ _ => nofun) rfl (alone_toClaim habort)))

/-- A worker that nobody disturbs sends one part after the other. -/
theorem claims_partsBody (totalParts : Nat) (size : Nat → Int) : Claims (partsBody totalParts) (SizesBy size)
    (fun sh => sh.abort = false) (fun sh => sh.nextIndex) .claim totalParts 2147483648 where
  begins sh habort := ⟨sh, alone_toClaim habort, habort, rfl⟩
  works sh habort hlt hfew := by
    refine ⟨{ sh with
        toQueue := sh.claimed
        partSizes := sh.partSizes.set sh.nextIndex (size sh.nextIndex)
        results := sh.results.set sh.nextIndex (some 0) }, .cons (e := .run) (fun _ _ => nofun) ?_
      (alone_sends { sh with toQueue := sh.claimed } sh.nextIndex habort), habort, rfl⟩
    simp [partsBody, partWorker, hfew, Nat.not_le_of_lt hlt]
  leaves sh habort hle hfew := by
    refine ⟨{ sh with toQueue := sh.claimed }, .last (e := .run) (fun _ _ => nofun) ?_, habort, rfl⟩
    simp [partsBody, partWorker, hfew, hle]

/-- With too many parts and workers for the counter, a worker indexes the parts out of bounds. -/
theorem exists_indexesOutside (size : Nat → Int) (hfew : totalParts < 2147483648)
    (hmany : 2147483648 < totalParts + n) : ∃ t s, (pool (partsBody totalParts) n).machine.Steps (SizedBy size)
      (start n (partsShared totalParts)) t s ∧ IndexesOutside s := by
  obtain ⟨t, s, i, h, hw, hnext⟩ := (claims_partsBody totalParts size).exists_claim_at
    (allows_sizedBy size) (partsShared totalParts) rfl rfl hfew hmany
  refine ⟨t, s, h, i, hw, ?_⟩
  unfold Queue.fetched
  rw [hnext]
  decide

theorem length_parts (path : Path) (count : Nat) : ((List.range count).map (partPath path)).length = count := by
  rw [List.length_map, List.length_range]

theorem fits_of_lossless {T : TelegramUploader} {path : Path} {config : UploadConfig} {w : SplitWorld}
    {disk : Disk} (hfew : pieceCount w.content.length config.splitSize.toNat < 2 ^ 31)
    (h : Lossless T path config w disk) : pieceCount w.content.length config.splitSize.toNat +
      partParallelism T.uploadParallelism (pieceCount w.content.length config.splitSize.toNat) ≤ 2 ^ 31 := by
  obtain ⟨disk', -, -, -, -, hinside⟩ := h
  by_contra hmany
  rw [← length_parts path (pieceCount w.content.length config.splitSize.toNat)] at hfew hmany
  obtain ⟨t, s, hs, hout⟩ := exists_indexesOutside (sizeOn disk' _) hfew (Nat.lt_of_not_le hmany)
  exact hinside t s hs hout

/-- Split and send is lossless exactly if the counter takes the parts and one more for each worker. -/
theorem upload_lossless_iff (T : TelegramUploader) (path : Path) (config : UploadConfig) (w : SplitWorld)
    (disk : Disk) (hfile : disk path = some w.content) (hw : w.Faultless) (hpos : 0 < config.splitSize)
    (hlong : config.splitSize < w.content.length)
    (hfew : pieceCount w.content.length config.splitSize.toNat < 2 ^ 31) :
    Lossless T path config w disk ↔ pieceCount w.content.length config.splitSize.toNat +
      partParallelism T.uploadParallelism (pieceCount w.content.length config.splitSize.toNat) ≤ 2 ^ 31 := by
  constructor
  · exact fits_of_lossless hfew
  · intro hfit
    rw [← length_parts path (pieceCount w.content.length config.splitSize.toNat)] at hfit
    have hinside := fun size t s => not_indexesOutside (P := SizedBy size) (t := t) (s := s) hfit
    obtain ⟨chunk, hchunk⟩ := Int.eq_ofNat_of_zero_le hpos.le
    have htoNat : config.splitSize.toNat = chunk := by rw [hchunk, Int.toNat_natCast]
    rw [hchunk] at hpos hlong
    rw [htoNat] at hfew hinside
    have hc : 0 < chunk := Int.ofNat_lt.1 hpos
    obtain ⟨hsplit, hpieces⟩ := split_lossless path disk hw hc hfew
    unfold Lossless
    rw [htoNat]
    refine ⟨_, hchunk ▸ hsplit, ?_, ?_, sent_lossless hfile hw hc hchunk (Int.ofNat_lt.1 hlong) hfew, hinside _⟩
    · rw [joined_withParts, List.flatMap_congr fun i hi => hpieces i (List.mem_range.1 hi)]
      exact flatMap_piece_of_le (ceil_covers hc w.content.length)
    · intro p hp
      obtain ⟨i, hi, rfl⟩ := List.mem_map.1 hp
      refine ⟨_, withParts_of_mem hi, ?_⟩
      rw [hpieces i (List.mem_range.1 hi), hchunk]
      exact Int.ofNat_le.2 length_piece_le

/-! ### Three bytes in parts of two -/

/-- What a worker does for a part of this size. -/
def sendsOne (i : Fin n) (partSize msg : Int) : List (PoolEvent n PartEvent) :=
  [.act i (.run .run), .act i (.run (.cancelState false)), .act i (.run .run),
    .act i (.run (.fileSize (.ok partSize))), .act i (.run (.sent (.ok msg))), .act i (.run .run)]

/-- One worker sends both parts. -/
def sendsBoth (i : Fin n) : List (PoolEvent n PartEvent) :=
  [.env .spawn, .env .startWait, .act i .start] ++ sendsOne i 2 7 ++ sendsOne i 1 8 ++
    [.act i (.run .run), .act i (.run (.cancelState false)), .act i (.run .run), .act i .exit,
      .act i .cancel]

theorem exists_join_both (size : Nat → Int) (h0 : size 0 = 2) (h1 : size 1 = 1) :
    ∃ j : Join (partsBody 2) (partParallelism 1 2) (partsShared 2),
      (pool (partsBody 2) (partParallelism 1 2)).machine.Steps (SizedBy size) (start _ (partsShared 2))
        j.events j.state ∧ j.result = .ok ⟨"7", "", 3, 0⟩ := by
  have hrun : ∃ s, (pool (partsBody 2) (partParallelism 1 2)).machine.Steps (SizedBy size)
      (start _ (partsShared 2)) (sendsBoth ⟨0, by decide⟩) s ∧ s.shared.parent = .woken ∧
        partsVerdict s.shared.body = .ok ⟨"7", "", 3, 0⟩ := by
    refine ⟨_, .cons trivial rfl (.cons trivial rfl (.cons trivial rfl (.cons trivial rfl (.cons trivial rfl
      (.cons trivial rfl (.cons ?_ rfl (.cons trivial rfl (.cons trivial rfl (.cons trivial rfl
      (.cons trivial rfl (.cons trivial rfl (.cons ?_ rfl (.cons trivial rfl (.cons trivial rfl
      (.cons trivial rfl (.cons trivial rfl (.cons trivial rfl (.cons trivial rfl (.cons trivial rfl
      (.nil _)))))))))))))))))))), rfl, ?_⟩
    · intro idx h
      cases h
      exact h0.symm
    · intro idx h
      cases h
      exact h1.symm
    · rfl
  obtain ⟨s, hs, hwoken, hverdict⟩ := hrun
  exact ⟨⟨_, s, hs.runs, hwoken⟩, hs, hverdict⟩

def threeBytes : SplitWorld := { content := [1, 2, 3], delivered := [1, 2, 3], delivers := List.prefix_rfl }

theorem faultless_threeBytes : threeBytes.Faultless :=
  ⟨rfl, rfl, rfl, fun _ => rfl, fun _ _ => rfl, fun _ => rfl⟩

/-- The two parts and the sizes that the workers find. -/
theorem split_threeBytes {parts : List Path} {disk' : Disk}
    (h : threeBytes.splitFile "f" 2 onlyFile = (some (.ok parts), disk')) :
    parts = [partPath "f" 0, partPath "f" 1] ∧ disk' "f" = some [1, 2, 3] ∧
      disk' (partPath "f" 0) = some [1, 2] ∧ disk' (partPath "f" 1) = some [3] := by
  have hsplit := (split_lossless "f" onlyFile faultless_threeBytes (by decide : 0 < 2) (by decide)).1
  cases h.symm.trans hsplit
  refine ⟨rfl, ?_, withParts_of_mem (i := 0) (by decide), withParts_of_mem (i := 1) (by decide)⟩
  rw [withParts_of_notMem fun i _ => partPath_ne "f" i]
  exact Function.update_self ..

theorem sized_upload {parts : List Path} {disk' : Disk} {splitting : TelegramLog}
    {j : TelegramCall.Answer (.joinParts 1 parts)} (hfile : disk' "f" = some [1, 2, 3])
    (hsplit : (splitFile "f" 2).Dialog splitting (.ok parts))
    (hsizes : ∀ p size, ⟨.fileSize p, size⟩ ∈ splitting → p = "f" ∧ size = threeBytes.fileSize)
    (hjoin : Sized disk' ⟨.joinParts 1 parts, j⟩) :
    ∀ e ∈ beforeSplit "f" 3 ++ (splitting ++ [⟨.joinParts 1 parts, j⟩]), Sized disk' e := by
  have hthree : Sized disk' ⟨.fileSize "f", .ok 3⟩ := by
    show Except.ok 3 = Except.ok _
    rw [hfile]
    rfl
  have hsplits : ∀ e ∈ splitting, Sized disk' e := by
    rintro ⟨c, answer⟩ he
    have hc := (only_splitFile "f" 2).dialog hsplit _ he
    cases c with
    | fileSize p =>
      obtain ⟨rfl, rfl⟩ := hsizes p answer he
      exact hthree
    | openSource | writePart => trivial
    | _ => exact hc.elim
  intro e he
  simp only [beforeSplit, List.cons_append, List.nil_append, List.mem_cons, List.mem_append,
    List.not_mem_nil, or_false] at he
  rcases he with rfl | rfl | rfl | he | rfl
  · trivial
  · exact hthree
  · trivial
  · exact hsplits e he
  · exact hjoin

theorem upload_lossless_three_bytes : ∃ log res,
    (oneByOne.uploadFile "f" intoTwos).Dialog log (.ok res) ∧ res.size = 3 := by
  obtain ⟨disk', hsplit, -, -, hsend, -⟩ := (upload_lossless_iff oneByOne "f" intoTwos threeBytes onlyFile
    (Function.update_self ..) faultless_threeBytes (by decide) (by decide) (by decide)).2 (by decide)
  obtain ⟨hparts, hfile, hfirst, hsecond⟩ := split_threeBytes hsplit
  obtain ⟨splitting, hd, hsizes, -⟩ := SplitWorld.splitFile_dialog (fun _ => true) hsplit
  rw [hparts] at hd hsend
  obtain ⟨j, hsteps, hres⟩ := exists_join_both
    (fun idx => ((disk' ([partPath "f" 0, partPath "f" 1].getD idx "")).getD []).length)
    (by simp [hfirst]) (by simp [hsecond])
  have hupload : (oneByOne.uploadFile "f" intoTwos).Dialog (beforeSplit "f" 3 ++ (splitting ++
      [⟨.joinParts 1 [partPath "f" 0, partPath "f" 1], j⟩])) (.ok ⟨"7", "", 3, 0⟩) := by
    rw [← hres]
    exact dialog_uploadFile rfl (by decide) (dialog_uploadSplit (T := oneByOne) hd j)
  obtain ⟨before, j', -, -, hsize, -⟩ := hsend _ _ hupload (sized_upload hfile hd hsizes hsteps)
  exact ⟨_, _, hupload, hsize⟩

/-! ### One byte a part -/

def intoOnes : UploadConfig := { chatId := some ⟨1⟩, splitSize := 1 }

theorem pieceCount_ones {w : SplitWorld} (hlen : w.content.length = 2147483647) :
    pieceCount w.content.length intoOnes.splitSize.toNat = 2147483647 := by
  rw [hlen]
  rfl

/-- The second of two workers takes the index -2^31 for a part. -/
theorem not_lossless_ones {path : Path} {w : SplitWorld} {disk : Disk} (hlen : w.content.length = 2147483647) :
    ¬ Lossless ⟨2, 1⟩ path intoOnes w disk := by
  intro h
  have hcount := pieceCount_ones hlen
  have hfits := fits_of_lossless (by rw [hcount]; decide) h
  rw [hcount] at hfits
  exact absurd hfits (by decide)

/-- 2^31 - 1 bytes. -/
def manyBytes : SplitWorld where
  content := List.replicate 2147483647 0
  delivered := List.replicate 2147483647 0
  delivers := List.prefix_rfl

theorem part_past_int : ¬ ∀ (T : TelegramUploader) (path : Path) (config : UploadConfig) (w : SplitWorld)
    (disk : Disk), disk path = some w.content → w.Faultless → 0 < config.splitSize →
    config.splitSize < w.content.length →
    pieceCount w.content.length config.splitSize.toNat < 2 ^ 31 → Lossless T path config w disk := by
  intro h
  have hlen : manyBytes.content.length = 2147483647 := List.length_replicate
  refine not_lossless_ones hlen (h ⟨2, 1⟩ "f" intoOnes manyBytes (fun _ => some manyBytes.content) rfl
    ⟨rfl, rfl, rfl, fun _ => rfl, fun _ _ => rfl, fun _ => rfl⟩ Int.one_pos ?_ ?_)
  · rw [hlen]
    decide
  · rw [pieceCount_ones hlen]
    decide

end Cmlb.Upload.Telegram
