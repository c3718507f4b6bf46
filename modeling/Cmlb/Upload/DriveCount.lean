import Cmlb.Lib.Descend
import Cmlb.Upload.DriveFiles

/-!
# `count` against Drive

`count` visits every folder below the one it is given and adds up what it finds there. The loop has
visited the whole tree after as many rounds as there are folders, however each listing is split into
pages (`countLoop_served`). The totals of the files and of the folders are kept in an `int`, so they are
the numbers of the tree exactly up to 2147483647 (`count_exact_iff`).
-/

namespace Cmlb.Upload.GoogleDrive

open Descend

/-! ### Decimal sizes -/

/-- The number that decimal digits stand for, after the digits of `n`. -/
def digitsFrom (n : Nat) (cs : List Char) : Nat :=
  cs.foldl (fun n c => 10 * n + (c.toNat - '0'.toNat)) n

def decimal (text : String) : Nat := digitsFrom 0 text.toList

def IsDecimal (text : String) : Prop := text.toList ≠ [] ∧ ∀ c ∈ text.toList, c.isDigit = true

theorem toNat_of_isDigit {c : Char} (h : c.isDigit = true) : 48 ≤ c.toNat ∧ c.toNat ≤ 57 := by
  simp only [Char.isDigit, Bool.and_eq_true, decide_eq_true_eq] at h
  exact ⟨h.1, h.2⟩

theorem foldl_digits (cs : List Char) (hcs : ∀ c ∈ cs, c.isDigit = true) (n : Nat) :
    cs.foldl (fun (n : Int) c => 10 * n + (c.toNat - '0'.toNat)) n = digitsFrom n cs := by
  induction cs generalizing n with
  | nil => rfl
  | cons c cs ih =>
    obtain ⟨hc, hrest⟩ := List.forall_mem_cons.1 hcs
    have hdigit := (toNat_of_isDigit hc).1
    rw [List.foldl_cons, digitsFrom, List.foldl_cons, ← digitsFrom, ← ih hrest]
    congr 1
    simp only [Char.reduceToNat]
    omega

theorem not_isSpace_of_isDigit {c : Char} (h : c.isDigit = true) : isSpace c = false := by
  have hc := toNat_of_isDigit h
  have hblank : c ≠ ' ' := by
    rintro rfl
    simp at hc
  have hreturn : ¬ c ≤ '\r' := by
    intro hle
    have hval : c.toNat ≤ 13 := hle
    omega
  simp [isSpace, hblank, hreturn]

theorem stoll_decimal {text : String} (h : IsDecimal text) (hmax : decimal text ≤ 9223372036854775807) :
    stoll text = some (decimal text : Int) := by
  obtain ⟨hne, hdigits⟩ := h
  unfold decimal at hmax ⊢
  unfold stoll
  generalize text.toList = cs at hne hdigits hmax ⊢
  have hdrop : cs.dropWhile isSpace = cs := by
    cases cs with
    | nil => rfl
    | cons c cs =>
      rw [List.dropWhile_cons_of_neg]
      simp [not_isSpace_of_isDigit (hdigits c List.mem_cons_self)]
  have htake : cs.takeWhile Char.isDigit = cs := List.takeWhile_eq_self_iff.2 hdigits
  have hsign : ∀ c rest, cs = c :: rest → c ≠ '-' ∧ c ≠ '+' := by
    rintro c rest rfl
    have hc := hdigits c List.mem_cons_self
    constructor <;> rintro rfl <;> simp at hc
  have hfold : cs.foldl (fun (n : Int) c => 10 * n + (c.toNat - '0'.toNat)) 0 = digitsFrom 0 cs :=
    foldl_digits cs hdigits 0
  simp only [hdrop]
  split
  · exact absurd rfl (hsign _ _ rfl).1
  · exact absurd rfl (hsign _ _ rfl).2
  · simp only [htake, hfold, llongMax, List.isEmpty_iff, hne, Bool.false_eq_true, if_false, false_or]
    rw [if_neg]
    omega

/-! ### The totals -/

/-- The size of a file in bytes; folders have none. -/
def DriveItem.bytes (e : DriveItem) : Nat :=
  if e.isFolder then 0 else (e.size.map decimal).getD 0

def fileCount (es : List DriveItem) : Nat := es.countP fun e => !e.isFolder

def folderCount (es : List DriveItem) : Nat := es.countP DriveItem.isFolder

def byteCount : List DriveItem → Nat
  | [] => 0
  | e :: es => e.bytes + byteCount es

theorem fileCount_cons (e : DriveItem) (es : List DriveItem) :
    fileCount (e :: es) = fileCount [e] + fileCount es := by
  simp only [fileCount, List.countP_cons, List.countP_nil]
  omega

theorem folderCount_cons (e : DriveItem) (es : List DriveItem) :
    folderCount (e :: es) = folderCount [e] + folderCount es := by
  simp only [folderCount, List.countP_cons, List.countP_nil]
  omega

theorem byteCount_cons (e : DriveItem) (es : List DriveItem) :
    byteCount (e :: es) = byteCount [e] + byteCount es := by
  simp [byteCount]

section Perm

variable {es es' : List DriveItem}

theorem fileCount_perm (h : es.Perm es') : fileCount es = fileCount es' := h.countP_eq _

theorem folderCount_perm (h : es.Perm es') : folderCount es = folderCount es' := h.countP_eq _

theorem byteCount_perm (h : es.Perm es') : byteCount es = byteCount es' := by
  induction h with
  | nil => rfl
  | cons e _ ih => rw [byteCount, byteCount, ih]
  | swap e e' es =>
    simp only [byteCount]
    omega
  | trans _ _ ih₁ ih₂ => rw [ih₁, ih₂]

end Perm

/-- The numbers of the files among `es`, and of more. -/
theorem counts_files_append (es items : List DriveItem) :
    fileCount (es.filter (fun e => !e.isFolder) ++ items) = fileCount es + fileCount items ∧
    folderCount (es.filter (fun e => !e.isFolder) ++ items) = folderCount items ∧
    byteCount (es.filter (fun e => !e.isFolder) ++ items) = byteCount es + byteCount items := by
  induction es with
  | nil => simp [fileCount, folderCount, byteCount]
  | cons e es ih =>
    obtain ⟨hfiles, hfolders, hbytes⟩ := ih
    rw [fileCount_cons e es, byteCount_cons e es]
    cases hfolder : e.isFolder with
    | true =>
      rw [List.filter_cons_of_neg (by simp [hfolder]), hfiles, hfolders, hbytes]
      simp [fileCount, byteCount, DriveItem.bytes, hfolder]
    | false =>
      rw [List.filter_cons_of_pos (by simp [hfolder]), List.cons_append, fileCount_cons e, folderCount_cons e,
        byteCount_cons e, hfiles, hfolders, hbytes]
      refine ⟨by omega, ?_, by omega⟩
      simp [folderCount, hfolder]

/-- The numbers of the items of a round: the folder `e`, the files among its children `es`, and the rest. -/
theorem counts_round {e : DriveItem} {es items rest : List DriveItem} (he : e.isFolder = true)
    (h : items.Perm (e :: (es.filter (fun x => !x.isFolder) ++ rest))) :
    fileCount items = fileCount es + fileCount rest ∧ folderCount items = folderCount rest + 1 ∧
    byteCount items = byteCount es + byteCount rest := by
  obtain ⟨hfiles, hfolders, hbytes⟩ := counts_files_append es rest
  have hone : fileCount [e] = 0 ∧ folderCount [e] = 1 ∧ e.bytes = 0 := by
    simp [fileCount, folderCount, DriveItem.bytes, he]
  rw [fileCount_perm h, folderCount_perm h, byteCount_perm h, fileCount_cons, folderCount_cons, byteCount, hfiles,
    hfolders, hbytes]
  omega

/-- What `CountResult` has of the numbers. -/
def totalsOf (files folders bytes : Nat) : CountResult :=
  ⟨Aria2.toInt32 files, Aria2.toInt32 folders, Aria2.toInt64 bytes⟩

/-- The size is a decimal number in the range of `std::int64_t`, if there is one. -/
def DriveItem.SizeOk (e : DriveItem) : Prop :=
  e.isFolder = false → ∀ text, e.size = some text → IsDecimal text ∧ decimal text ≤ 9223372036854775807

variable {G : GoogleDriveUploader} {P files folders bytes : Nat} {sv sv' : DriveServer} {st : DriveStore}
  {es items q : List DriveItem} {e : DriveItem} {child : Json} {children : List Json} {bearer parent : String}

theorem toInt32_succ (n : Nat) : Aria2.toInt32 (Aria2.toInt32 n + 1) = Aria2.toInt32 ((n + 1 : Nat) : Int) := by
  simp [Aria2.toInt32]

theorem toInt64_add (n m : Nat) : Aria2.toInt64 (Aria2.toInt64 n + m) = Aria2.toInt64 ((n + m : Nat) : Int) := by
  simp [Aria2.toInt64]

theorem sizeOf_shows (h : Shows e child) (hsize : e.SizeOk) (hfile : e.isFolder = false) :
    sizeOf child = (e.bytes : Int) := by
  unfold sizeOf DriveItem.bytes
  rw [h.size, hfile, if_neg Bool.false_ne_true]
  cases hs : e.size with
  | none => rfl
  | some text =>
    obtain ⟨hdecimal, hmax⟩ := hsize hfile text hs
    simp [stoll_decimal hdecimal hmax]

theorem countChild_shows {queue : List String} (h : Shows e child) (hsize : e.SizeOk) (hid : e.id ≠ "") :
    countChild (totalsOf files folders bytes) queue child =
      .ok (totalsOf (files + fileCount [e]) (folders + folderCount [e]) (bytes + byteCount [e]),
        ([e].filter DriveItem.isFolder).map DriveItem.id ++ queue) := by
  unfold countChild
  rw [value_of_stringMember h.mimeType, value_of_stringMember h.id]
  cases hfolder : e.isFolder with
  | true =>
    have hmime : e.mimeType = kFolderMime := of_decide_eq_true hfolder
    simp [bind, Except.bind, pure, Except.pure, hmime, hid, totalsOf, toInt32_succ, fileCount, folderCount,
      byteCount, DriveItem.bytes, hfolder]
  | false =>
    have hmime : e.mimeType ≠ kFolderMime := of_decide_eq_false hfolder
    simp [bind, Except.bind, pure, Except.pure, hmime, totalsOf, toInt32_succ, toInt64_add, fileCount,
      folderCount, byteCount, hfolder, sizeOf_shows h hsize hfolder]

theorem countChildren_shows {queue : List String} (h : List.Forall₂ Shows es children)
    (hsize : ∀ e ∈ es, e.SizeOk) (hid : ∀ e ∈ es, e.id ≠ "") :
    countChildren (totalsOf files folders bytes) queue children =
      .ok (totalsOf (files + fileCount es) (folders + folderCount es) (bytes + byteCount es),
        (es.filter DriveItem.isFolder).reverse.map DriveItem.id ++ queue) := by
  induction h generalizing files folders bytes queue with
  | nil => rfl
  | @cons e child es children hshows _ ih =>
    obtain ⟨hse, hses⟩ := List.forall_mem_cons.1 hsize
    obtain ⟨hie, hies⟩ := List.forall_mem_cons.1 hid
    rw [countChildren, countChild_shows hshows hse hie]
    show countChildren _ _ children = _
    rw [ih hses hies]
    rw [fileCount_cons e es, folderCount_cons e es, byteCount_cons e es, ← Nat.add_assoc, ← Nat.add_assoc, ← Nat.add_assoc]
    have hqueue : ((e :: es).filter DriveItem.isFolder).reverse.map DriveItem.id ++ queue =
        (es.filter DriveItem.isFolder).reverse.map DriveItem.id ++
          (([e].filter DriveItem.isFolder).map DriveItem.id ++ queue) := by
      cases hfolder : e.isFolder <;> simp [hfolder]
    rw [hqueue]

/-! ### The loop -/

/-- The children of an item. -/
def DriveStore.kids (st : DriveStore) (e : DriveItem) : List DriveItem := st.children e.id

theorem DriveStore.kids_file (he : e ∈ st.children parent) (hfile : e.isFolder = false) : st.kids e = [] := by
  by_contra hne
  obtain ⟨e', hitem, hfolder⟩ := st.folder hne
  rw [st.item_of_mem he] at hitem
  cases hitem
  rw [hfile] at hfolder
  cases hfolder

theorem DriveStore.id_ne (he : e ∈ st.children parent) : e.id ≠ "" := by
  intro heq
  have hitem := st.item_of_mem he
  rw [heq, st.no_empty] at hitem
  cases hitem

theorem countLoop_done {pages fuel : Nat} {r : Outcome CountResult}
    (h : (G.countLoop pages bearer fuel (totalsOf files folders bytes) []).Served (Answers G P) sv r sv')
    (hbelow : Below sv.store.kids [] items) {total : Nat} (htotal : folders + folderCount items = total + 0) :
    r = .returned (.ok (totalsOf (files + fileCount items) total (bytes + byteCount items))) := by
  cases hbelow
  have hdone : G.countLoop pages bearer fuel (totalsOf files folders bytes) [] =
      pure (.returned (.ok (totalsOf files folders bytes))) := by
    cases fuel <;> rfl
  rw [hdone] at h
  obtain ⟨rfl, -⟩ := h.pure_inv
  obtain rfl : folders = total := by simpa [folderCount] using htotal
  rfl

/-- The folders `q` wait in the queue and have been counted; `items` are they and all that is below. -/
theorem countLoop_served {pages fuel : Nat} {r : Outcome CountResult}
    (h : (G.countLoop pages bearer fuel (totalsOf files folders bytes) (q.map DriveItem.id)).Served
      (Answers G P) sv r sv')
    (hq : ∀ e ∈ q, e.isFolder = true) (hbelow : Below sv.store.kids q items)
    (hsize : ∀ e ∈ items, e.SizeOk) (hP : P ≤ pages) (hpages : 0 < pages) (hfuel : folderCount items ≤ fuel)
    {total : Nat} (htotal : folders + folderCount items = total + q.length) :
    r = .returned (.ok (totalsOf (files + fileCount items) total (bytes + byteCount items))) := by
  induction fuel generalizing sv files folders bytes q items with
  | zero =>
    cases q with
    | nil => exact countLoop_done h hbelow htotal
    | cons e q =>
      have hmem : e ∈ items := hbelow.subset List.mem_cons_self
      have hpos : 0 < folderCount items := List.countP_pos_iff.2 ⟨e, hmem, hq e List.mem_cons_self⟩
      omega
  | succ fuel ih =>
    cases q with
    | nil => exact countLoop_done h hbelow htotal
    | cons e q =>
      obtain ⟨stopped, sv₁, ⟨rfl, rfl⟩, h₁⟩ := h.ask_bind_inv
      rw [if_neg Bool.false_ne_true] at h₁
      obtain ⟨children, sv₂, h₂, h₃⟩ := h₁.bind_inv
      obtain ⟨es, children, rfl, hperm, hshows, hstore⟩ := listChildren_served h₂ hP hpages
      have hes : ∀ x ∈ es, x ∈ sv₁.store.children e.id := fun x hx => hperm.subset hx
      have hmem : ∀ x ∈ es, x ∈ items := fun x hx =>
        hbelow.kids_subset (hbelow.subset List.mem_cons_self) (hes x hx)
      obtain ⟨rest, hsplit, hrest, -⟩ := hbelow.visit hperm.symm DriveItem.isFolder
        fun x hx => DriveStore.kids_file (hes x hx)
      have hmemr : ∀ x ∈ rest, x ∈ items := fun x hx =>
        hsplit.symm.subset (List.mem_cons_of_mem e (List.mem_append_right _ hx))
      have hcounted : countChildren (totalsOf files folders bytes) (q.map DriveItem.id) children =
          .ok (totalsOf (files + fileCount es) (folders + folderCount es) (bytes + byteCount es),
            ((es.filter DriveItem.isFolder).reverse ++ q).map DriveItem.id) := by
        rw [List.map_append]
        exact countChildren_shows hshows (fun x hx => hsize x (hmem x hx)) fun x hx => DriveStore.id_ne (hes x hx)
      rw [Outcome.andThen_ok, hcounted, Outcome.ofRead_ok, Outcome.andThen_ok] at h₃
      have hqueue : ∀ x ∈ (es.filter DriveItem.isFolder).reverse ++ q, x.isFolder = true := by
        intro x hx
        rcases List.mem_append.1 hx with hx | hx
        · exact (List.mem_filter.1 (List.mem_reverse.1 hx)).2
        · exact hq x (List.mem_cons_of_mem e hx)
      have hlength : ((es.filter DriveItem.isFolder).reverse ++ q).length = folderCount es + q.length := by
        rw [List.length_append, List.length_reverse, ← List.countP_eq_length_filter]
        rfl
      obtain ⟨hfiles, hfolders, hbytes⟩ := counts_round (hq e List.mem_cons_self) hsplit
      rw [hfolders] at hfuel htotal
      rw [List.length_cons] at htotal
      rw [← hstore] at hrest
      rw [ih h₃ hqueue hrest (fun x hx => hsize x (hmemr x hx)) (by omega) (by omega), hfiles, hbytes,
        Nat.add_assoc, Nat.add_assoc]

/-- A run of `count` with enough rounds returns what its totals have of the numbers of the tree. -/
theorem count_served {fuel : Nat} {folderId : String} {r : Outcome CountResult} (hready : G.ready = true)
    (hbelow : Below sv.store.kids (sv.store.children folderId) items) (hsize : ∀ e ∈ items, e.SizeOk)
    (hP : P ≤ fuel) (hfuel : folderCount items < fuel)
    (h : (G.count fuel folderId).Served (Answers G P) sv r sv') :
    r = .returned (.ok (totalsOf (fileCount items) (folderCount items) (byteCount items))) := by
  unfold GoogleDriveUploader.count at h
  rw [if_pos hready] at h
  obtain ⟨bearer, sv₁, h₁, h₂⟩ := h.bind_inv
  obtain ⟨⟨bearer, rfl⟩, rfl⟩ := acquireBearer_served h₁.embed_inv
  rw [Outcome.andThen_ok] at h₂
  -- the folder itself is a folder that waits
  let root : DriveItem := ⟨folderId, "", kFolderMime, none, ""⟩
  have hroot : root.isFolder = true := by simp [root, DriveItem.isFolder]
  have htree : Below sv₁.store.kids [root] (root :: (items ++ [])) := .cons hbelow .nil
  rw [List.append_nil] at htree
  have hone : fileCount [root] = 0 ∧ folderCount [root] = 1 ∧ byteCount [root] = 0 := by
    simp [fileCount, folderCount, byteCount, DriveItem.bytes, hroot]
  have hsizes : ∀ e ∈ root :: items, e.SizeOk := by
    refine List.forall_mem_cons.2 ⟨fun hfile => ?_, hsize⟩
    rw [hroot] at hfile
    cases hfile
  have hstart : G.countLoop fuel bearer fuel {} [folderId] =
      G.countLoop fuel bearer fuel (totalsOf 0 0 0) ([root].map DriveItem.id) := rfl
  rw [hstart] at h₂
  have hrounds : folderCount (root :: items) ≤ fuel := by
    rw [folderCount_cons]
    omega
  have hfolders : 0 + folderCount (root :: items) = folderCount items + [root].length := by
    rw [folderCount_cons, hone.2.1, List.length_singleton]
    omega
  rw [countLoop_served h₂ (by simpa using hroot) htree hsizes hP (by omega) hrounds hfolders,
    fileCount_cons, byteCount_cons, hone.1, hone.2.2]
  simp

theorem toInt32_eq_iff (n : Nat) : Aria2.toInt32 n = n ↔ n ≤ 2147483647 := by
  unfold Aria2.toInt32
  rw [Int.bmod_def]
  omega

theorem toInt64_eq {n : Nat} (h : n ≤ 9223372036854775807) : Aria2.toInt64 n = n := by
  unfold Aria2.toInt64
  rw [Int.bmod_def]
  omega

theorem bytes_le_byteCount (he : e ∈ items) : e.bytes ≤ byteCount items := by
  induction items with
  | nil => exact absurd he List.not_mem_nil
  | cons x items ih =>
    rw [byteCount]
    rcases List.mem_cons.1 he with rfl | he
    · omega
    · have hle := ih he
      omega

/-- A finite tree below a folder, its listings split into pages in any way, and decimal sizes whose sum
is in the range of `std::int64_t`: with enough rounds, `count` returns the numbers of the tree exactly if
neither its files nor its folders are more than an `int` can count. -/
theorem count_exact_iff {fuel : Nat} {folderId : String} {r : Outcome CountResult} (hready : G.ready = true)
    (hbelow : Below sv.store.kids (sv.store.children folderId) items)
    (hsize : ∀ e ∈ items, e.isFolder = false → ∀ text, e.size = some text → IsDecimal text)
    (hsum : byteCount items ≤ 9223372036854775807) (hP : P ≤ fuel) (hfuel : folderCount items < fuel)
    (h : (G.count fuel folderId).Served (Answers G P) sv r sv') :
    r = .returned (.ok ⟨fileCount items, folderCount items, byteCount items⟩) ↔
      fileCount items ≤ 2147483647 ∧ folderCount items ≤ 2147483647 := by
  have hsizes : ∀ e ∈ items, e.SizeOk := by
    intro e he hfile text htext
    have hbytes := bytes_le_byteCount he
    rw [DriveItem.bytes, hfile, if_neg Bool.false_ne_true, htext] at hbytes
    exact ⟨hsize e he hfile text htext, le_trans hbytes hsum⟩
  rw [count_served hready hbelow hsizes hP hfuel h, totalsOf, toInt64_eq hsum]
  simp [toInt32_eq_iff]

/-! ### A folder of files -/

/-- The `i`-th file; its id is a text of its own length. -/
def fileItem (i : Nat) : DriveItem :=
  ⟨String.ofList (List.replicate (i + 1) 'f'), "f.txt", "text/plain", some "1", ""⟩

def flatRoot : DriveItem := ⟨"root", "d", kFolderMime, none, ""⟩

def flatFiles (n : Nat) : List DriveItem := (List.range n).map fileItem

theorem fileItem_id_inj {i k : Nat} (h : (fileItem i).id = (fileItem k).id) : i = k := by
  have hlength := congrArg String.length h
  simpa [fileItem] using hlength

theorem fileItem_id_ne (i : Nat) {text : String} {c : Char} (hc : c ∈ text.toList) (hne : c ≠ 'f') :
    (fileItem i).id ≠ text := by
  intro heq
  rw [← heq] at hc
  simp [fileItem] at hc
  exact hne hc

/-- A folder with the files `fileItem 0`, .., `fileItem (n - 1)`. -/
def flatStore (n : Nat) : DriveStore where
  item id := if id = "root" then some flatRoot else (flatFiles n).find? fun e => e.id == id
  children id := if id = "root" then flatFiles n else []
  id_eq := by
    intro id e he
    split at he
    · cases he
      simp [flatRoot, *]
    · simpa using List.find?_some he
  item_of_mem := by
    intro id e he
    split at he
    · obtain ⟨i, hi, rfl⟩ := List.mem_map.1 he
      have hne : (fileItem i).id ≠ "root" := fileItem_id_ne i (c := 'r') (by simp) (by decide)
      rw [if_neg hne]
      cases hfound : (flatFiles n).find? fun e => e.id == (fileItem i).id with
      | none =>
        rw [List.find?_eq_none] at hfound
        exact absurd (beq_self_eq_true _) (hfound _ (List.mem_map_of_mem hi))
      | some x =>
        obtain ⟨k, -, rfl⟩ := List.mem_map.1 (List.mem_of_find?_eq_some hfound)
        have hid : (fileItem k).id = (fileItem i).id := by simpa using List.find?_some hfound
        rw [fileItem_id_inj hid]
    · cases he
  folder := by
    intro id hid
    split at hid
    · exact ⟨flatRoot, by simp [*], rfl⟩
    · exact absurd rfl hid
  no_empty := by
    rw [if_neg (by decide), List.find?_eq_none]
    intro e he
    obtain ⟨i, hi, rfl⟩ := List.mem_map.1 he
    simp [fileItem]

def listedText (e : DriveItem) : String :=
  "\x7b\"id\":\"" ++ e.id ++ "\",\"name\":\"" ++ e.name ++ "\",\"mimeType\":\"" ++ e.mimeType ++
    "\",\"size\":\"" ++ e.size.getD "" ++ "\"\x7d"

def listedDoc (e : DriveItem) : Json :=
  .object [("id", .string e.id), ("name", .string e.name), ("mimeType", .string e.mimeType),
    ("size", .string (e.size.getD ""))]

/-- The listing of the folder as one page. -/
def flatText (n : Nat) : String :=
  "\x7b\"files\":[" ++ String.intercalate "," ((flatFiles n).map listedText) ++ "]\x7d"

def flatDoc (n : Nat) : Json := .object [("files", .array ((flatFiles n).map listedDoc))]

/-- Reads the listing, and nothing else. -/
def flatUploader (n : Nat) : GoogleDriveUploader :=
  ⟨true, ⟨fun body => if body = flatText n then .ok (flatDoc n) else .error "parse error", fun _ => 0⟩,
    "", 0, 1, 1, 0⟩

def flatServer (n : Nat) : DriveServer := ⟨flatStore n, fun _ => []⟩

theorem shows_flatFiles (n : Nat) : List.Forall₂ Shows (flatFiles n) ((flatFiles n).map listedDoc) := by
  rw [List.forall₂_map_right_iff, List.forall₂_same]
  intro e he
  obtain ⟨i, -, rfl⟩ := List.mem_map.1 he
  exact ⟨rfl, rfl, rfl, rfl⟩

theorem flat_sizes (n : Nat) : ∀ e ∈ flatFiles n, e.isFolder = false → ∀ text, e.size = some text →
    IsDecimal text := by
  intro e he _ text htext
  obtain ⟨i, -, rfl⟩ := List.mem_map.1 he
  cases htext
  exact ⟨by simp, by simp⟩

theorem fileItem_isFolder (i : Nat) : (fileItem i).isFolder = false := by
  simp [fileItem, DriveItem.isFolder, kFolderMime]

theorem flat_below (n : Nat) : Below (flatStore n).kids ((flatStore n).children "root") (flatFiles n) := by
  refine .of_leaves fun e he => ?_
  obtain ⟨i, -, rfl⟩ := List.mem_map.1 he
  exact DriveStore.kids_file he (fileItem_isFolder i)

theorem flat_counts (n : Nat) :
    fileCount (flatFiles n) = n ∧ folderCount (flatFiles n) = 0 ∧ byteCount (flatFiles n) = n := by
  have hbytes : ∀ i, (fileItem i).bytes = 1 := by
    intro i
    rw [DriveItem.bytes, fileItem_isFolder, if_neg Bool.false_ne_true]
    rfl
  induction n with
  | zero => exact ⟨rfl, rfl, rfl⟩
  | succ n ih =>
    obtain ⟨hfiles, hfolders, hsizes⟩ := ih
    have hperm : (flatFiles (n + 1)).Perm (fileItem n :: flatFiles n) := by
      rw [flatFiles, List.range_succ, List.map_append]
      exact List.perm_append_singleton _ _
    rw [fileCount_perm hperm, folderCount_perm hperm, byteCount_perm hperm, fileCount_cons, folderCount_cons,
      byteCount, hfiles, hfolders, hsizes, hbytes]
    simp [fileCount, folderCount, fileItem_isFolder]
    omega

theorem flat_listed (n : Nat) : ((flatUploader n).listChildren 1 "Bearer t" "root").Served
    (Answers (flatUploader n) 1) (flatServer n) (.returned (.ok ((flatFiles n).map listedDoc)))
    (flatServer n) := by
  have hparse : (flatUploader n).json.parse (flatText n) = .ok (flatDoc n) := if_pos rfl
  have hsuccess : isSuccess ⟨200, flatText n, []⟩ = true := by simp [isSuccess]
  have hpage : (flatServer n).Pages 1 "root" "" [flatFiles n] :=
    ⟨le_refl 1, by simp [flatServer, flatStore]⟩
  unfold GoogleDriveUploader.listChildren GoogleDriveUploader.listPages
  refine .ask_bind (r := .ok ⟨200, flatText n, []⟩) ⟨⟨200, flatText n, []⟩, flatDoc n, flatFiles n, [], rfl,
    hsuccess, hparse, hpage, shows_flatFiles n, rfl, rfl⟩ ?_
  simp only [hsuccess, if_true, pageOf, hparse]
  exact .pure _ _

theorem flat_counted (n : Nat) : countChildren {} [] ((flatFiles n).map listedDoc) =
    .ok (totalsOf n 0 n, []) := by
  have hnone : (flatFiles n).filter DriveItem.isFolder = [] := by
    rw [List.filter_eq_nil_iff]
    intro e he
    obtain ⟨i, -, rfl⟩ := List.mem_map.1 he
    simp [fileItem_isFolder]
  have hsizes : ∀ e ∈ flatFiles n, e.SizeOk := by
    intro e he hfile text htext
    refine ⟨flat_sizes n e he hfile text htext, ?_⟩
    obtain ⟨i, -, rfl⟩ := List.mem_map.1 he
    cases htext
    decide
  have hids : ∀ e ∈ (flatStore n).children "root", e.id ≠ "" := fun e he => DriveStore.id_ne he
  obtain ⟨hfiles, hfolders, hbytes⟩ := flat_counts n
  show countChildren (totalsOf 0 0 0) [] _ = _
  rw [countChildren_shows (shows_flatFiles n) hsizes hids, hnone, hfiles, hfolders, hbytes]
  simp

/-- `count` of a folder of files. -/
theorem flat_run (n : Nat) : ((flatUploader n).count 1 "root").Served (Answers (flatUploader n) 1)
    (flatServer n) (.returned (.ok (totalsOf n 0 n))) (flatServer n) := by
  have hbearer : ((flatUploader n).acquireBearer.embed : FilesAction _).Served (Answers (flatUploader n) 1)
      (flatServer n) (.ok "Bearer t") (flatServer n) := by
    refine .embed (.call (r := some "Bearer t") rfl ?_)
    exact .pure _ _
  have hloop : ((flatUploader n).countLoop 1 "Bearer t" 1 {} ["root"]).Served (Answers (flatUploader n) 1)
      (flatServer n) (.returned (.ok (totalsOf n 0 n))) (flatServer n) := by
    refine .call (r := false) ⟨rfl, rfl⟩ ((flat_listed n).bind ?_)
    rw [Outcome.andThen_ok, flat_counted, Outcome.ofRead_ok, Outcome.andThen_ok]
    exact .pure _ _
  exact hbearer.bind hloop

theorem count_exact_flat_two : ∃ r sv', ((flatUploader 2).count 1 "root").Served
    (Answers (flatUploader 2) 1) (flatServer 2) r sv' ∧ r = .returned (.ok ⟨2, 0, 2⟩) := by
  obtain ⟨hfiles, hfolders, hbytes⟩ := flat_counts 2
  have hexact := count_exact_iff rfl (flat_below 2) (flat_sizes 2) (by rw [hbytes]; decide) (le_refl 1)
    (by rw [hfolders]; decide) (flat_run 2)
  rw [hfiles, hfolders, hbytes] at hexact
  exact ⟨_, _, flat_run 2, hexact.2 ⟨by decide, by decide⟩⟩

/-- `count` of a folder of 2147483648 files, whose sizes sum up to 2147483648: the `int` wraps. -/
theorem count_past_int :
    (∀ e ∈ flatFiles 2147483648, e.isFolder = false → ∀ text, e.size = some text → IsDecimal text) ∧
    Below (flatStore 2147483648).kids ((flatStore 2147483648).children "root") (flatFiles 2147483648) ∧
    fileCount (flatFiles 2147483648) = 2147483648 ∧ byteCount (flatFiles 2147483648) = 2147483648 ∧
    ∃ totals, ((flatUploader 2147483648).count 1 "root").Served (Answers (flatUploader 2147483648) 1)
      (flatServer 2147483648) (.returned (.ok totals)) (flatServer 2147483648) ∧
      totals.files = -2147483648 := by
  obtain ⟨hfiles, -, hbytes⟩ := flat_counts 2147483648
  refine ⟨flat_sizes _, flat_below _, hfiles, hbytes, _, flat_run _, ?_⟩
  simp [totalsOf, Aria2.toInt32, Int.bmod_def]

end Cmlb.Upload.GoogleDrive
