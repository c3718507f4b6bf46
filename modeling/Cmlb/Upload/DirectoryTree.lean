import Cmlb.Lib.PathTree
import Cmlb.Upload.GoogleDrive

/-!
# The folders of an uploaded directory (`GoogleDriveUploader::upload_directory`)

The walk over the directory creates a folder for each directory it meets, under the folder that the
map has for the directory's parent, and pairs each regular file with the folder of its parent. A walk
in pre-order meets every parent first, so the map always has it, and the fallback to the root's folder
is not taken (`directory_mirrored`). `walkEntries_spec` is for any walk that meets parents first.
-/

namespace Cmlb.Upload.GoogleDrive

open PathTree WorkerPool

inductive LeafKind
  | file | other
deriving DecidableEq, Repr

abbrev Listing := List (String × PathTree String LeafKind)

def entryKind : Option LeafKind → EntryKind
  | none => .directory
  | some .file => .file
  | some .other => .other

/-- What the iterator gives for a path; `onDisk` is `it->path()`. -/
def visitEntry (onDisk : List String → Path) (v : Visit String LeafKind) : WalkEntry :=
  ⟨none, onDisk v.1, .ok v.1, entryKind v.2⟩

/-- The regular files of a walk. -/
def files (vs : List (Visit String LeafKind)) : List (List String) := picked (· = some .file) vs

structure Folder where
  name : String
  parent : String
  id : String
deriving DecidableEq

variable {G : GoogleDriveUploader} {onDisk : List String → Path} {tree : Listing}

def GoogleDriveUploader.folderId (G : GoogleDriveUploader) (resp : HttpResponse) : Result String :=
  parseId G.json "gdrive: create folder returned " "gdrive: create folder parse: " resp

/-- The folder that an answered call has created. -/
def folderMade (G : GoogleDriveUploader) : (Σ c, DriveCall.Answer c) → Option Folder
  | ⟨.request (.createFolder _ name parent), .ok resp⟩ =>
    match G.folderId resp with
    | .ok id => some ⟨name, parent, id⟩
    | .error _ => none
  | _ => none

/-- The answers while nothing goes wrong: the walk is one in pre-order, nothing is cancelled, and the
tokens and folders asked for are granted. -/
def Granted (G : GoogleDriveUploader) (onDisk : List String → Path) (tree : Listing) :
    (Σ c, DriveCall.Answer c) → Prop
  | ⟨.isDirectory _, present⟩ => present = true
  | ⟨.cancellationState, stopped⟩ => stopped = false
  | ⟨.walk _, entries⟩ => ∃ vs, PreOrder [] tree vs ∧ entries = vs.map (visitEntry onDisk)
  | ⟨.signJwt, jwt⟩ => ∃ text, jwt = .ok text
  | ⟨.request (.tokenExchange _), res⟩ => ∃ resp token, res = .ok resp ∧ G.tokenOf resp = .ok token
  | ⟨.request (.createFolder ..), res⟩ => ∃ resp id, res = .ok resp ∧ G.folderId resp = .ok id
  | _ => True

variable {log : List (Σ c, DriveCall.Answer c)} {name parent : String}

theorem mintBearer_granted {r : Result (String × Int)} (h : G.mintBearer.Dialog log r)
    (hlog : ∀ y ∈ log, Granted G onDisk tree y) : ∃ token, r = .ok token := by
  obtain ⟨jwt, log₁, rfl, h₁⟩ := h.ask_bind_inv
  obtain ⟨⟨text, rfl⟩, hlog₁⟩ := List.forall_mem_cons.1 hlog
  obtain ⟨res, log₂, rfl, h₂⟩ := h₁.ask_bind_inv
  obtain ⟨⟨resp, token, rfl, htoken⟩, -⟩ := List.forall_mem_cons.1 hlog₁
  obtain ⟨-, rfl⟩ := h₂.pure_inv
  exact ⟨token, htoken⟩

theorem acquireBearer_granted {r : Result String} (h : G.acquireBearer.Dialog log r)
    (hlog : ∀ y ∈ log, Granted G onDisk tree y) : ∃ bearer, r = .ok bearer := by
  obtain ⟨cached, log₁, rfl, h₁⟩ := h.ask_bind_inv
  cases cached with
  | some value =>
    obtain ⟨-, rfl⟩ := h₁.pure_inv
    exact ⟨value, rfl⟩
  | none =>
    obtain ⟨log₂, log₃, fresh, rfl, h₂, h₃⟩ := h₁.bind_inv
    have hmint : ∀ y ∈ log₂, Granted G onDisk tree y := fun y hy =>
      hlog y (List.mem_cons_of_mem _ (List.mem_append_left _ hy))
    obtain ⟨token, rfl⟩ := mintBearer_granted h₂ hmint
    obtain ⟨_, log₄, rfl, h₄⟩ := h₃.ask_bind_inv
    obtain ⟨-, rfl⟩ := h₄.pure_inv
    exact ⟨token.1, rfl⟩

theorem acquireBearer_no_folder {r : Result String} (h : G.acquireBearer.Dialog log r) :
    log.filterMap (folderMade G) = [] := by
  refine List.filterMap_eq_nil_iff.2 fun y hy => ?_
  have hc := (only_acquireBearer G).dialog h y hy
  unfold folderMade
  split
  · exact hc.elim
  · rfl

theorem createFolder_granted {r : Result String} (h : (G.createFolder name parent).Dialog log r)
    (hlog : ∀ y ∈ log, Granted G onDisk tree y) :
    ∃ id, r = .ok id ∧ log.filterMap (folderMade G) = [⟨name, parent, id⟩] := by
  obtain ⟨log₁, log₂, bearer, rfl, h₁, h₂⟩ := h.bind_inv
  rw [List.forall_mem_append] at hlog
  obtain ⟨bearer, rfl⟩ := acquireBearer_granted h₁ hlog.1
  obtain ⟨res, log₃, rfl, h₃⟩ := h₂.ask_bind_inv
  obtain ⟨⟨resp, id, rfl, hid⟩, -⟩ := List.forall_mem_cons.1 hlog.2
  obtain ⟨rfl, rfl⟩ := h₃.pure_inv
  refine ⟨id, hid, ?_⟩
  rw [List.filterMap_append, acquireBearer_no_folder h₁]
  simp [folderMade, hid]

/-! ### The walk -/

/-- The folder id that the map `F` has for a directory. -/
def idIn (F : List (List String × String)) (d : List String) : String := (F.lookup d).getD ""

def folderOf (idOf : List String → String) (d : List String) : Folder :=
  ⟨d.getLastD "", idOf d.dropLast, idOf d⟩

def workOf (onDisk : List String → Path) (idOf : List String → String) (f : List String) : FileWork :=
  ⟨onDisk f, idOf f.dropLast⟩

/-- The map `F` has what `folderIds` has. -/
def Extends (folderIds F : List (List String × String)) : Prop :=
  ∀ d ∈ folderIds.map Prod.fst, F.lookup d = folderIds.lookup d

variable {folderIds F : List (List String × String)} {vs : List (Visit String LeafKind)}
  {work : List FileWork} {r : Result (List FileWork)} {rootId : String}

theorem lookup_eq_some_idIn {d : List String} (h : d ∈ folderIds.map Prod.fst) :
    folderIds.lookup d = some (idIn folderIds d) := by
  unfold idIn
  cases hl : folderIds.lookup d with
  | some id => rfl
  | none =>
    rw [List.lookup_eq_none_iff] at hl
    obtain ⟨⟨d', id⟩, hmem, rfl⟩ := List.mem_map.1 h
    simpa using hl _ hmem

theorem Extends.idIn_eq {d : List String} (h : Extends folderIds F) (hd : d ∈ folderIds.map Prod.fst) :
    idIn F d = idIn folderIds d := by
  rw [idIn, h d hd, idIn]

/-- A new key hides no other. -/
theorem Extends.of_cons {d : List String} {id : String} (h : Extends ((d, id) :: folderIds) F)
    (hd : d ∉ folderIds.map Prod.fst) : Extends folderIds F := by
  intro d' hd'
  have hne : d' ≠ d := fun heq => hd (heq ▸ hd')
  rw [h d' (List.mem_cons_of_mem _ hd'), List.lookup_cons, beq_eq_false_iff_ne.2 hne]

/-- What a round of the loop does with a path whose parent the map has. -/
def GoogleDriveUploader.visit (G : GoogleDriveUploader) (rootId : String) (rest : List WalkEntry)
    (folderIds : List (List String × String)) (work : List FileWork) (w : FileWork) (q : List String) :
    Option LeafKind → Action (Result (List FileWork))
  | none => do
    let created ← G.createFolder (q.getLastD "") w.parentId
    orReturn created fun id => G.walkEntries rootId rest ((q, id) :: folderIds) work
  | some .file => G.walkEntries rootId rest folderIds (work ++ [w])
  | some .other => G.walkEntries rootId rest folderIds work

theorem walkEntries_visit {q : List String} {k : Option LeafKind} {rest : List WalkEntry}
    (hparent : q.dropLast ∈ folderIds.map Prod.fst) :
    G.walkEntries rootId (visitEntry onDisk (q, k) :: rest) folderIds work = (do
      let stopped : Bool ← Prog.ask DriveCall.cancellationState
      if stopped then pure (.error GoogleDriveUploader.cancelled)
      else G.visit rootId rest folderIds work (workOf onDisk (idIn folderIds) q) q k) := by
  rw [GoogleDriveUploader.walkEntries]
  simp only [visitEntry, lookup_eq_some_idIn hparent, Option.getD_some]
  rcases k with _ | _ | _ <;> rfl

theorem walkEntries_spec (hord : ParentsFirst (folderIds.map Prod.fst) vs)
    (hnodup : (vs.map Prod.fst).Nodup) (hnew : ∀ q ∈ vs.map Prod.fst, q ∉ folderIds.map Prod.fst)
    (h : (G.walkEntries rootId (vs.map (visitEntry onDisk)) folderIds work).Dialog log r)
    (hlog : ∀ y ∈ log, Granted G onDisk tree y) :
    ∃ F, Extends folderIds F ∧
      log.filterMap (folderMade G) = (dirs vs).map (folderOf (idIn F)) ∧
      r = .ok (work ++ (files vs).map (workOf onDisk (idIn F))) ∧
      ∀ fallback, (G.walkEntries fallback (vs.map (visitEntry onDisk)) folderIds work).Dialog log r := by
  induction vs generalizing folderIds work log with
  | nil =>
    obtain ⟨rfl, rfl⟩ := h.pure_inv
    exact ⟨folderIds, fun _ _ => rfl, rfl, by simp [files, picked], fun _ => .pure _⟩
  | cons v vs ih =>
    obtain ⟨q, k⟩ := v
    obtain ⟨hparent, hords⟩ := hord
    obtain ⟨hq, hnodups⟩ := List.nodup_cons.1 hnodup
    obtain ⟨hqnew, hnews⟩ := List.forall_mem_cons.1 hnew
    rw [List.map_cons, walkEntries_visit hparent] at h
    obtain ⟨stopped, log₁, rfl, h₁⟩ := h.ask_bind_inv
    obtain ⟨rfl, hlog₁⟩ := List.forall_mem_cons.1 hlog
    rw [if_neg Bool.false_ne_true] at h₁
    -- the same round for every fallback
    have hround : ∀ {log r} fallback, (G.visit fallback (vs.map (visitEntry onDisk)) folderIds work
        (workOf onDisk (idIn folderIds) q) q k).Dialog log r →
        (G.walkEntries fallback ((visitEntry onDisk (q, k)) :: vs.map (visitEntry onDisk)) folderIds work).Dialog
          (⟨.cancellationState, false⟩ :: log) r := by
      intro log r fallback hd
      rw [walkEntries_visit hparent]
      refine Prog.Dialog.ask_bind (ρ := DriveCall.Answer) (c := .cancellationState) false ?_
      exact hd
    rcases k with _ | (_ | _)
    · obtain ⟨log₂, log₃, created, rfl, h₂, h₃⟩ := h₁.bind_inv
      rw [List.forall_mem_append] at hlog₁
      obtain ⟨id, rfl, hmade⟩ := createFolder_granted h₂ hlog₁.1
      have hfresh : ∀ q' ∈ vs.map Prod.fst, q' ∉ ((q, id) :: folderIds).map Prod.fst := by
        intro q' hq' hmem
        rcases List.mem_cons.1 hmem with rfl | hmem
        · exact hq hq'
        · exact hnews q' hq' hmem
      have hknown : ParentsFirst (((q, id) :: folderIds).map Prod.fst) vs := hords
      obtain ⟨F, hext, hrest, hr, hany⟩ := ih hknown hnodups hfresh h₃ hlog₁.2
      have hold := hext.of_cons hqnew
      have hid : idIn F q = id := by
        rw [hext.idIn_eq List.mem_cons_self, idIn, List.lookup_cons_self]
        rfl
      refine ⟨F, hold, ?_, hr, fun fallback => hround fallback (h₂.bind (hany fallback))⟩
      have hfolder : folderOf (idIn F) q = ⟨q.getLastD "", idIn folderIds q.dropLast, id⟩ := by
        rw [folderOf, hid, hold.idIn_eq hparent]
      rw [List.filterMap_cons_none rfl, List.filterMap_append, hmade, hrest]
      show _ = ((q :: dirs vs).map (folderOf (idIn F)))
      rw [List.map_cons, hfolder]
      rfl
    · obtain ⟨F, hext, hrest, hr, hany⟩ := ih hords hnodups hnews h₁ hlog₁
      refine ⟨F, hext, hrest, ?_, fun fallback => hround fallback (hany fallback)⟩
      have hw : workOf onDisk (idIn F) q = workOf onDisk (idIn folderIds) q := by
        rw [workOf, hext.idIn_eq hparent, workOf]
      show r = .ok (work ++ (q :: files vs).map (workOf onDisk (idIn F)))
      rw [hr, List.map_cons, hw, List.append_assoc]
      rfl
    · obtain ⟨F, hext, hrest, hr, hany⟩ := ih hords hnodups hnews h₁ hlog₁
      exact ⟨F, hext, hrest, hr, fun fallback => hround fallback (hany fallback)⟩

/-! ### The directory -/

/-- The folders `made` are a root folder and one folder for each directory, under the folder of its
parent, and `work` has each regular file with the folder of its directory. -/
structure Mirrors (onDisk : List String → Path) (tree : Listing) (name parent : String)
    (made : List Folder) (work : List FileWork) (idOf : List String → String) : Prop where
  folders : ∃ ds : List (List String), ds.Nodup ∧ (∀ d, d ∈ ds ↔ Has tree d none) ∧
    made = ⟨name, parent, idOf []⟩ :: ds.map (folderOf idOf)
  ids : ∀ d d', d = [] ∨ Has tree d none → d' = [] ∨ Has tree d' none → idOf d = idOf d' → d = d'
  files : ∃ fs : List (List String), fs.Nodup ∧ (∀ f, f ∈ fs ↔ Has tree f (some .file)) ∧
    work = fs.map (workOf onDisk idOf)

variable {path : Path} {config : UploadConfig}

theorem prepare_mirrored (hready : G.ready = true) (hparent : config.folderId.getD G.parentFolderId ≠ "")
    (htree : Distinct tree) (h : (G.prepare path config).Dialog log r)
    (hlog : ∀ y ∈ log, Granted G onDisk tree y)
    (hfresh : ((log.filterMap (folderMade G)).map Folder.id).Nodup) :
    ∃ idOf work log₁ entries log₂, log = log₁ ++ ⟨.walk path, entries⟩ :: log₂ ∧ r = .ok work ∧
      Mirrors onDisk tree (Aria2.filename path) (config.folderId.getD G.parentFolderId)
        (log.filterMap (folderMade G)) work idOf ∧
      ∀ fallback, (G.walkEntries fallback entries [([], idOf [])] []).Dialog log₂ r := by
  unfold GoogleDriveUploader.prepare at h
  rw [if_pos hready] at h
  obtain ⟨present, log₁, rfl, h₁⟩ := h.ask_bind_inv
  obtain ⟨rfl, hlog₁⟩ := List.forall_mem_cons.1 hlog
  rw [if_pos rfl] at h₁
  dsimp only at h₁
  rw [if_neg hparent] at h₁
  obtain ⟨log₂, log₃, root, rfl, h₂, h₃⟩ := h₁.bind_inv
  rw [List.forall_mem_append] at hlog₁
  obtain ⟨rootId, rfl, hroot⟩ := createFolder_granted h₂ hlog₁.1
  obtain ⟨entries, log₄, rfl, h₄⟩ := h₃.ask_bind_inv
  obtain ⟨⟨vs, hvs, rfl⟩, hlog₄⟩ := List.forall_mem_cons.1 hlog₁.2
  have hnodup := hvs.nodup htree
  have hnew : ∀ q ∈ vs.map Prod.fst, q ∉ [(([] : List String), rootId)].map Prod.fst := by
    intro q hq hnil
    obtain ⟨⟨q', k⟩, hv, rfl⟩ := List.mem_map.1 hq
    obtain ⟨p, rfl, hp⟩ := hvs.mem_iff.1 hv
    obtain ⟨x, p', rfl, -⟩ := hp.exists_cons
    simp at hnil
  obtain ⟨F, hext, hmade, rfl, hany⟩ := walkEntries_spec (hvs.parentsFirst List.mem_cons_self) hnodup hnew h₄ hlog₄
  have hid : idIn F [] = rootId := hext.idIn_eq List.mem_cons_self
  have hdirs : ∀ d, d ∈ dirs vs ↔ Has tree d none := fun d => hvs.mem_picked_iff fun k => by simp
  have hmirrors : List.filterMap (folderMade G) (⟨.isDirectory path, true⟩ ::
      (log₂ ++ ⟨.walk path, vs.map (visitEntry onDisk)⟩ :: log₄)) =
      ⟨Aria2.filename path, config.folderId.getD G.parentFolderId, idIn F []⟩ ::
        (dirs vs).map (folderOf (idIn F)) := by
    rw [List.filterMap_cons_none rfl, List.filterMap_append, List.filterMap_cons_none rfl, hroot, hmade, hid]
    rfl
  rw [hmirrors] at hfresh ⊢
  have hids : (([] :: dirs vs).map (idIn F)).Nodup := by
    rw [List.map_cons, List.map_map] at hfresh
    exact hfresh
  have hmem : ∀ d, d = [] ∨ Has tree d none → d ∈ [] :: dirs vs := by
    rintro d (rfl | hd)
    · exact List.mem_cons_self
    · exact List.mem_cons_of_mem _ ((hdirs d).2 hd)
  refine ⟨idIn F, _, ⟨.isDirectory path, true⟩ :: log₂, _, log₄, rfl, rfl, ⟨?_, ?_, ?_⟩, ?_⟩
  · exact ⟨dirs vs, nodup_picked hnodup, hdirs, rfl⟩
  · intro d d' hd hd' heq
    exact List.inj_on_of_nodup_map hids (hmem d hd) (hmem d' hd') heq
  · exact ⟨files vs, nodup_picked hnodup, fun f => hvs.mem_picked_iff fun k => by simp, rfl⟩
  · rw [hid]
    exact hany

/-! ### The whole upload -/

/-- The call creates no folder. -/
def DriveCall.NoFolder (c : DriveCall) : Prop :=
  ∀ bearer name parent, c ≠ .request (.createFolder bearer name parent)

theorem noFolder_acquireBearer (G : GoogleDriveUploader) : G.acquireBearer.Only DriveCall.NoFolder := by
  refine (only_acquireBearer G).mono fun c hc bearer name parent heq => ?_
  rw [heq] at hc
  exact hc

theorem noFolder_orReturn {α β : Type} {res : Result α} {f : α → Action (Result β)}
    (hf : ∀ a, (f a).Only DriveCall.NoFolder) : (orReturn res f).Only DriveCall.NoFolder := by
  cases res with
  | error err => exact .pure _
  | ok a => exact hf a

theorem noFolder_uploadMultipart (path : Path) (parent : String) :
    (G.uploadMultipart path parent).Only DriveCall.NoFolder := by
  refine .ask_bind (by simp [DriveCall.NoFolder]) fun content => ?_
  cases content with
  | none => exact .pure _
  | some content =>
    refine (noFolder_acquireBearer G).bind fun bearer => noFolder_orReturn fun bearer => ?_
    refine .ask_bind (by simp [DriveCall.NoFolder]) fun res => noFolder_orReturn fun resp => ?_
    exact noFolder_orReturn fun id => .pure _

theorem noFolder_uploadChunks (path : Path) (total : Nat) (uri : String) :
    (G.uploadChunks path total uri).Only DriveCall.NoFolder := by
  refine .ask_bind (by simp [DriveCall.NoFolder]) fun file => ?_
  cases file with
  | none => exact .ask_bind (by simp [DriveCall.NoFolder]) fun _ => .pure _
  | some file =>
    refine .ask_bind (by simp [DriveCall.NoFolder]) fun j => ?_
    split
    · exact .ask_bind (by simp [DriveCall.NoFolder]) fun _ => .pure _
    · exact .pure _

theorem noFolder_uploadResumable (path : Path) (parent : String) :
    (G.uploadResumable path parent).Only DriveCall.NoFolder := by
  refine .ask_bind (by simp [DriveCall.NoFolder]) fun size => ?_
  cases size with
  | error what => exact .pure _
  | ok total =>
    refine (noFolder_acquireBearer G).bind fun bearer => noFolder_orReturn fun bearer => ?_
    refine .ask_bind (by simp [DriveCall.NoFolder]) fun res => noFolder_orReturn fun resp => ?_
    exact noFolder_orReturn fun uri => noFolder_uploadChunks path total uri

theorem noFolder_uploadFile (path : Path) (config : UploadConfig) :
    (G.uploadFile path config).Only DriveCall.NoFolder := by
  unfold GoogleDriveUploader.uploadFile
  split
  · refine .ask_bind (by simp [DriveCall.NoFolder]) fun present => ?_
    split
    · refine .ask_bind (by simp [DriveCall.NoFolder]) fun size => ?_
      cases size with
      | error what => exact .pure _
      | ok size =>
        dsimp only
        split
        · exact .pure _
        · refine .ask_bind (by simp [DriveCall.NoFolder]) fun stopped => ?_
          split
          · exact .pure _
          · split
            · exact noFolder_uploadMultipart path _
            · exact noFolder_uploadResumable path _
    · exact .pure _
  · exact .pure _

abbrev DirLog (G : GoogleDriveUploader) := List (Σ c, Sum.elim DriveCall.Answer (JoinFiles.Answer G) c)

/-- The folder that an answered call of `upload_directory` has created. -/
def dirFolderMade (G : GoogleDriveUploader) :
    (Σ c, Sum.elim DriveCall.Answer (JoinFiles.Answer G) c) → Option Folder
  | ⟨.inl c, res⟩ => folderMade G ⟨c, res⟩
  | ⟨.inr _, _⟩ => none

/-- A directory tree that is walked in pre-order, with nothing going wrong and a fresh id for each
folder: the folders that `upload_directory` creates mirror the tree, each regular file is handed to the
workers with the folder of its directory, and the walk would have gone the same way with any other
fallback. The workers create no folder. -/
theorem directory_mirrored {log : DirLog G} {r : Result (List UploadResult)} (hready : G.ready = true)
    (hparent : config.folderId.getD G.parentFolderId ≠ "") (htree : Distinct tree)
    (h : (G.uploadDirectory path config).Dialog log r)
    (hlog : ∀ c res, ⟨.inl c, res⟩ ∈ log → Granted G onDisk tree ⟨c, res⟩)
    (hfresh : ((log.filterMap (dirFolderMade G)).map Folder.id).Nodup) :
    ∃ idOf work log₁ entries log₂ j,
      log = (log₁ ++ ⟨.walk path, entries⟩ :: log₂).map (fun x => ⟨.inl x.1, x.2⟩) ++
        [⟨.inr ⟨work, config⟩, j⟩] ∧
      Mirrors onDisk tree (Aria2.filename path) (config.folderId.getD G.parentFolderId)
        (log.filterMap (dirFolderMade G)) work idOf ∧
      (∀ fallback, (G.walkEntries fallback entries [([], idOf [])] []).Dialog log₂ (.ok work)) ∧
      ∀ idx, (G.uploadItem work config idx).Only DriveCall.NoFolder := by
  obtain ⟨log₁, log₂, res, rfl, h₁, h₂⟩ := h.bind_inv
  obtain ⟨log₀, rfl, h₀⟩ := h₁.embed_inv
  have hgranted : ∀ y ∈ log₀, Granted G onDisk tree y := fun y hy =>
    hlog y.1 y.2 (List.mem_append_left _ (List.mem_map_of_mem hy))
  have hmade : ∀ l : List (Σ c, DriveCall.Answer c), List.filterMap (dirFolderMade G)
      (l.map fun x => (⟨.inl x.1, x.2⟩ : Σ c, Sum.elim DriveCall.Answer (JoinFiles.Answer G) c)) =
      l.filterMap (folderMade G) := by
    intro l
    rw [List.filterMap_map]
    rfl
  have hids : ((log₀.filterMap (folderMade G)).map Folder.id).Nodup := by
    rw [List.filterMap_append, hmade, List.map_append] at hfresh
    exact (List.nodup_append.1 hfresh).1
  obtain ⟨idOf, work, log₃, entries, log₄, rfl, rfl, hmirrors, hany⟩ :=
    prepare_mirrored hready hparent htree h₀ hgranted hids
  obtain ⟨j, log₅, rfl, h₃⟩ := h₂.ask_bind_inv
  obtain ⟨rfl, -⟩ := h₃.pure_inv
  refine ⟨idOf, work, log₃, entries, log₄, j, rfl, ?_, hany, fun idx => noFolder_uploadFile _ _⟩
  rw [List.filterMap_append, hmade]
  have hnone : List.filterMap (dirFolderMade G) [⟨.inr ⟨work, config⟩, j⟩] = [] := rfl
  rw [hnone, List.append_nil]
  exact hmirrors

/-! ### A nested directory -/

/-- A response whose body is the id of what it is about. -/
def echoing : GoogleDriveUploader :=
  ⟨true, ⟨fun body => .ok (.object [("id", .string body)]), fun _ => 0⟩, "parent", 0, 1, 1, 0⟩

/-- `/d` has the directory `a` with the file `f`, and nothing else. -/
def nested : Listing := [("a", .node [("f", .leaf .file)])]

def inPreOrder : List (Visit String LeafKind) := [(["a"], none), (["a", "f"], some .file)]

theorem nested_preOrder : PreOrder [] nested inPreOrder := by
  have hnone : ∀ p, PreOrder p (([] : Listing) ++ []) [] := .nil
  have hfile : PreOrder ["a"] (([] : Listing) ++ ("f", .leaf .file) :: []) [(["a"] ++ ["f"], some .file)] :=
    .leaf "f" .file (hnone ["a"])
  exact .node "a" hfile (hnone [])

theorem nested_distinct : Distinct nested := by
  refine .intro (by decide) fun x sub hx => ?_
  simp only [nested, List.mem_singleton, Prod.mk.injEq, PathTree.node.injEq] at hx
  obtain ⟨-, rfl⟩ := hx
  refine .intro (by decide) fun y sub hy => ?_
  simp at hy

def underD (q : List String) : Path := q.foldl (fun path name => path ++ "/" ++ name) "/d"

/-- The folders get the ids `1` and `2`. -/
def makesTwo : List (Σ c, DriveCall.Answer c) :=
  [⟨.isDirectory "/d", true⟩, ⟨.cachedBearer, some "Bearer t"⟩,
    ⟨.request (.createFolder "Bearer t" "d" "parent"), .ok ⟨200, "1", []⟩⟩,
    ⟨.walk "/d", inPreOrder.map (visitEntry underD)⟩, ⟨.cancellationState, false⟩,
    ⟨.cachedBearer, some "Bearer t"⟩,
    ⟨.request (.createFolder "Bearer t" "a" "1"), .ok ⟨200, "2", []⟩⟩, ⟨.cancellationState, false⟩]

theorem makesTwo_granted : ∀ y ∈ makesTwo, Granted echoing underD nested y := by
  unfold makesTwo
  simp only [List.forall_mem_cons]
  exact ⟨rfl, trivial, ⟨_, "1", rfl, rfl⟩, ⟨_, nested_preOrder, rfl⟩, rfl, trivial, ⟨_, "2", rfl, rfl⟩,
    rfl, by simp⟩

theorem makesTwo_fresh : ((makesTwo.filterMap (folderMade echoing)).map Folder.id).Nodup := by decide

def nestedWork : List FileWork := [⟨underD ["a", "f"], "2"⟩]

theorem prepare_makesTwo : (echoing.prepare "/d" {}).Dialog makesTwo (.ok nestedWork) :=
  .call _ (.call _ (.call _ (.call _ (.call _ (.call _ (.call _ (.call _ (.pure _))))))))

/-- The worker of the one file finds itself cancelled. -/
def stopsWorker (i : Fin (fileParallelism 1 1)) : List (PoolEvent (fileParallelism 1 1) DirEvent) :=
  [.env .spawn, .env .startWait, .act i .start, .act i (.run .run), .act i (.run (.cancelState true)),
    .act i .exit, .act i .cancel]

theorem exists_files_join : Nonempty (JoinFiles.Answer echoing ⟨nestedWork, {}⟩) := by
  have hrun : ∃ s, (dirPool 1 1).Runs (dirStart 1 1) (stopsWorker ⟨0, by decide⟩) s ∧
      s.shared.parent = .woken ∧ s.shared.body.calls = [] :=
    ⟨_, .cons trivial rfl (.cons trivial rfl (.cons trivial rfl (.cons trivial rfl (.cons trivial rfl
      (.cons trivial rfl (.cons trivial rfl (.nil _))))))), rfl, rfl⟩
  obtain ⟨s, hs, hwoken, hcalls⟩ := hrun
  refine ⟨⟨⟨_, s, hs, hwoken⟩, fun _ => [], ?_⟩⟩
  intro m idx r hm
  rw [hcalls] at hm
  cases hm

theorem directory_mirrored_nested : ∃ log r, (echoing.uploadDirectory "/d" {}).Dialog log r ∧
    ∃ idOf work, Mirrors underD nested "d" "parent" (log.filterMap (dirFolderMade echoing)) work idOf := by
  obtain ⟨j⟩ := exists_files_join
  have hjoin : ((Prog.ask (Sum.inr (JoinFiles.mk nestedWork {})) : DirAction echoing _) >>=
      fun j => pure j.result).Dialog [⟨.inr ⟨nestedWork, {}⟩, j⟩] j.result := by
    refine Prog.Dialog.ask_bind ?_ ?_
    exact .pure _
  have hrun : (echoing.uploadDirectory "/d" {}).Dialog _ _ := prepare_makesTwo.embed.bind hjoin
  have hgranted : ∀ c res, ⟨.inl c, res⟩ ∈ makesTwo.map (fun x => ⟨.inl x.1, x.2⟩) ++
      ([⟨.inr ⟨nestedWork, {}⟩, j⟩] : DirLog echoing) → Granted echoing underD nested ⟨c, res⟩ := by
    intro c res hmem
    rcases List.mem_append.1 hmem with hmem | hmem
    · obtain ⟨y, hy, heq⟩ := List.mem_map.1 hmem
      cases heq
      exact makesTwo_granted y hy
    · cases List.mem_singleton.1 hmem
  have hfresh : ((List.filterMap (dirFolderMade echoing) (makesTwo.map (fun x => ⟨.inl x.1, x.2⟩) ++
      [⟨.inr ⟨nestedWork, {}⟩, j⟩])).map Folder.id).Nodup := by
    exact makesTwo_fresh
  obtain ⟨idOf, work, -, -, -, -, -, hmirrors, -⟩ :=
    directory_mirrored rfl (by decide) nested_distinct hrun hgranted hfresh
  exact ⟨_, _, hrun, idOf, work, hmirrors⟩

end Cmlb.Upload.GoogleDrive
