import Mathlib.Data.List.Forall2
import Mathlib.Logic.Function.Basic
import Cmlb.Core.Text
import Cmlb.Lib.Server
import Cmlb.Upload.DirectoryTree

/-!
# Copying and counting what is on Drive (`google_drive_uploader.cpp`)

`copy` and `count` as programs over the requests of the Drive API, and Drive itself as the server that
answers them: the folders with their children, the pages of a listing, and what `copy` creates. A loop
of the source has no bound of its own, so a program is given a number of rounds (`fuel`) for each, and
where they are used up it is still running (`Outcome.running`). `list_children` collects all pages
(`listPages_served`).

The bodies of the requests and the fields of the responses that are not read are left out.
-/

namespace Cmlb.Upload.GoogleDrive

inductive FilesRequest
  | metadata (bearer id : String)
  | listPage (bearer parent pageToken : String)
  | copyFile (bearer id parent : String)

abbrev FilesAnswer : DriveCall ⊕ FilesRequest → Type :=
  Sum.elim DriveCall.Answer fun _ => Result HttpResponse

abbrev FilesAction := Prog (DriveCall ⊕ FilesRequest) FilesAnswer

/-- How a call ends: with what it returns, or by an exception of `json`. -/
inductive Outcome (α : Type)
  | returned (res : Result α)
  | threw (what : String)
  | running

namespace Outcome

variable {α β : Type}

/-- A read of a field outside of any `try`. -/
def ofRead : Except String α → Outcome α
  | .error what => .threw what
  | .ok a => .returned (.ok a)

def andThen (o : Outcome α) (f : α → FilesAction (Outcome β)) : FilesAction (Outcome β) :=
  match o with
  | .returned (.ok a) => f a
  | .returned (.error err) => pure (.returned (.error err))
  | .threw what => pure (.threw what)
  | .running => pure .running

@[simp] theorem ofRead_ok (a : α) : ofRead (.ok a) = .returned (.ok a) := rfl

@[simp] theorem andThen_ok (a : α) (f : α → FilesAction (Outcome β)) :
    (Outcome.returned (.ok a)).andThen f = f a := rfl

end Outcome

def kFolderMime : String := "application/vnd.google-apps.folder"

structure CountResult where
  files : Int := 0
  folders : Int := 0
  totalBytes : Int := 0

/-- A folder to copy, and the folder to copy it into. -/
structure Frame where
  source : String
  destination : String

/-- A page of a listing: its children, and the token of the next page. -/
def pageOf (L : JsonLib) (body : String) : Except String (List Json × Option String) :=
  match L.parse body with
  | .error what => .error what
  | .ok doc => .ok (doc.arrayMember "files", doc.stringMember "nextPageToken")

/-- The size of a child, in bytes; a child without an integer for it has none. -/
def sizeOf (child : Json) : Int :=
  match child.stringMember "size" with
  | none => 0
  | some text => (stoll text).getD 0

/-- What a child adds to the totals, and to the queue, whose back is the head of the list. -/
def countChild (totals : CountResult) (queue : List String) (child : Json) :
    Except String (CountResult × List String) := do
  let cmime ← child.value Json.getString "mimeType" ""
  if cmime = kFolderMime then
    let cid ← child.value Json.getString "id" ""
    return ({ totals with folders := Aria2.toInt32 (totals.folders + 1) },
      if cid = "" then queue else cid :: queue)
  else
    return ({ totals with
      files := Aria2.toInt32 (totals.files + 1)
      totalBytes := Aria2.toInt64 (totals.totalBytes + sizeOf child) }, queue)

def countChildren (totals : CountResult) (queue : List String) :
    List Json → Except String (CountResult × List String)
  | [] => .ok (totals, queue)
  | child :: rest => do
    let (totals, queue) ← countChild totals queue child
    countChildren totals queue rest

def notReadyYet {α : Type} : Outcome α :=
  .returned (.error ⟨.invalidState, "gdrive: uploader not ready"⟩)

namespace GoogleDriveUploader

variable (G : GoogleDriveUploader)

def fetchMetadata (bearer id : String) : FilesAction (Outcome Json) := do
  let res : Result HttpResponse ← Prog.ask (Sum.inr (FilesRequest.metadata bearer id))
  match res with
  | .error err => pure (.returned (.error err))
  | .ok resp =>
    if resp.statusCode = 404 then
      pure (.returned (.error ⟨.notFound, "gdrive: id not found: " ++ id⟩))
    else if isSuccess resp then
      match G.json.parse resp.body with
      | .error what => pure (.returned (.error ⟨.jsonParse, "gdrive: metadata parse: " ++ what⟩))
      | .ok doc => pure (.returned (.ok doc))
    else
      pure (.returned (.error ⟨.googleDriveApi, "gdrive: metadata fetch " ++ id ++ " returned " ++
        toString resp.statusCode ++ ": " ++ resp.body⟩))

/-- The loop of `list_children`: the children collected so far are `out`. -/
def listPages (bearer parentId : String) : Nat → String → List Json → FilesAction (Outcome (List Json))
  | 0, _, _ => pure .running
  | fuel + 1, pageToken, out => do
    let res : Result HttpResponse ← Prog.ask (Sum.inr (FilesRequest.listPage bearer parentId pageToken))
    match res with
    | .error err => pure (.returned (.error err))
    | .ok resp =>
      if isSuccess resp then
        match pageOf G.json resp.body with
        | .error what => pure (.returned (.error ⟨.jsonParse, "gdrive: list children parse: " ++ what⟩))
        | .ok (files, some next) => listPages bearer parentId fuel next (out ++ files)
        | .ok (files, none) => pure (.returned (.ok (out ++ files)))
      else
        pure (.returned (.error ⟨.googleDriveApi, "gdrive: list children of " ++ parentId ++
          " returned " ++ toString resp.statusCode ++ ": " ++ resp.body⟩))

def listChildren (fuel : Nat) (bearer parentId : String) : FilesAction (Outcome (List Json)) :=
  G.listPages bearer parentId fuel "" []

/-- The loop of `count`. -/
def countLoop (pages : Nat) (bearer : String) :
    Nat → CountResult → List String → FilesAction (Outcome CountResult)
  | _, totals, [] => pure (.returned (.ok totals))
  | 0, _, _ :: _ => pure .running
  | fuel + 1, totals, here :: queue => do
    let stopped : Bool ← Prog.ask (Sum.inl DriveCall.cancellationState)
    if stopped then pure (.returned (.error ⟨.cancelled, "gdrive: count cancelled"⟩))
    else
      let children ← G.listChildren pages bearer here
      children.andThen fun children =>
        (Outcome.ofRead (countChildren totals queue children)).andThen fun (totals, queue) =>
          countLoop pages bearer fuel totals queue

def count (fuel : Nat) (folderId : String) : FilesAction (Outcome CountResult) :=
  if G.ready then do
    let bearer ← G.acquireBearer.embed
    (Outcome.returned bearer).andThen fun bearer => G.countLoop fuel bearer fuel {} [folderId]
  else pure notReadyYet

/-- The loop of `copy` over the children of a folder. -/
def copyChildren (bearer destination : String) :
    List Json → List Frame → FilesAction (Outcome (List Frame))
  | [], stack => pure (.returned (.ok stack))
  | child :: rest, stack =>
    (Outcome.ofRead (child.value Json.getString "id" "")).andThen fun cid =>
      if cid = "" then copyChildren bearer destination rest stack
      else
        (Outcome.ofRead (child.value Json.getString "mimeType" "")).andThen fun cmime =>
          (Outcome.ofRead (child.value Json.getString "name" "item")).andThen fun cname =>
            if cmime = kFolderMime then do
              let created ← (G.createFolder cname destination).embed
              (Outcome.returned created).andThen fun id =>
                copyChildren bearer destination rest (⟨cid, id⟩ :: stack)
            else do
              let res : Result HttpResponse ←
                Prog.ask (Sum.inr (FilesRequest.copyFile bearer cid destination))
              (Outcome.returned res).andThen fun resp =>
                if isSuccess resp then copyChildren bearer destination rest stack
                else
                  pure (.returned (.error ⟨.googleDriveApi, "gdrive: child copy returned " ++
                    toString resp.statusCode ++ ": " ++ resp.body⟩))

/-- The loop of `copy` over the frames; the back of the stack is the head of the list. -/
def copyLoop (pages : Nat) (bearer rootId : String) : Nat → List Frame → FilesAction (Outcome String)
  | _, [] => pure (.returned (.ok rootId))
  | 0, _ :: _ => pure .running
  | fuel + 1, frame :: stack => do
    let stopped : Bool ← Prog.ask (Sum.inl DriveCall.cancellationState)
    if stopped then pure (.returned (.error ⟨.cancelled, "gdrive: copy cancelled"⟩))
    else
      let children ← G.listChildren pages bearer frame.source
      children.andThen fun children => do
        let frames ← G.copyChildren bearer frame.destination children stack
        frames.andThen fun stack => copyLoop pages bearer rootId fuel stack

/-- The copy of a single file. -/
def copyOne (bearer sourceId targetFolderId : String) : FilesAction (Outcome String) := do
  let res : Result HttpResponse ←
    Prog.ask (Sum.inr (FilesRequest.copyFile bearer sourceId targetFolderId))
  (Outcome.returned res).andThen fun resp =>
    pure (.returned (parseId G.json "gdrive: copy returned " "gdrive: copy response parse: " resp))

def copy (fuel : Nat) (sourceId targetFolderId : String) : FilesAction (Outcome String) :=
  if G.ready then do
    let bearer ← G.acquireBearer.embed
    (Outcome.returned bearer).andThen fun bearer => do
      let doc ← G.fetchMetadata bearer sourceId
      doc.andThen fun doc =>
        (Outcome.ofRead (doc.value Json.getString "mimeType" "")).andThen fun mime =>
          (Outcome.ofRead (doc.value Json.getString "name" "copy")).andThen fun name =>
            if mime = kFolderMime then do
              let root ← (G.createFolder name targetFolderId).embed
              (Outcome.returned root).andThen fun rootId =>
                G.copyLoop fuel bearer rootId fuel [⟨sourceId, rootId⟩]
            else G.copyOne bearer sourceId targetFolderId
  else pure notReadyYet

end GoogleDriveUploader

/-! ### Drive -/

/-- A file or a folder; `content` is what a file holds. -/
structure DriveItem where
  id : String
  name : String
  mimeType : String
  size : Option String := none
  content : String := ""
deriving DecidableEq, Repr

def DriveItem.isFolder (e : DriveItem) : Bool := decide (e.mimeType = kFolderMime)

/-- What is on Drive. Only folders have children, and nothing has the empty id. -/
structure DriveStore where
  item : String → Option DriveItem
  children : String → List DriveItem
  id_eq : ∀ {id e}, item id = some e → e.id = id
  item_of_mem : ∀ {id e}, e ∈ children id → item e.id = some e
  folder : ∀ {id}, children id ≠ [] → ∃ e, item id = some e ∧ e.isFolder = true
  no_empty : item "" = none

namespace DriveStore

variable {st : DriveStore} {parent id : String} {e : DriveItem}

theorem children_eq_nil (hid : st.item id = none) : st.children id = [] := by
  by_contra hne
  obtain ⟨p, hp, -⟩ := st.folder hne
  rw [hid] at hp
  cases hp

/-- What a new item needs. -/
structure CanAdd (st : DriveStore) (parent : String) (e : DriveItem) : Prop where
  folder : ∃ p, st.item parent = some p ∧ p.isFolder = true
  fresh : st.item e.id = none
  id_ne : e.id ≠ ""

theorem CanAdd.parent_ne (h : st.CanAdd parent e) : parent ≠ e.id := by
  rintro rfl
  obtain ⟨p, hp, -⟩ := h.folder
  rw [h.fresh] at hp
  cases hp

/-- `st` with the new item `e` in the folder `parent`. -/
def add (st : DriveStore) (parent : String) (e : DriveItem) (h : st.CanAdd parent e) : DriveStore where
  item := Function.update st.item e.id (some e)
  children := Function.update st.children parent (st.children parent ++ [e])
  id_eq := by
    intro id x hx
    by_cases hid : id = e.id
    · rw [hid, Function.update_self] at hx
      cases hx
      exact hid.symm
    · rw [Function.update_of_ne hid] at hx
      exact st.id_eq hx
  item_of_mem := by
    intro id x hx
    have hold : ∀ {id}, x ∈ st.children id → Function.update st.item e.id (some e) x.id = some x := by
      intro id hx
      have hitem := st.item_of_mem hx
      have hne : x.id ≠ e.id := by
        intro heq
        rw [heq, h.fresh] at hitem
        cases hitem
      rw [Function.update_of_ne hne, hitem]
    by_cases hid : id = parent
    · rw [hid, Function.update_self] at hx
      rcases List.mem_append.1 hx with hx | hx
      · exact hold hx
      · rw [List.mem_singleton.1 hx, Function.update_self]
    · rw [Function.update_of_ne hid] at hx
      exact hold hx
  folder := by
    intro id hid
    have hfolder : ∃ p, st.item id = some p ∧ p.isFolder = true := by
      by_cases hparent : id = parent
      · rw [hparent]
        exact h.folder
      · rw [Function.update_of_ne hparent] at hid
        exact st.folder hid
    obtain ⟨p, hp, hpf⟩ := hfolder
    have hne : id ≠ e.id := by
      rintro rfl
      rw [h.fresh] at hp
      cases hp
    exact ⟨p, by rw [Function.update_of_ne hne, hp], hpf⟩
  no_empty := by rw [Function.update_of_ne h.id_ne.symm, st.no_empty]

variable (h : st.CanAdd parent e)

@[simp] theorem children_add_self : (st.add parent e h).children parent = st.children parent ++ [e] := by
  simp [add]

theorem children_add_of_ne (hid : id ≠ parent) : (st.add parent e h).children id = st.children id := by
  simp [add, hid]

@[simp] theorem item_add_self : (st.add parent e h).item e.id = some e := by
  simp [add]

theorem item_add_of_ne (hid : id ≠ e.id) : (st.add parent e h).item id = st.item id := by
  simp [add, hid]

end DriveStore

/-- `doc` has the fields of `e` that are asked for. -/
structure Shows (e : DriveItem) (doc : Json) : Prop where
  id : doc.stringMember "id" = some e.id
  name : doc.stringMember "name" = some e.name
  mimeType : doc.stringMember "mimeType" = some e.mimeType
  size : doc.stringMember "size" = e.size

/-- `e'` is a copy of `e`; Drive may name the copy of a file as it likes. -/
structure CopyOf (e e' : DriveItem) : Prop where
  mimeType : e'.mimeType = e.mimeType
  name : e.isFolder = true → e'.name = e.name
  content : e.isFolder = false → e'.size = e.size ∧ e'.content = e.content

/-- Drive, with the pages that the next page tokens of a folder stand for. -/
structure DriveServer where
  store : DriveStore
  cursors : String × String → List (List DriveItem)

namespace DriveServer

/-- The pages of a folder from the page token on. The first request splits the children into pages, at
most `P` of them and in any order. -/
def Pages (P : Nat) (sv : DriveServer) (parent pageToken : String) (pages : List (List DriveItem)) :
    Prop :=
  if pageToken = "" then pages.length ≤ P ∧ pages.flatten.Perm (sv.store.children parent)
  else pages = sv.cursors (parent, pageToken)

/-- The token of the next page stands for the pages that are left. -/
def Turns (sv : DriveServer) (parent : String) (rest : List (List DriveItem)) (next : Option String)
    (sv' : DriveServer) : Prop :=
  if rest = [] then next = none ∧ sv' = sv
  else ∃ token, token ≠ "" ∧ next = some token ∧
    sv' = { sv with cursors := Function.update sv.cursors (parent, token) rest }

def Adds (sv : DriveServer) (parent : String) (e : DriveItem) (sv' : DriveServer) : Prop :=
  ∃ h : sv.store.CanAdd parent e, sv' = { sv with store := sv.store.add parent e h }

end DriveServer

open DriveServer in
/-- How Drive answers while nothing goes wrong, and nothing is cancelled. -/
def Answers (G : GoogleDriveUploader) (P : Nat) (sv : DriveServer) :
    (c : DriveCall ⊕ FilesRequest) → FilesAnswer c → DriveServer → Prop
  | .inl .cancellationState, stopped, sv' => stopped = false ∧ sv' = sv
  | .inl .cachedBearer, _, sv' => sv' = sv
  | .inl .signJwt, jwt, sv' => (∃ text, jwt = .ok text) ∧ sv' = sv
  | .inl (.storeBearer _ _), _, sv' => sv' = sv
  | .inl (.request (.tokenExchange _)), res, sv' =>
    (∃ resp token, res = .ok resp ∧ G.tokenOf resp = .ok token) ∧ sv' = sv
  | .inl (.request (.createFolder _ name parent)), res, sv' =>
    ∃ resp e, res = .ok resp ∧ G.folderId resp = .ok e.id ∧ e.name = name ∧ e.isFolder = true ∧
      sv.Adds parent e sv'
  | .inr (.metadata _ id), res, sv' =>
    (∃ resp doc e, res = .ok resp ∧ isSuccess resp = true ∧ G.json.parse resp.body = .ok doc ∧
      sv.store.item id = some e ∧ Shows e doc) ∧ sv' = sv
  | .inr (.listPage _ parent pageToken), res, sv' =>
    ∃ resp doc page rest, res = .ok resp ∧ isSuccess resp = true ∧ G.json.parse resp.body = .ok doc ∧
      sv.Pages P parent pageToken (page :: rest) ∧ List.Forall₂ Shows page (doc.arrayMember "files") ∧
      sv.Turns parent rest (doc.stringMember "nextPageToken") sv'
  | .inr (.copyFile _ id parent), res, sv' =>
    ∃ resp e e', res = .ok resp ∧ isSuccess resp = true ∧ finalFileId G.json resp.body = .ok e'.id ∧
      sv.store.item id = some e ∧ CopyOf e e' ∧ sv.Adds parent e' sv'
  | _, _, _ => False

variable {G : GoogleDriveUploader} {P : Nat} {sv sv' : DriveServer} {bearer parent : String}

theorem value_of_stringMember {key text fallback : String} {doc : Json}
    (h : doc.stringMember key = some text) : doc.value Json.getString key fallback = .ok text := by
  cases doc with
  | object fields =>
    simp only [Json.stringMember, Json.member] at h
    cases hl : fields.lookup key with
    | none => simp [hl] at h
    | some v =>
      rw [hl, Option.bind_some] at h
      cases v with
      | string s =>
        cases h
        simp [Json.value, hl, Json.getString]
      | _ => cases h
  | _ => cases h

theorem acquireBearer_served {r : Result String}
    (h : G.acquireBearer.Served (fun sv c r sv' => Answers G P sv (.inl c) r sv') sv r sv') :
    (∃ bearer, r = .ok bearer) ∧ sv' = sv := by
  obtain ⟨cached, _, rfl, h₁⟩ := h.ask_bind_inv
  cases cached with
  | some value =>
    obtain ⟨rfl, rfl⟩ := h₁.pure_inv
    exact ⟨⟨value, rfl⟩, rfl⟩
  | none =>
    obtain ⟨fresh, _, h₂, h₃⟩ := h₁.bind_inv
    obtain ⟨jwt, _, ⟨⟨text, rfl⟩, rfl⟩, h₄⟩ := h₂.ask_bind_inv
    obtain ⟨res, _, ⟨⟨resp, token, rfl, htoken⟩, rfl⟩, h₅⟩ := h₄.ask_bind_inv
    obtain ⟨rfl, rfl⟩ := h₅.pure_inv
    rw [htoken] at h₃
    obtain ⟨_, _, rfl, h₆⟩ := h₃.ask_bind_inv
    obtain ⟨rfl, rfl⟩ := h₆.pure_inv
    exact ⟨⟨token.1, rfl⟩, rfl⟩

theorem createFolder_served {name : String} {r : Result String}
    (h : (G.createFolder name parent).Served (fun sv c r sv' => Answers G P sv (.inl c) r sv') sv r sv') :
    ∃ e, r = .ok e.id ∧ e.name = name ∧ e.isFolder = true ∧ sv.Adds parent e sv' := by
  obtain ⟨bearer, _, h₁, h₂⟩ := h.bind_inv
  obtain ⟨⟨bearer, rfl⟩, rfl⟩ := acquireBearer_served h₁
  obtain ⟨res, _, ⟨resp, e, rfl, hid, hname, hfolder, hadds⟩, h₃⟩ := h₂.ask_bind_inv
  obtain ⟨rfl, rfl⟩ := h₃.pure_inv
  exact ⟨e, hid, hname, hfolder, hadds⟩

theorem fetchMetadata_served {id : String} {r : Outcome Json}
    (h : (G.fetchMetadata bearer id).Served (Answers G P) sv r sv') :
    ∃ doc e, r = .returned (.ok doc) ∧ sv.store.item id = some e ∧ Shows e doc ∧ sv' = sv := by
  obtain ⟨res, _, ⟨⟨resp, doc, e, rfl, hsuccess, hparse, hitem, hshows⟩, rfl⟩, h₁⟩ := h.ask_bind_inv
  have hfound : resp.statusCode ≠ 404 := by
    intro heq
    simp [isSuccess, heq] at hsuccess
  simp only [if_neg hfound, hsuccess, if_true, hparse] at h₁
  obtain ⟨rfl, rfl⟩ := h₁.pure_inv
  exact ⟨doc, e, rfl, hitem, hshows, rfl⟩

/-! ### The pages of a listing -/

/-- A run of `list_children` from a page on collects the pages that are left. -/
theorem listPages_served {fuel : Nat} {pageToken : String} {out : List Json} {r : Outcome (List Json)}
    (h : (G.listPages bearer parent fuel pageToken out).Served (Answers G P) sv r sv')
    (hfuel : ∀ pages, sv.Pages P parent pageToken pages → pages.length ≤ fuel) (hpos : 0 < fuel) :
    ∃ pages children, sv.Pages P parent pageToken pages ∧ r = .returned (.ok (out ++ children)) ∧
      List.Forall₂ Shows pages.flatten children ∧ sv'.store = sv.store := by
  induction fuel generalizing sv pageToken out with
  | zero => exact absurd hpos (Nat.lt_irrefl 0)
  | succ fuel ih =>
    obtain ⟨res, sv₁, ⟨resp, doc, page, rest, rfl, hsuccess, hparse, hpages, hshows, hturns⟩, h₁⟩ :=
      h.ask_bind_inv
    simp only [hsuccess, if_true, pageOf, hparse] at h₁
    unfold DriveServer.Turns at hturns
    split at hturns
    · -- the last page
      rename_i hrest
      obtain ⟨hnext, rfl⟩ := hturns
      rw [hnext] at h₁
      obtain ⟨rfl, rfl⟩ := h₁.pure_inv
      refine ⟨[page], doc.arrayMember "files", hrest ▸ hpages, rfl, ?_, rfl⟩
      simpa using hshows
    · rename_i hrest
      obtain ⟨token, htoken, hnext, rfl⟩ := hturns
      rw [hnext] at h₁
      have hleft : ∀ pages, DriveServer.Pages P
          { sv with cursors := Function.update sv.cursors (parent, token) rest } parent token pages ↔
          pages = rest := by
        intro pages
        simp [DriveServer.Pages, htoken]
      have hlength := hfuel _ hpages
      rw [List.length_cons] at hlength
      have hrestpos := List.length_pos_iff.2 hrest
      obtain ⟨pages, children, hpages', rfl, hshows', hstore⟩ := ih h₁
        (fun pages hp => by rw [(hleft pages).1 hp]; omega) (by omega)
      obtain rfl := (hleft pages).1 hpages'
      refine ⟨page :: pages, doc.arrayMember "files" ++ children, hpages, by rw [List.append_assoc], ?_, hstore⟩
      rw [List.flatten_cons]
      exact List.rel_append hshows hshows'

/-- With enough rounds `list_children` returns the children of the folder, in some order. -/
theorem listChildren_served {fuel : Nat} {r : Outcome (List Json)}
    (h : (G.listChildren fuel bearer parent).Served (Answers G P) sv r sv') (hfuel : P ≤ fuel)
    (hpos : 0 < fuel) :
    ∃ es children, r = .returned (.ok children) ∧ es.Perm (sv.store.children parent) ∧
      List.Forall₂ Shows es children ∧ sv'.store = sv.store := by
  have hfirst : ∀ pages, sv.Pages P parent "" pages ↔
      pages.length ≤ P ∧ pages.flatten.Perm (sv.store.children parent) := by
    intro pages
    simp [DriveServer.Pages]
  obtain ⟨pages, children, hpages, rfl, hshows, hstore⟩ := listPages_served h
    (fun pages hp => ((hfirst pages).1 hp).1.trans hfuel) hpos
  exact ⟨pages.flatten, children, rfl, ((hfirst pages).1 hpages).2, hshows, hstore⟩

end Cmlb.Upload.GoogleDrive
