import Cmlb.Core.Formatting
import Cmlb.Lib.RegexRun
import Cmlb.Presentation.Ports
import Cmlb.Upload.DriveFiles

/-!
# Drive links (`clone_drive_resource.cpp`, `count_drive_resource.cpp`, `delete_drive_resource.cpp`)

The three use cases as programs over the messenger and the Drive client. `extract_drive_id`, of which each
file has a copy, reads the id of a link: it is the first run of id characters behind the first of three
marks that has one, and a text without any is the id itself (`extractDriveId_iff`). An id that was read is
read as itself (`extractDriveId_idem`), and so is the link of an uploaded file, exactly if its id has id
characters only (`extractDriveId_shareLink`).

Log lines are left out, and so are the exceptions of the Drive client, which end a use case as they come.
-/

namespace Cmlb.DriveResource

open Prog (ask)
open Regex
open Upload.GoogleDrive (CountResult shareLink)

/-! ### `extract_drive_id` -/

/-- `[a-zA-Z0-9_-]`. -/
def isIdChar (c : Char) : Bool := c.isAlphanum || c == '_' || c == '-'

def literal (text : String) : List (Char → Bool) := text.toList.map fun c d => d == c

def fileRe : List (Char → Bool) := literal "/file/d/"

def folderRe : List (Char → Bool) := literal "/folders/"

def queryRe : List (Char → Bool) := (fun c => c == '?' || c == '&') :: literal "id="

/-- The group of the first match of the mark `ms` with `([a-zA-Z0-9_-]+)` behind it. -/
def captured (ms : List (Char → Bool)) (input : String) : Option String :=
  ((runBehind ms isIdChar).search none input.toList).map fun m => String.ofList (m.run ms)

def extractDriveId (input : String) : String :=
  match captured fileRe input with
  | some id => id
  | none =>
    match captured folderRe input with
    | some id => id
    | none =>
      match captured queryRe input with
      | some id => id
      | none => input

variable {ms : List (Char → Bool)} {input id : String}

/-- `id` is the first run of id characters behind the mark `ms`. -/
def Marked (ms : List (Char → Bool)) (input id : String) : Prop := FirstRun ms isIdChar input.toList id.toList

/-- An id of the alphabet that Drive uses. -/
def IsDriveId (id : String) : Prop := id.toList ≠ [] ∧ ∀ c ∈ id.toList, isIdChar c = true

instance (id : String) : Decidable (IsDriveId id) :=
  decidable_of_iff (id.toList ≠ [] ∧ id.toList.all isIdChar = true) (and_congr_right fun _ => List.all_eq_true)

theorem Marked.isDriveId (h : Marked ms input id) : IsDriveId id := ⟨h.ne_nil, h.all⟩

theorem captured_eq_some_iff : captured ms input = some id ↔ Marked ms input id := by
  have hsearch : ((runBehind ms isIdChar).search none input.toList).map (Match.run ms) = some id.toList ↔ _ :=
    search_runBehind
  rw [Marked, ← hsearch, captured, Option.map_eq_some_iff, Option.map_eq_some_iff]
  refine exists_congr fun m => and_congr_right fun _ => ?_
  rw [← String.toList_inj, String.toList_ofList]

theorem captured_eq_none_iff : captured ms input = none ↔ ∀ id, ¬ Marked ms input id := by
  simp only [Option.eq_none_iff_forall_not_mem, Option.mem_def, captured_eq_some_iff]

/-- What is read of a text. -/
theorem extractDriveId_iff : extractDriveId input = id ↔
    Marked fileRe input id ∨ (∀ x, ¬ Marked fileRe input x) ∧
      (Marked folderRe input id ∨ (∀ x, ¬ Marked folderRe input x) ∧
        (Marked queryRe input id ∨ (∀ x, ¬ Marked queryRe input x) ∧ input = id)) := by
  rw [← captured_eq_none_iff, ← captured_eq_none_iff, ← captured_eq_none_iff]
  simp only [← captured_eq_some_iff]
  unfold extractDriveId
  cases captured fileRe input with
  | some x => simp
  | none =>
    cases captured folderRe input with
    | some x => simp
    | none =>
      cases captured queryRe input with
      | some x => simp
      | none => simp

theorem extractDriveId_cases (input : String) :
    extractDriveId input = input ∨ IsDriveId (extractDriveId input) := by
  rcases extractDriveId_iff.1 (rfl : extractDriveId input = _) with h | ⟨-, h | ⟨-, h | ⟨-, h⟩⟩⟩
  · exact .inr h.isDriveId
  · exact .inr h.isDriveId
  · exact .inr h.isDriveId
  · exact .inl h.symm

/-- No mark begins with an id character. -/
theorem not_marked_of_isDriveId {q : Char → Bool} (hq : ∀ c, q c = true → isIdChar c = false)
    (h : IsDriveId input) (x : String) : ¬ Marked (q :: ms) input x := by
  rintro ⟨⟨u, v, t, hs, hv, -, -⟩, -, -⟩
  cases hv with
  | @cons _ c _ v hc _ =>
    have hmem : c ∈ input.toList := by
      rw [hs]
      simp
    have hid := h.2 c hmem
    rw [hq c hc] at hid
    cases hid

theorem not_isIdChar {c d : Char} (h : (c == d) = true) (hd : isIdChar d = false) : isIdChar c = false := by
  rwa [beq_iff_eq.1 h]

/-- An id is read as itself. -/
theorem extractDriveId_of_isDriveId (h : IsDriveId id) : extractDriveId id = id := by
  have hslash : ∀ c, (c == '/') = true → isIdChar c = false := fun c hc => not_isIdChar hc (by decide)
  have hquery : ∀ c, (c == '?' || c == '&') = true → isIdChar c = false := by
    intro c hc
    rcases Bool.or_eq_true_iff.1 hc with hc | hc
    · exact not_isIdChar hc (by decide)
    · exact not_isIdChar hc (by decide)
  have hpath : ∀ ms x, ¬ Marked ((· == '/') :: ms) id x := fun _ => not_marked_of_isDriveId hslash h
  exact extractDriveId_iff.2 (.inr ⟨hpath _, .inr ⟨hpath _, .inr ⟨not_marked_of_isDriveId hquery h, rfl⟩⟩⟩)

theorem extractDriveId_idem (input : String) : extractDriveId (extractDriveId input) = extractDriveId input := by
  rcases extractDriveId_cases input with h | h
  · rw [h, h]
  · exact extractDriveId_of_isDriveId h

/-! ### The links of Drive -/

theorem forall₂_literal (text : String) :
    List.Forall₂ (fun (p : Char → Bool) c => p c = true) (literal text) text.toList := by
  unfold literal
  induction text.toList with
  | nil => exact .nil
  | cons c text ih => exact .cons (beq_self_eq_true c) ih

def folderLink (id rest : String) : String := "https://drive.google.com/drive/folders/" ++ id ++ rest

def openLink (id rest : String) : String := "https://drive.google.com/open?id=" ++ id ++ rest

/-- A link, with what stands before its mark. -/
theorem toList_link {front : String} {u v : List Char} (hfront : front.toList = u ++ v) (id rest : String) :
    (front ++ id ++ rest).toList = u ++ v ++ id.toList ++ rest.toList := by
  rw [String.toList_append, String.toList_append, hfront]

theorem marked_shareLink (h : IsDriveId id) : Marked fileRe (shareLink id) id := by
  have htext : (shareLink id).toList = _ := toList_link
    (u := "https://drive.google.com".toList) (v := "/file/d/".toList) (by decide) id "/view"
  have hend : ∀ c, "/view".toList.head? = some c → isIdChar c = false := by
    rintro c ⟨⟩
    decide
  rw [Marked, htext]
  exact .behind (forall₂_literal _) h.1 h.2 hend (by decide)

theorem shareLink_ne (id : String) : shareLink id ≠ id := by
  intro h
  have htext : (shareLink id).toList = _ := toList_link (List.append_nil _).symm id "/view"
  have hlen := congrArg List.length htext
  have hview : "/view".toList.length = 5 := by decide
  rw [h, List.length_append, List.length_append, hview] at hlen
  generalize ("https://drive.google.com/file/d/".toList ++ []).length = n at hlen
  omega

/-- The link of an uploaded file is read as its id exactly if the id is one of the alphabet of Drive. -/
theorem extractDriveId_shareLink : extractDriveId (shareLink id) = id ↔ IsDriveId id := by
  refine ⟨fun h => ?_, fun h => extractDriveId_iff.2 (.inl (marked_shareLink h))⟩
  rcases extractDriveId_cases (shareLink id) with hself | hid
  · exact absurd (hself.symm.trans h) (shareLink_ne id)
  · rwa [h] at hid

/-- Nothing of a text without further slashes is behind the mark of a file. -/
theorem not_marked_of_slash {front : String} (ms : List (Char → Bool)) (id rest : String)
    (hid : IsDriveId id) (hrest : '/' ∉ rest.toList)
    (hnone : ∀ i ≤ front.toList.length, fits (ms ++ [(· == '/')]) (front.toList.drop i) = false) (x : String) :
    ¬ Marked (ms ++ [(· == '/')]) (front ++ id ++ rest) x := by
  rw [Marked, String.toList_append, String.toList_append, List.append_assoc]
  refine not_firstRun (fun c hc => ?_) hnone
  refine Bool.eq_false_iff.2 fun heq => ?_
  rw [beq_iff_eq.1 heq] at hc
  rcases List.mem_append.1 hc with hc | hc
  · exact absurd (hid.2 _ hc) (by decide)
  · exact hrest hc

/-- A link to a folder is read as the id of the folder, whatever options are behind it. -/
theorem extractDriveId_folderLink {rest : String} (h : IsDriveId id) (hrest : '/' ∉ rest.toList)
    (hend : ∀ c, rest.toList.head? = some c → isIdChar c = false) : extractDriveId (folderLink id rest) = id := by
  have htext : (folderLink id rest).toList = _ := toList_link
    (u := "https://drive.google.com/drive".toList) (v := "/folders/".toList) (by decide) id rest
  have hfile : ∀ x, ¬ Marked fileRe (folderLink id rest) x :=
    not_marked_of_slash (literal "/file/d") id rest h hrest (by decide)
  refine extractDriveId_iff.2 (.inr ⟨hfile, .inl ?_⟩)
  rw [Marked, htext]
  exact .behind (forall₂_literal _) h.1 h.2 hend (by decide)

theorem extractDriveId_openLink {rest : String} (h : IsDriveId id) (hrest : '/' ∉ rest.toList)
    (hend : ∀ c, rest.toList.head? = some c → isIdChar c = false) : extractDriveId (openLink id rest) = id := by
  have htext : (openLink id rest).toList = _ := toList_link
    (u := "https://drive.google.com/open".toList) (v := "?id=".toList) (by decide) id rest
  have hfile : ∀ x, ¬ Marked fileRe (openLink id rest) x :=
    not_marked_of_slash (literal "/file/d") id rest h hrest (by decide)
  have hfolder : ∀ x, ¬ Marked folderRe (openLink id rest) x :=
    not_marked_of_slash (literal "/folders") id rest h hrest (by decide)
  refine extractDriveId_iff.2 (.inr ⟨hfile, .inr ⟨hfolder, .inl ?_⟩⟩)
  rw [Marked, htext]
  exact .behind (.cons rfl (forall₂_literal "id=")) h.1 h.2 hend (by decide)

/-- Reading an id twice is reading it once, and the links of Drive are read as the ids in them. -/
theorem links_read_back : (∀ input, extractDriveId (extractDriveId input) = extractDriveId input) ∧
    (∀ id, extractDriveId (shareLink id) = id ↔ IsDriveId id) ∧
    ∀ id rest, IsDriveId id → '/' ∉ rest.toList →
      (∀ c, rest.toList.head? = some c → isIdChar c = false) →
      extractDriveId (folderLink id rest) = id ∧ extractDriveId (openLink id rest) = id :=
  ⟨extractDriveId_idem, fun _ => extractDriveId_shareLink,
    fun _ _ hid hrest hend =>
      ⟨extractDriveId_folderLink hid hrest hend, extractDriveId_openLink hid hrest hend⟩⟩

theorem shared_folder_read_back : extractDriveId (folderLink "a-B_9" "?usp=sharing") = "a-B_9" := by
  have hend : ∀ c, "?usp=sharing".toList.head? = some c → isIdChar c = false := by
    rintro c ⟨⟩
    decide
  exact (links_read_back.2.2 "a-B_9" "?usp=sharing" (by decide) (by decide) hend).1

/-! ### The use cases -/

inductive Call
  | sendHtml (chat : ChatId) (text : String)
  | editHtml (chat : ChatId) (msg : MessageId) (text : String)
  | copy (sourceId targetFolderId : String)
  | count (folderId : String)
  | remove (fileId : String)
deriving DecidableEq

abbrev Call.Answer : Call → Type
  | sendHtml .. => Result MessageId
  | editHtml .. | remove _ => Result Unit
  | copy .. => Result String
  | count _ => Result CountResult

/-- The call is one to Drive. -/
def Call.onDrive : Call → Bool
  | sendHtml .. | editHtml .. => false
  | copy .. | count _ | remove _ => true

abbrev Action (α : Type) := Prog Call Call.Answer α

/-- A heading with a quotation under it. -/
def quotation (title text : String) : String :=
  "<b><u>" ++ title ++ "</u></b>\n<blockquote>" ++ text ++ "</blockquote>"

def identified (title id : String) : String :=
  "<b><u>" ++ title ++ "</u></b>\n<b>Drive id:</b> <code>" ++ escapeHtml.escape id ++ "</code>"

def counted (F : Fmt) (c : CountResult) : String :=
  "<b><u>Drive Count</u></b>\n<b>Files:</b> <code>" ++ toString c.files ++ "</code>\n<b>Folders:</b> <code>" ++
    toString c.folders ++ "</code>\n<b>Total:</b> <code>" ++ formatBytes F c.totalBytes ++ "</code>"

/-- A progress message, the operation, and the message edited to tell how it ended. -/
def reported {α : Type} (chat : ChatId) (started failed : String) (operation : Action (Result α))
    (done : α → String) : Action (Result α) := do
  let progress : Result MessageId ← ask (Call.sendHtml chat started)
  match progress with
  | .error err => return .error err
  | .ok msg => do
    let res ← operation
    match res with
    | .error err => do
      let _ ← ask (Call.editHtml chat msg (quotation failed (escapeHtml.escape err.message)))
      return .error err
    | .ok a => do
      let _ ← ask (Call.editHtml chat msg (done a))
      return .ok a

/-- `CloneDriveResource::execute`. -/
def clone (targetFolderId : String) (request : DriveRequest) : Action (Result String) :=
  if request.sourceUrl.isEmpty then return .error ⟨.invalidArgument, "clone: empty source URL"⟩
  else if targetFolderId.isEmpty then
    return .error ⟨.invalidConfiguration, "clone: target folder id not configured"⟩
  else
    let sourceId := extractDriveId request.sourceUrl
    reported request.chat (quotation "Cloning" "Drive copy started.") "Clone Failed"
      (ask (Call.copy sourceId targetFolderId)) (identified "Cloned")

/-- `CountDriveResource::execute`. -/
def count (F : Fmt) (request : DriveRequest) : Action (Result CountResult) :=
  if request.sourceUrl.isEmpty then return .error ⟨.invalidArgument, "count: empty source URL"⟩
  else
    let folderId := extractDriveId request.sourceUrl
    reported request.chat (quotation "Counting" "Drive folder scan started.") "Count Failed"
      (ask (Call.count folderId)) (counted F)

/-- `DeleteDriveResource::execute`, which sends no progress message. -/
def delete (request : DriveRequest) : Action (Result Unit) :=
  if request.sourceUrl.isEmpty then return .error ⟨.invalidArgument, "delete: empty source URL"⟩
  else
    let fileId := extractDriveId request.sourceUrl
    do
      let removed : Result Unit ← ask (Call.remove fileId)
      match removed with
      | .error err => do
        let _ ← ask (Call.sendHtml request.chat (quotation "Delete Failed" (escapeHtml.escape err.message)))
        return .error err
      | .ok _ => do
        let _ ← ask (Call.sendHtml request.chat (identified "Deleted" fileId))
        return .ok ()

/-! ### What they do -/

/-- The calls to Drive among the calls of a log. -/
def driveCalls (log : List (Σ c : Call, c.Answer)) : List Call := (log.map Sigma.fst).filter Call.onDrive

/-- The first call is a message that could not be sent. -/
def Unannounced (log : List (Σ c : Call, c.Answer)) : Prop :=
  ∃ chat text err rest, log = ⟨.sendHtml chat text, .error err⟩ :: rest

/-- A message or an edit goes to `chat`. -/
def Call.InChat (chat : ChatId) : Call → Prop
  | sendHtml place _ | editHtml place .. => place = chat
  | copy .. | count _ | remove _ => True

section Dialogs

variable {α : Type} {chat : ChatId} {started failed target : String} {c : Call} {done : α → String}
  {request : DriveRequest} {F : Fmt} {log : List (Σ c : Call, c.Answer)} {operation : Action (Result α)}

theorem reported_only (h : operation.Only (Call.InChat chat)) :
    (reported chat started failed operation done).Only (Call.InChat chat) := by
  refine .ask_bind rfl fun progress => ?_
  cases progress with
  | error err => exact .pure _
  | ok msg =>
    refine h.bind fun res => ?_
    cases res with
    | error err => exact .ask_bind rfl fun _ => .pure _
    | ok a => exact .ask_bind rfl fun _ => .pure _

theorem clone_only : (clone target request).Only (Call.InChat request.chat) := by
  unfold clone
  split_ifs
  · exact .pure _
  · exact .pure _
  · exact reported_only (.ask trivial)

theorem count_only : (count F request).Only (Call.InChat request.chat) := by
  unfold count
  split_ifs
  · exact .pure _
  · exact reported_only (.ask trivial)

theorem delete_only : (delete request).Only (Call.InChat request.chat) := by
  unfold delete
  split_ifs
  · exact .pure _
  · refine .ask_bind trivial fun removed => ?_
    cases removed with
    | error err => exact .ask_bind rfl fun _ => .pure _
    | ok _ => exact .ask_bind rfl fun _ => .pure _

@[simp] theorem driveCalls_append (log log' : List (Σ c : Call, c.Answer)) :
    driveCalls (log ++ log') = driveCalls log ++ driveCalls log' := by
  simp [driveCalls]

theorem driveCalls_cons_message {c : Call} {r : c.Answer} (hc : c.onDrive = false)
    (log : List (Σ c : Call, c.Answer)) : driveCalls (⟨c, r⟩ :: log) = driveCalls log := by
  simp [driveCalls, hc]

/-- The operation is called once, unless the progress message could not be sent. -/
theorem reported_dialog {res : Result α} {calls : List Call}
    (hop : ∀ log res, operation.Dialog log res → driveCalls log = calls)
    (h : (reported chat started failed operation done).Dialog log res) :
    driveCalls log = calls ∨ driveCalls log = [] ∧ Unannounced log := by
  obtain ⟨progress, log, rfl, hrest⟩ := h.ask_bind_inv
  cases progress with
  | error err =>
    obtain ⟨rfl, rfl⟩ := hrest.pure_inv
    exact .inr ⟨rfl, _, _, _, _, rfl⟩
  | ok msg =>
    obtain ⟨log₁, log₂, r, rfl, h₁, h₂⟩ := hrest.bind_inv
    have hsilent : driveCalls log₂ = [] := by
      cases r with
      | error err =>
        obtain ⟨_, log₃, rfl, h₃⟩ := h₂.ask_bind_inv
        obtain ⟨rfl, rfl⟩ := h₃.pure_inv
        rfl
      | ok a =>
        obtain ⟨_, log₃, rfl, h₃⟩ := h₂.ask_bind_inv
        obtain ⟨rfl, rfl⟩ := h₃.pure_inv
        rfl
    rw [driveCalls_cons_message rfl, driveCalls_append, hsilent, List.append_nil]
    exact .inl (hop _ _ h₁)

theorem ask_dialog {c : Call} {r : c.Answer} (hc : c.onDrive = true) (h : (ask c : Action c.Answer).Dialog log r) :
    driveCalls log = [c] := by
  rw [h.ask_inv]
  simp [driveCalls, hc]

theorem clone_dialog {res : Result String} (h : (clone target request).Dialog log res) :
    driveCalls log = [] ∧ (request.sourceUrl = "" ∨ target = "" ∨ Unannounced log) ∨
      driveCalls log = [.copy (extractDriveId request.sourceUrl) target] ∧ request.sourceUrl ≠ "" ∧
        target ≠ "" := by
  unfold clone at h
  split_ifs at h with hurl htarget
  · obtain ⟨rfl, rfl⟩ := h.pure_inv
    exact .inl ⟨rfl, .inl (String.isEmpty_iff.1 hurl)⟩
  · obtain ⟨rfl, rfl⟩ := h.pure_inv
    exact .inl ⟨rfl, .inr (.inl (String.isEmpty_iff.1 htarget))⟩
  · rw [String.isEmpty_iff] at hurl htarget
    rcases reported_dialog (fun log res h => ask_dialog rfl h) h with hcall | ⟨hnone, hfail⟩
    · exact .inr ⟨hcall, hurl, htarget⟩
    · exact .inl ⟨hnone, .inr (.inr hfail)⟩

theorem count_dialog {res : Result CountResult} (h : (count F request).Dialog log res) :
    driveCalls log = [] ∧ (request.sourceUrl = "" ∨ Unannounced log) ∨
      driveCalls log = [.count (extractDriveId request.sourceUrl)] ∧ request.sourceUrl ≠ "" := by
  unfold count at h
  split_ifs at h with hurl
  · obtain ⟨rfl, rfl⟩ := h.pure_inv
    exact .inl ⟨rfl, .inl (String.isEmpty_iff.1 hurl)⟩
  · rw [String.isEmpty_iff] at hurl
    rcases reported_dialog (fun log res h => ask_dialog rfl h) h with hcall | ⟨hnone, hfail⟩
    · exact .inr ⟨hcall, hurl⟩
    · exact .inl ⟨hnone, .inr hfail⟩

theorem delete_dialog {res : Result Unit} (h : (delete request).Dialog log res) :
    driveCalls log = [] ∧ request.sourceUrl = "" ∨
      driveCalls log = [.remove (extractDriveId request.sourceUrl)] ∧ request.sourceUrl ≠ "" := by
  unfold delete at h
  split_ifs at h with hurl
  · obtain ⟨rfl, rfl⟩ := h.pure_inv
    exact .inl ⟨rfl, String.isEmpty_iff.1 hurl⟩
  · rw [String.isEmpty_iff] at hurl
    obtain ⟨removed, log₁, rfl, h₁⟩ := h.ask_bind_inv
    refine .inr ⟨?_, hurl⟩
    cases removed with
    | error err =>
      obtain ⟨_, log₂, rfl, h₂⟩ := h₁.ask_bind_inv
      obtain ⟨rfl, rfl⟩ := h₂.pure_inv
      rfl
    | ok _ =>
      obtain ⟨_, log₂, rfl, h₂⟩ := h₁.ask_bind_inv
      obtain ⟨rfl, rfl⟩ := h₂.pure_inv
      rfl

end Dialogs

end Cmlb.DriveResource
