import Cmlb.Application.DriveResource
import Cmlb.Lib.Layers
import Cmlb.Presentation.Privileges

/-!
# From a message to Drive

`wired` puts the use cases for Drive below the handlers of `/clone`, `/count` and `/del`, as `main` does, and
`NewMessage.handle` is interpreted with it. No other handler makes their calls (`handler_free`), so what a
message does on Drive is at most one call, for the id that the arguments are read as, and it is made for
every accepted command whose announcement could be sent (`NewMessage.drive_calls`).
-/

namespace Cmlb

open Prog

/-- The call of a use case for Drive. -/
def Port.forDrive : Port → Bool
  | cloneResource _ | countResource _ | deleteResource _ => true
  | _ => false

/-! ### The other handlers -/

namespace CommandDispatcher

/-- It is no call of a use case for Drive. -/
abbrev Free (c : Port) : Prop := c.forDrive = false

theorem command_of_forDrive {c : Port} (h : c.forDrive = true) :
    ∃ name ∈ ["clone", "count", "del"], c.command = some name := by
  cases c with
  | cloneResource request => exact ⟨"clone", by decide, rfl⟩
  | countResource request => exact ⟨"count", by decide, rfl⟩
  | deleteResource request => exact ⟨"del", by decide, rfl⟩
  | _ => cases h

theorem usesOf_drive : ∀ e ∈ commands, e.name ∉ ["clone", "count", "del"] →
    ∀ name ∈ ["clone", "count", "del"], name ∉ usesOf e.name := by
  decide

theorem refuse_free (req : CommandRequest) (html : Html) (code : ErrorCode) (message : String) :
    (refuse req html code message).Only Free :=
  .ask_bind rfl fun _ => .pure _

/-- The handlers but three make no call of a use case for Drive. -/
theorem handler_free {e : Entry} (he : e ∈ commands) (hname : e.name ∉ ["clone", "count", "del"])
    (A : Authority) (req : CommandRequest) : (e.handler (this A) req).Only Free := by
  refine (handler_own he A req).mono fun c hc => Bool.eq_false_iff.2 fun hdrive => ?_
  obtain ⟨name, hmem, hcommand⟩ := command_of_forDrive hdrive
  exact usesOf_drive e he hname name hmem (hc.1 name hcommand)

end CommandDispatcher

/-! ### The use cases below them -/

namespace DriveResource

open CommandDispatcher (Free)

/-- The use cases in the place of their calls. The target of `/clone` is the folder that uploads go to. -/
def wired (F : Fmt) (targetFolderId : String) :
    (c : Port) → Prog (Call ⊕ Port) (Sum.elim Call.Answer Port.Answer) c.Answer
  | .cloneResource request => (clone targetFolderId request).embed >>= fun res => .pure (discard res)
  | .countResource request => (count F request).embed >>= fun res => .pure (discard res)
  | .deleteResource request => (delete request).embed
  | c => ask (Sum.inr c)

abbrev Log := List (Σ c : Call ⊕ Port, Sum.elim Call.Answer Port.Answer c)

def callsToDrive (log : Log) : List Call := (log.filterMap fun e => e.1.getLeft?).filter Call.onDrive

/-- The first call is a message of a use case that could not be sent. -/
def Unsent (log : Log) : Prop := ∃ chat text err rest, log = ⟨.inl (.sendHtml chat text), .error err⟩ :: rest

variable {F : Fmt} {target : String} {log : Log} {α β : Type}

theorem callsToDrive_embed (log : List (Σ c : Call, c.Answer)) :
    callsToDrive (log.map fun x => ⟨.inl x.1, x.2⟩) = driveCalls log := by
  rw [callsToDrive, driveCalls, List.filterMap_map]
  exact congrArg _ (congrFun (List.filterMap_eq_map (f := Sigma.fst)) log)

theorem Unannounced.unsent {log : List (Σ c : Call, c.Answer)} (h : Unannounced log) :
    Unsent (log.map fun x => ⟨.inl x.1, x.2⟩) := by
  obtain ⟨chat, text, err, rest, rfl⟩ := h
  exact ⟨chat, text, err, _, rfl⟩

theorem wired_free (c : Port) (hc : Free c) : (wired F target c).Only fun c => c.isRight = true := by
  cases c with
  | cloneResource request | countResource request | deleteResource request => cases hc
  | _ => exact .ask rfl

/-- A program without calls for Drive makes none. -/
theorem silent {p : Cmlb.Action α} {a : α} (hp : p.Only Free) (h : (p.interp (wired F target)).Dialog log a) :
    callsToDrive log = [] := by
  have hright := (hp.interp wired_free).dialog h
  have hnone : log.filterMap (fun e => e.1.getLeft?) = [] := by
    refine List.filterMap_eq_nil_iff.2 fun e he => ?_
    exact Sum.getLeft?_eq_none_iff.2 (hright e he)
  rw [callsToDrive, hnone, List.filter_nil]

theorem ask_interp_dialog {c : Port} {a : c.Answer}
    (h : ((ask c : Cmlb.Action c.Answer).interp (wired F target)).Dialog log a) :
    (wired F target c).Dialog log a := by
  obtain ⟨log₁, log₂, r, rfl, h₁, h₂⟩ := h.bind_inv
  obtain ⟨rfl, rfl⟩ := h₂.pure_inv
  rw [List.append_nil]
  exact h₁

theorem embed_dialog {p : Action α} {g : α → β} {b : β}
    (h : ((p.embed : Prog (Call ⊕ Port) (Sum.elim Call.Answer Port.Answer) α) >>=
      fun a => .pure (g a)).Dialog log b) :
    ∃ log₀ a, log = log₀.map (fun x => ⟨.inl x.1, x.2⟩) ∧ p.Dialog log₀ a := by
  obtain ⟨log₁, log₂, a, rfl, h₁, h₂⟩ := h.bind_inv
  obtain ⟨rfl, rfl⟩ := h₂.pure_inv
  obtain ⟨log₀, rfl, h₀⟩ := h₁.embed_inv
  exact ⟨log₀, a, List.append_nil _, h₀⟩

/-! ### Commands for Drive -/

/-- The command asks for the call to Drive, and may. -/
def Asks (A : Authority) (target : String) (req : CommandRequest) : Call → Prop
  | .copy id folder => CommandDispatcher.resolve req.command = "clone" ∧
      A.canRun req.sender req.chat .user = true ∧ req.arguments ≠ "" ∧ id = extractDriveId req.arguments ∧
      folder = target ∧ target ≠ ""
  | .count id => CommandDispatcher.resolve req.command = "count" ∧ A.canRun req.sender req.chat .user = true ∧
      req.arguments ≠ "" ∧ id = extractDriveId req.arguments
  | .remove id => CommandDispatcher.resolve req.command = "del" ∧ A.canRun req.sender req.chat .admin = true ∧
      req.arguments ≠ "" ∧ id = extractDriveId req.arguments
  | _ => False

/-- The log has the one call to Drive that is asked for. Only where a progress message could not be sent is
there none, which does not happen to `/del`. -/
def Done (asks : Call → Prop) (log : Log) : Prop :=
  (callsToDrive log = [] ∧ ∀ c, asks c → Unsent log ∧ ∀ id, c ≠ .remove id) ∨
    ∃ c, callsToDrive log = [c] ∧ asks c

theorem Done.congr {asks asks' : Call → Prop} (h : Done asks log) (hiff : ∀ c, asks c ↔ asks' c) :
    Done asks' log := by
  rcases h with ⟨hnone, hall⟩ | ⟨c, hcall, hc⟩
  · exact .inl ⟨hnone, fun c hc => hall c ((hiff c).2 hc)⟩
  · exact .inr ⟨c, hcall, (hiff c).1 hc⟩

section Handlers

variable {A : Authority} {req : CommandRequest} {res : Result Unit}

theorem clone_drive (this : This) (h : ((CommandDispatcher.clone this req).interp (wired F target)).Dialog log res) :
    callsToDrive log = [] ∧ (req.arguments = "" ∨ target = "" ∨ Unsent log) ∨
      callsToDrive log = [.copy (extractDriveId req.arguments) target] ∧ req.arguments ≠ "" ∧ target ≠ "" := by
  unfold CommandDispatcher.clone CommandDispatcher.withArgument at h
  split_ifs at h with hempty
  · exact .inl ⟨silent (CommandDispatcher.refuse_free ..) h, .inl (String.isEmpty_iff.1 hempty)⟩
  · obtain ⟨log₀, r, rfl, h₀⟩ := embed_dialog (ask_interp_dialog h)
    rw [callsToDrive_embed]
    rcases clone_dialog h₀ with ⟨hnone, harg | htarget | hfail⟩ | hcall
    · exact .inl ⟨hnone, .inl harg⟩
    · exact .inl ⟨hnone, .inr (.inl htarget)⟩
    · exact .inl ⟨hnone, .inr (.inr hfail.unsent)⟩
    · exact .inr hcall

theorem count_drive (this : This) (h : ((CommandDispatcher.count this req).interp (wired F target)).Dialog log res) :
    callsToDrive log = [] ∧ (req.arguments = "" ∨ Unsent log) ∨
      callsToDrive log = [.count (extractDriveId req.arguments)] ∧ req.arguments ≠ "" := by
  unfold CommandDispatcher.count CommandDispatcher.withArgument at h
  split_ifs at h with hempty
  · exact .inl ⟨silent (CommandDispatcher.refuse_free ..) h, .inl (String.isEmpty_iff.1 hempty)⟩
  · obtain ⟨log₀, r, rfl, h₀⟩ := embed_dialog (ask_interp_dialog h)
    rw [callsToDrive_embed]
    rcases count_dialog h₀ with ⟨hnone, harg | hfail⟩ | hcall
    · exact .inl ⟨hnone, .inl harg⟩
    · exact .inl ⟨hnone, .inr hfail.unsent⟩
    · exact .inr hcall

theorem del_drive (this : This) (h : ((CommandDispatcher.del this req).interp (wired F target)).Dialog log res) :
    callsToDrive log = [] ∧ req.arguments = "" ∨
      callsToDrive log = [.remove (extractDriveId req.arguments)] ∧ req.arguments ≠ "" := by
  unfold CommandDispatcher.del CommandDispatcher.withArgument at h
  split_ifs at h with hempty
  · exact .inl ⟨silent (CommandDispatcher.refuse_free ..) h, String.isEmpty_iff.1 hempty⟩
  · obtain ⟨log₀, rfl, h₀⟩ := (ask_interp_dialog h).embed_inv
    rw [callsToDrive_embed]
    exact delete_dialog h₀

/-- What `dispatch` does with a command that is registered. -/
theorem dispatch_found {e : Entry} (hfind : CommandDispatcher.find (CommandDispatcher.resolve req.command) = some e) :
    ∃ html message, CommandDispatcher.dispatch A req = if A.canRun req.sender req.chat e.required then
      e.handler (CommandDispatcher.this A) req
    else CommandDispatcher.refuse req html .permissionDenied message := by
  unfold CommandDispatcher.dispatch
  simp only [hfind]
  exact ⟨_, _, rfl⟩

/-- A command that is not one of the three, or that its sender may not run, does nothing on Drive. -/
theorem dispatch_free (h : ∀ e, CommandDispatcher.find (CommandDispatcher.resolve req.command) = some e →
    A.canRun req.sender req.chat e.required = true → e.name ∉ ["clone", "count", "del"]) :
    (CommandDispatcher.dispatch A req).Only Free := by
  cases hfind : CommandDispatcher.find (CommandDispatcher.resolve req.command) with
  | none =>
    unfold CommandDispatcher.dispatch
    simp only [hfind]
    exact CommandDispatcher.refuse_free ..
  | some e =>
    obtain ⟨html, message, heq⟩ := dispatch_found (A := A) hfind
    rw [heq]
    split_ifs with hrun
    · exact CommandDispatcher.handler_free (List.mem_of_find?_eq_some hfind) (h e hfind hrun) _ _
    · exact CommandDispatcher.refuse_free ..

theorem name_of_find {name : String} {e : Entry} (h : CommandDispatcher.find name = some e) : e.name = name := by
  have hname := List.find?_some h
  simpa using hname

theorem Asks.found {c : Call} (h : Asks A target req c) : ∃ e, CommandDispatcher.find
    (CommandDispatcher.resolve req.command) = some e ∧ A.canRun req.sender req.chat e.required = true ∧
      e.name ∈ ["clone", "count", "del"] := by
  cases c with
  | sendHtml | editHtml => exact h.elim
  | copy id folder | count id | remove id =>
    rw [h.1]
    exact ⟨_, rfl, h.2.1, by decide⟩

section Asked

variable (this : This)

theorem clone_done (hname : CommandDispatcher.resolve req.command = "clone")
    (hrun : A.canRun req.sender req.chat .user = true)
    (h : ((CommandDispatcher.clone this req).interp (wired F target)).Dialog log res) :
    Done (Asks A target req) log := by
  rcases clone_drive this h with ⟨hnone, hwhy⟩ | ⟨hcall, harg, htarget⟩
  · refine .inl ⟨hnone, fun c hc => ?_⟩
    cases c with
    | copy id folder =>
      obtain ⟨-, -, harg, -, -, htarget⟩ := hc
      rcases hwhy with hno | hno | hunsent
      · exact absurd hno harg
      · exact absurd hno htarget
      · exact ⟨hunsent, by simp⟩
    | count id | remove id => exact absurd (hname.symm.trans hc.1) (by decide)
    | sendHtml | editHtml => exact hc.elim
  · exact .inr ⟨_, hcall, hname, hrun, harg, rfl, rfl, htarget⟩

theorem count_done (hname : CommandDispatcher.resolve req.command = "count")
    (hrun : A.canRun req.sender req.chat .user = true)
    (h : ((CommandDispatcher.count this req).interp (wired F target)).Dialog log res) :
    Done (Asks A target req) log := by
  rcases count_drive this h with ⟨hnone, hwhy⟩ | ⟨hcall, harg⟩
  · refine .inl ⟨hnone, fun c hc => ?_⟩
    cases c with
    | count id =>
      obtain ⟨-, -, harg, -⟩ := hc
      rcases hwhy with hno | hunsent
      · exact absurd hno harg
      · exact ⟨hunsent, by simp⟩
    | copy id folder | remove id => exact absurd (hname.symm.trans hc.1) (by decide)
    | sendHtml | editHtml => exact hc.elim
  · exact .inr ⟨_, hcall, hname, hrun, harg, rfl⟩

/-- `/del` has no announcement that could fail. -/
theorem del_done (hname : CommandDispatcher.resolve req.command = "del")
    (hrun : A.canRun req.sender req.chat .admin = true)
    (h : ((CommandDispatcher.del this req).interp (wired F target)).Dialog log res) :
    Done (Asks A target req) log := by
  rcases del_drive this h with ⟨hnone, hno⟩ | ⟨hcall, harg⟩
  · refine .inl ⟨hnone, fun c hc => ?_⟩
    cases c with
    | remove id => exact absurd hno hc.2.2.1
    | copy id folder | count id => exact absurd (hname.symm.trans hc.1) (by decide)
    | sendHtml | editHtml => exact hc.elim
  · exact .inr ⟨_, hcall, hname, hrun, harg, rfl⟩

end Asked

/-- A command does on Drive what it asks for, and nothing else. -/
theorem dispatch_drive (h : ((CommandDispatcher.dispatch A req).interp (wired F target)).Dialog log res) :
    Done (Asks A target req) log := by
  by_cases hfree : ∀ e, CommandDispatcher.find (CommandDispatcher.resolve req.command) = some e →
      A.canRun req.sender req.chat e.required = true → e.name ∉ ["clone", "count", "del"]
  · refine .inl ⟨silent (dispatch_free hfree) h, fun c hc => ?_⟩
    obtain ⟨e, hfind, hrun, hname⟩ := hc.found
    exact absurd hname (hfree e hfind hrun)
  · push Not at hfree
    obtain ⟨e, hfind, hrun, hname⟩ := hfree
    rw [name_of_find hfind] at hname
    obtain ⟨html, message, heq⟩ := dispatch_found (A := A) hfind
    rw [heq, if_pos hrun] at h
    simp only [List.mem_cons, List.not_mem_nil, or_false] at hname
    rcases hname with hname | hname | hname
    all_goals
      rw [hname] at hfind
      cases hfind
    · exact clone_done (CommandDispatcher.this A) hname hrun h
    · exact count_done (CommandDispatcher.this A) hname hrun h
    · exact del_done (CommandDispatcher.this A) hname hrun h

/-! ### Where the messages go -/

variable {chat : ChatId} {user : UserId}

/-- The call of a use case or of a handler is made in the chat, for the user. -/
def OnBehalf (A : Authority) (user : UserId) (chat : ChatId) : Call ⊕ Port → Prop :=
  Sum.elim (Call.InChat chat) (Port.OnBehalf A user chat)

theorem embed_onBehalf {p : Action α} (hp : p.Only (Call.InChat chat)) :
    (p.embed : Prog (Call ⊕ Port) (Sum.elim Call.Answer Port.Answer) α).Only (OnBehalf A user chat) :=
  hp.embed _

theorem wired_onBehalf (c : Port) (hc : c.OnBehalf A user chat) :
    (wired F target c).Only (OnBehalf A user chat) := by
  cases c with
  | cloneResource request =>
    obtain ⟨-, rfl⟩ := hc
    exact (embed_onBehalf clone_only).bind fun _ => .pure _
  | countResource request =>
    obtain ⟨-, rfl⟩ := hc
    exact (embed_onBehalf count_only).bind fun _ => .pure _
  | deleteResource request =>
    obtain ⟨-, rfl⟩ := hc
    exact embed_onBehalf delete_only
  | _ => exact .ask hc

end Handlers

end DriveResource

namespace NewMessage

open DriveResource

variable {A : Authority} {m : NewMessage}

/-- The text of the message is a command that asks for the call to Drive, and its sender may. -/
def Asks (A : Authority) (target : String) (m : NewMessage) (c : DriveResource.Call) : Prop :=
  ∃ text req, m.content = some text ∧
    CommandParser.parse (text.getD "") m.senderUser m.chat m.id = some req ∧ DriveResource.Asks A target req c

section Asks

variable {target : String} {text : Option String} {c : DriveResource.Call}

theorem not_asks_of_content (hcontent : m.content = none) : ¬ m.Asks A target c := by
  rintro ⟨text, req, hsome, -⟩
  rw [hcontent] at hsome
  cases hsome

theorem not_asks_of_parse (hcontent : m.content = some text)
    (hparse : CommandParser.parse (text.getD "") m.senderUser m.chat m.id = none) : ¬ m.Asks A target c := by
  rintro ⟨text', req, hsome, hreq, -⟩
  rw [hcontent] at hsome
  cases hsome
  rw [hparse] at hreq
  cases hreq

theorem asks_iff {req : CommandRequest} (hcontent : m.content = some text)
    (hparse : CommandParser.parse (text.getD "") m.senderUser m.chat m.id = some req) :
    m.Asks A target c ↔ DriveResource.Asks A target req c := by
  constructor
  · rintro ⟨text', req', hsome, hreq, hc⟩
    rw [hcontent] at hsome
    cases hsome
    rw [hparse] at hreq
    cases hreq
    exact hc
  · exact fun hc => ⟨text, req, hcontent, hparse, hc⟩

end Asks

/-- What a message does on Drive, whatever is answered: at most one call, which its text asks for with the id
that its arguments are read as, and its sender may make. A call that is asked for is made, unless it is
announced and the announcement could not be sent. All messages and edits go to the chat of the message. -/
theorem drive_calls (F : Fmt) (A : Authority) (target : String) (m : NewMessage) (log : DriveResource.Log)
    (h : ((m.handle A).interp (wired F target)).Dialog log ()) :
    Done (m.Asks A target) log ∧ ∀ e ∈ log, OnBehalf A m.senderUser m.chat e.1 := by
  constructor
  · unfold handle at h
    split at h
    · rename_i hcontent
      obtain ⟨rfl, -⟩ := h.pure_inv
      exact .inl ⟨rfl, fun c hc => absurd hc (not_asks_of_content hcontent)⟩
    · rename_i text hcontent
      split at h
      · rename_i hparse
        obtain ⟨rfl, -⟩ := h.pure_inv
        exact .inl ⟨rfl, fun c hc => absurd hc (not_asks_of_parse hcontent hparse)⟩
      · rename_i req hparse
        obtain ⟨log₀, hlog, hdrawn⟩ := h.interp_inv
        obtain ⟨log₁, log₂, res, rfl, h₁, h₂⟩ := hlog.bind_inv
        obtain ⟨rfl, -⟩ := h₂.pure_inv
        rw [List.append_nil] at hdrawn
        exact (dispatch_drive (h₁.interp hdrawn)).congr fun c => (asks_iff hcontent hparse).symm
  · exact ((handle_only A m).interp fun c hc => wired_onBehalf c hc.2).dialog h

/-- `/del abc`, which user 7 sends. -/
def delMessage : NewMessage := ⟨⟨-100⟩, some (.user 7), ⟨5⟩, some (some "/del abc")⟩

def delLog : DriveResource.Log :=
  [⟨.inl (.remove "abc"), .ok ()⟩, ⟨.inl (.sendHtml ⟨-100⟩ (identified "Deleted" "abc")), .ok ⟨9⟩⟩]

theorem delMessage_dialog :
    ((delMessage.handle ⟨⟨7⟩, [], []⟩).interp (wired Fmt.zero "t")).Dialog delLog () := by
  have hdelete : (delete ⟨"abc", ⟨7⟩, ⟨-100⟩⟩).Dialog
      [⟨.remove "abc", .ok ()⟩, ⟨.sendHtml ⟨-100⟩ (identified "Deleted" "abc"), .ok ⟨9⟩⟩] (.ok ()) := by
    have hid : extractDriveId "abc" = "abc" := extractDriveId_of_isDriveId (by decide)
    unfold delete
    rw [if_neg (by decide), hid]
    exact .call _ (.call _ (.pure _))
  have hport : (delMessage.handle ⟨⟨7⟩, [], []⟩).Dialog
      [⟨.deleteResource ⟨"abc", ⟨7⟩, ⟨-100⟩⟩, .ok ()⟩] () :=
    .call _ (.pure _)
  have hbelow : (wired Fmt.zero "t" (.deleteResource ⟨"abc", ⟨7⟩, ⟨-100⟩⟩)).Dialog delLog (.ok ()) :=
    hdelete.embed
  exact hport.interp (.cons hbelow .nil)

theorem delMessage_removes : callsToDrive delLog = [.remove "abc"] ∧
    ∃ c, callsToDrive delLog = [c] ∧ delMessage.Asks ⟨⟨7⟩, [], []⟩ "t" c := by
  refine ⟨rfl, ?_⟩
  obtain ⟨hdone, -⟩ := drive_calls Fmt.zero ⟨⟨7⟩, [], []⟩ "t" delMessage delLog delMessage_dialog
  rcases hdone with ⟨hnone, -⟩ | hcall
  · cases hnone
  · exact hcall

end NewMessage

end Cmlb
