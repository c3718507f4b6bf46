import Cmlb.Application.Startup
import Cmlb.Presentation.Authorization
import Cmlb.Presentation.CommandParser

/-!
# Who can make the bot do what

A text message reaches `CommandParser` and `CommandDispatcher` through the gateway, which gives it the
sender `0` unless a user sent it; a pressed button reaches `CallbackDispatcher`. `Port.least` is the
permission of the command that a call belongs to, and `Port.OnBehalf` says that a call is made for the
sender and the chat of the update. `handler_own` says, for every entry of the command table, which commands
the calls of its handler belong to; what they may be follows from it (`handler_within`).

`granted_by_first_seed` connects them with the runs of the process: who may do what is decided by the
configuration that seeded the database.
-/

namespace Cmlb

/-- The command that the call belongs to, where not everybody may run it. -/
def Port.command : Port → Option String
  | mirrorUrl _ => some "mirror"
  | leechUrl _ => some "leech"
  | cloneResource _ => some "clone"
  | countResource _ => some "count"
  | deleteResource _ => some "del"
  | cancelTask _ => some "cancel"
  | incompleteTasks => some "cancelall"
  | pauseTask _ => some "pause"
  | resumeTask _ => some "resume"
  | showStatus _ => some "status"
  | updateBotSettings _ => some "botsettings"
  | showStats => some "stats"
  | rssAdd _ | rssListForChat _ | rssRemove .. => some "rss"
  | fileExists _ | fileSize _ | sendFile .. => some "log"
  | sendHtml .. | sendHtmlWithKeyboard .. | editHtml .. | editHtmlWithKeyboard .. | deleteMessage ..
  | answerCallback .. | updateUserSettings .. | steadyNow => none

def Port.least (c : Port) : Permission :=
  ((c.command.bind CommandDispatcher.find).map (·.required)).getD .anyone

/-- The call is made for `user` in `chat`: messages go there and nowhere else, tasks and feeds are asked for
in their name, settings of other users are not touched, and those of the bot are only read. -/
def Port.OnBehalf (A : Authority) (user : UserId) (chat : ChatId) : Port → Prop
  | sendHtml place _ | sendHtmlWithKeyboard place .. | editHtml place .. | editHtmlWithKeyboard place ..
  | sendFile place .. | deleteMessage place _ | rssListForChat place => place = chat
  | mirrorUrl request | leechUrl request => request.user = user ∧ request.chat = chat
  | cloneResource request | countResource request | deleteResource request =>
    request.user = user ∧ request.chat = chat
  | cancelTask request | pauseTask request | resumeTask request => request.chat = chat
  | showStatus request => request.user = user ∧ request.chat = chat ∧
      request.includeAllUsers = A.canRun user chat .admin
  | updateUserSettings who _ => who = user
  | updateBotSettings mutate => mutate = id
  | rssAdd feed => feed.chat = chat
  | rssRemove _ requester place => requester = user ∧ place = chat
  | answerCallback .. | incompleteTasks | showStats | steadyNow | fileExists _ | fileSize _ => True

/-! ### Commands -/

namespace CommandDispatcher

open Prog

/-- What a handler registered under `p` does for the request. -/
def Within (A : Authority) (p : Permission) (req : CommandRequest) (c : Port) : Prop :=
  c.least.toNat ≤ p.toNat ∧ c.OnBehalf A req.sender req.chat

/-- A call that belongs to one of the commands `names` or to none, made for the request. -/
def Own (A : Authority) (names : List String) (req : CommandRequest) (c : Port) : Prop :=
  (∀ name, c.command = some name → name ∈ names) ∧ c.OnBehalf A req.sender req.chat

/-- The commands whose calls the handler of a command makes. -/
def usesOf : String → List String
  | "qbmirror" => ["mirror"]
  | "qbleech" => ["leech"]
  | "cancelall" => ["cancelall", "cancel"]
  | name => [name]

variable {A : Authority} {names : List String} {req : CommandRequest} {c : Port} {name : String}

theorem own_of_none (hc : c.command = none) (h : c.OnBehalf A req.sender req.chat) : Own A names req c := by
  refine ⟨fun name hname => ?_, h⟩
  rw [hc] at hname
  cases hname

theorem own_of_some (hc : c.command = some name) (hname : name ∈ names) (h : c.OnBehalf A req.sender req.chat) :
    Own A names req c := by
  refine ⟨fun n hn => ?_, h⟩
  rw [hc, Option.some.injEq] at hn
  rwa [← hn]

theorem own_self (hc : c.command = some name) (h : c.OnBehalf A req.sender req.chat) : Own A [name] req c :=
  own_of_some hc List.mem_cons_self h

theorem reply_own (html : Html) : (reply req html).Only (Own A names req) :=
  .ask_bind (own_of_none rfl rfl) fun _ => .pure _

theorem refuse_own (html : Html) (code : ErrorCode) (message : String) :
    (refuse req html code message).Only (Own A names req) :=
  .ask_bind (own_of_none rfl rfl) fun _ => .pure _

theorem withArgument_own {name form message : String} {execute : CommandRequest → Action (Result Unit)}
    (h : (execute req).Only (Own A names req)) (this : This) :
    (withArgument name form message execute this req).Only (Own A names req) := by
  unfold withArgument
  split_ifs
  · exact refuse_own ..
  · exact h

theorem onTask_own {name : String} {execute : TaskRequest → Action (Result Unit)}
    (h : ∀ taskId, (execute ⟨taskId, req.chat⟩).Only (Own A names req)) (this : This) :
    (onTask name execute this req).Only (Own A names req) := by
  unfold onTask
  extract_lets head
  split_ifs
  · exact refuse_own ..
  · exact h _

/-- The loop of `/cancelall` cancels in its own chat. -/
theorem cancelEach_own (tasks : List Task) (cancelled failed : Nat) :
    (cancelEach req.chat tasks cancelled failed).Only (Own A ["cancelall", "cancel"] req) := by
  induction tasks generalizing cancelled failed with
  | nil => exact .pure _
  | cons task rest ih =>
    unfold cancelEach
    split_ifs
    · exact ih ..
    · refine .ask_bind (own_of_some rfl (by decide) rfl) fun outcome => ?_
      cases outcome with
      | ok => exact ih ..
      | error => exact ih ..

theorem cancelall_own (this : This) : (cancelall this req).Only (Own A ["cancelall", "cancel"] req) := by
  refine Only.bind ?_ fun _ => .pure _
  refine .ask_bind (own_of_some rfl (by decide) trivial) fun incomplete => onOk_only fun tasks => ?_
  refine (cancelEach_own tasks 0 0).bind fun result => ?_
  exact .ask_bind (own_of_none rfl rfl) fun _ => .pure _

theorem log_own (this : This) : (log this req).Only (Own A ["log"] req) := by
  refine .ask_bind (own_self rfl trivial) fun found => ?_
  match found with
  | .error _ | .ok false => exact refuse_own ..
  | .ok true =>
    refine .ask_bind (own_self rfl trivial) fun size => ?_
    cases size with
    | error => exact refuse_own ..
    | ok bytes =>
      dsimp only
      split_ifs
      · exact refuse_own ..
      · exact .ask_bind (own_self rfl rfl) fun _ => .pure _

theorem rssRemove_own (tail : String) : (rssRemove req tail).Only (Own A ["rss"] req) := by
  unfold rssRemove
  extract_lets head
  split_ifs
  · exact refuse_own ..
  · split
    · exact refuse_own ..
    · exact .ask_bind (own_self rfl ⟨rfl, rfl⟩) fun removed => onOk_only fun _ => reply_own _

theorem rss_own (this : This) : (rss this req).Only (Own A ["rss"] req) := by
  unfold rss
  dsimp only
  split_ifs
  · unfold rssAdd
    split_ifs
    · exact refuse_own ..
    · exact .ask_bind (own_self rfl rfl) fun added => onOk_only fun _ => reply_own _
  · exact .ask_bind (own_self rfl rfl) fun feeds => onOk_only fun _ => reply_own _
  · exact rssRemove_own _
  · exact refuse_own ..

theorem ping_own (this : This) : (ping this req).Only (Own A names req) := by
  refine .ask_bind (own_of_none rfl trivial) fun start => .ask_bind (own_of_none rfl rfl) fun send => ?_
  refine onOk_only fun msg => .ask_bind (own_of_none rfl trivial) fun now => ?_
  exact .ask (own_of_none rfl rfl)

/-- Every handler makes calls of its commands only, and for its request. -/
theorem handler_own {e : Entry} (he : e ∈ commands) (A : Authority) (req : CommandRequest) :
    (e.handler (this A) req).Only (Own A (usesOf e.name) req) := by
  simp only [commands, List.mem_cons, List.not_mem_nil, or_false] at he
  rcases he with rfl | rfl | rfl | rfl | rfl | rfl | rfl | rfl | rfl | rfl | rfl | rfl | rfl | rfl | rfl |
    rfl | rfl | rfl | rfl | rfl | rfl
  -- /mirror, /qbmirror, /leech, /qbleech
  iterate 4
    dsimp only [mirror, qbmirror, leech, qbleech]
    refine withArgument_own ?_ (this A)
    exact .ask_bind (own_self rfl ⟨rfl, rfl⟩) fun _ => .pure _
  -- /clone, /count, /del
  iterate 3
    dsimp only [clone, count, del]
    refine withArgument_own ?_ (this A)
    exact .ask (own_self rfl ⟨rfl, rfl⟩)
  · dsimp only [cancel]
    refine onTask_own (fun _ => ?_) (this A)
    exact .ask (own_self rfl rfl)
  · exact cancelall_own (this A)
  -- /pause, /resume
  iterate 2
    dsimp only [pause, resume]
    refine onTask_own (fun _ => ?_) (this A)
    exact .ask (own_self rfl rfl)
  · exact .ask (own_self rfl ⟨rfl, rfl, rfl⟩)
  · exact .ask_bind (own_of_none rfl rfl) fun _ => onOk_only fun _ =>
      .ask_bind (own_of_none rfl rfl) fun _ => .pure _
  · exact .ask_bind (own_self rfl rfl) fun _ => onOk_only fun _ =>
      .ask_bind (own_of_none rfl rfl) fun _ => .pure _
  -- /help, /start
  iterate 2
    exact reply_own _
  · exact .ask_bind (own_self rfl trivial) fun _ => onOk_only fun _ => reply_own _
  · exact reply_own _
  · exact ping_own (this A)
  · exact log_own (this A)
  · exact rss_own (this A)

/-- The commands that a handler uses are registered under its permission, or a lower one. -/
theorem usesOf_required : ∀ e ∈ commands, ∀ name ∈ usesOf e.name,
    (((find name).map Entry.required).getD Permission.anyone).toNat ≤ e.required.toNat := by
  decide

/-- No handler goes beyond the permission it is registered under, and each acts for its request. -/
theorem handler_within {e : Entry} (he : e ∈ commands) (A : Authority) (req : CommandRequest) :
    (e.handler (this A) req).Only (Within A e.required req) := by
  refine (handler_own he A req).mono fun c hc => ⟨?_, hc.2⟩
  unfold Port.least
  cases hcommand : c.command with
  | none => exact Nat.zero_le _
  | some name => exact usesOf_required e he name (hc.1 name hcommand)

/-- The calls that `A` allows for the request. -/
def Allowed (A : Authority) (req : CommandRequest) (c : Port) : Prop :=
  A.canRun req.sender req.chat c.least = true ∧ c.OnBehalf A req.sender req.chat

theorem dispatch_allowed (A : Authority) (req : CommandRequest) : (dispatch A req).Only (Allowed A req) := by
  have hrefuse : ∀ html code message, (refuse req html code message).Only (Allowed A req) :=
    fun _ _ _ => .ask_bind ⟨decide_eq_true (Nat.zero_le _), rfl⟩ fun _ => .pure _
  unfold dispatch
  extract_lets name
  cases hfind : find name with
  | none => exact hrefuse ..
  | some e =>
    dsimp only
    split_ifs with hrun
    · refine (handler_within (List.mem_of_find?_eq_some hfind) A req).mono fun c hc => ?_
      exact ⟨Authority.canRun_mono hrun hc.1, hc.2⟩
    · exact hrefuse ..

end CommandDispatcher

/-! ### Callbacks -/

namespace CallbackDispatcher

open Prog

/-- What a pressed button does: it controls a task of its chat, or does what anyone may. -/
def Within (A : Authority) (sender : UserId) (chat : ChatId) (c : Port) : Prop :=
  (c.least = .anyone ∨ c.controls ≠ none) ∧ c.OnBehalf A sender chat

variable {A : Authority} {chat : ChatId} {sender : UserId} {msg : MessageId}

end CallbackDispatcher

namespace Update

end Update

/-! ### Messages -/

/-- `td_api::MessageSender`. -/
inductive MessageSender
  | user (id : Int)
  | chat (id : Int)

/-- `updateNewMessage`. -/
structure NewMessage where
  chat : ChatId
  sender : Option MessageSender
  id : MessageId
  -- the text of a `messageText`, which can be null
  content : Option (Option String)

namespace NewMessage

/-- `sender_user_id` of `dispatch_new_message`. -/
def senderUser (m : NewMessage) : UserId :=
  match m.sender with
  | some (.user id) => ⟨id⟩
  | _ => ⟨0⟩

/-- `dispatch_new_message`, and the handler that `main` registers. -/
def handle (A : Authority) (m : NewMessage) : Action Unit :=
  match m.content with
  | none => pure ()
  | some text =>
    match CommandParser.parse (text.getD "") m.senderUser m.chat m.id with
    | none => pure ()
    | some request => do
      let _ ← CommandDispatcher.dispatch A request
      return

/-- The message can lead to the call. -/
def Calls (A : Authority) (m : NewMessage) (c : Port) : Prop :=
  ∃ calls, (m.handle A).Trace calls () ∧ c ∈ calls

theorem handle_only (A : Authority) (m : NewMessage) : (m.handle A).Only fun c =>
    A.canRun m.senderUser m.chat c.least = true ∧ c.OnBehalf A m.senderUser m.chat := by
  unfold handle
  split
  · exact .pure _
  · split
    · exact .pure _
    · rename_i text _ _ _ hparse
      obtain ⟨body, -, -, rfl⟩ := CommandParser.parse_eq_some_iff.1 hparse
      have hall := CommandDispatcher.dispatch_allowed A
        (CommandParser.request (text.getD "") m.senderUser m.chat m.id body)
      exact (hall.mono fun c hc => hc).bind fun _ => .pure _

theorem calls_allowed {A : Authority} {m : NewMessage} {c : Port} (h : m.Calls A c) :
    A.canRun m.senderUser m.chat c.least = true ∧ c.OnBehalf A m.senderUser m.chat := by
  obtain ⟨calls, htrace, hc⟩ := h
  exact (handle_only A m).trace htrace c hc

end NewMessage

/-! ### Whose configuration decides -/

namespace Startup

open Persistence

/-- What the configuration says of `user` in `chat`. -/
def Grants (cfg : TelegramConfig) (user : UserId) (chat : ChatId) : Permission → Prop
  | .anyone => True
  | .user => user.value = cfg.ownerId ∨ user.value ∈ cfg.sudoUsers ∨ chat.value ∈ cfg.authorizedChats
  | .admin => user.value = cfg.ownerId ∨ user.value ∈ cfg.sudoUsers
  | .owner => user.value = cfg.ownerId

variable {user : UserId} {chat : ChatId} {p : Permission}

theorem mem_map_mk_user {ids : List Int} : user ∈ ids.map UserId.mk ↔ user.value ∈ ids := by
  constructor
  · intro h
    obtain ⟨id, hid, rfl⟩ := List.mem_map.1 h
    exact hid
  · exact fun h => List.mem_map.2 ⟨_, h, rfl⟩

theorem mem_map_mk_chat {ids : List Int} : chat ∈ ids.map ChatId.mk ↔ chat.value ∈ ids := by
  constructor
  · intro h
    obtain ⟨id, hid, rfl⟩ := List.mem_map.1 h
    exact hid
  · exact fun h => List.mem_map.2 ⟨_, h, rfl⟩

/-- The authority of a seeded row grants what the configuration says. -/
theorem canRun_iff_grants (cfg : TelegramConfig) : (authorityOf (seeded cfg {})).canRun user chat p = true ↔
    Grants cfg user chat p := by
  have howner : user = (authorityOf (seeded cfg {})).owner ↔ user.value = cfg.ownerId := by
    constructor
    · rintro rfl
      rfl
    · exact congrArg UserId.mk
  have hof : (authorityOf (seeded cfg {})).of user chat =
      if user.value = cfg.ownerId then .owner else if user.value ∈ cfg.sudoUsers then .admin
      else if chat.value ∈ cfg.authorizedChats then .user else .anyone := by
    unfold Authority.of
    simp only [howner]
    refine if_congr Iff.rfl rfl (if_congr mem_map_mk_user rfl (if_congr mem_map_mk_chat rfl rfl))
  unfold Authority.canRun
  rw [hof, decide_eq_true_iff]
  split_ifs with h₁ h₂ h₃ <;> cases p <;> simp [Grants, Permission.toNat, *]

/-- Before the row was seeded nobody is known but a sender that is no user. -/
theorem canRun_unseeded (h : (authorityOf {}).canRun user chat p = true) (hp : p ≠ .anyone) : user = ⟨0⟩ := by
  by_contra hne
  have hof : (authorityOf {}).of user chat = .anyone := by
    exact (if_neg hne).trans rfl
  unfold Authority.canRun at h
  rw [hof] at h
  revert h
  cases p with
  | anyone => exact absurd rfl hp
  | user | admin | owner => decide

/-- In every run of the process, whatever a message makes the bot call is done for the sender and the chat
of that message, and within what the configuration that seeded the database grants them. Before that only a
message that no user sent gets anything that not everybody may do. -/
theorem granted_by_first_seed (json : JsonLib) (boots : List Boot) (t : BotTable) (h : Boots json boots t)
    (hnone : ReadsIds json [])
    (hids : ∀ b ∈ boots, ReadsIds json b.config.sudoUsers ∧ ReadsIds json b.config.authorizedChats) :
    ∃ before after, boots = before ++ after ∧
      (∀ b ∈ before, ¬b.Seeds ∧ ∀ A, b.authority = some A → ∀ (m : NewMessage) c, m.Calls A c →
        c.OnBehalf A m.senderUser m.chat ∧ (c.least ≠ .anyone → m.senderUser = ⟨0⟩)) ∧
      ∀ first rest, after = first :: rest → first.Seeds ∧ (∀ b ∈ rest, ¬b.Seeds) ∧
        ∀ b ∈ after, ∀ A, b.authority = some A → ∀ (m : NewMessage) c, m.Calls A c →
          c.OnBehalf A m.senderUser m.chat ∧ Grants first.config m.senderUser m.chat c.least := by
  simp only [Boot.seeds_iff, Bool.not_eq_true]
  have hunseeded : ∀ b : Boot, (∀ A, b.authority = some A → A = authorityOf {}) → ∀ A, b.authority = some A →
      ∀ (m : NewMessage) c, m.Calls A c →
        c.OnBehalf A m.senderUser m.chat ∧ (c.least ≠ .anyone → m.senderUser = ⟨0⟩) := by
    intro b hb A hA m c hc
    obtain ⟨hrun, hbehalf⟩ := NewMessage.calls_allowed hc
    rw [hb A hA] at hrun
    exact ⟨hbehalf, canRun_unseeded hrun⟩
  cases settled_boots h hnone hids with
  | fresh _ hfresh =>
    exact ⟨boots, [], (List.append_nil _).symm, fun b hb => ⟨(hfresh b hb).1, hunseeded b (hfresh b hb).2⟩, by simp⟩
  | seededBy before first rest hboots _ hfirst _ hbefore hrest hafter =>
    refine ⟨before, first :: rest, hboots, fun b hb => ⟨(hbefore b hb).1, hunseeded b (hbefore b hb).2⟩, ?_⟩
    intro first' rest' heq
    cases heq
    refine ⟨hfirst, hrest, fun b hb A hA m c hc => ?_⟩
    obtain ⟨hrun, hbehalf⟩ := NewMessage.calls_allowed hc
    rw [hafter b hb A hA] at hrun
    exact ⟨hbehalf, (canRun_iff_grants _).1 hrun⟩

/-- `/log`, which user 7 sends. -/
def logMessage : NewMessage := ⟨⟨-100⟩, some (.user 7), ⟨5⟩, some (some "/log")⟩

theorem logMessage_calls : logMessage.Calls ⟨⟨7⟩, [⟨5⟩], []⟩ (.fileExists CommandDispatcher.logPath) :=
  ⟨[.fileExists CommandDispatcher.logPath,
    .sendHtml ⟨-100⟩ (.notice "Log Unavailable" "logs/cmlb.log was not found.")],
    .call (Except.ok false) (.call (.error ⟨.network, ""⟩) (.pure _)), List.mem_cons_self⟩

/-- The first owner has the log file in the second run too. -/
theorem first_owner_logs : ∃ (b b' : Boot) (t : BotTable), Boots arrays [b, b'] t ∧ b'.config.ownerId = 8 ∧
    Grants b.config ⟨7⟩ ⟨-100⟩ .owner := by
  obtain ⟨b, b', t, hboots, hb, hseeds, hb', hA⟩ := started_twice
  obtain ⟨before, after, hsplit, hbefore, hafter⟩ := granted_by_first_seed arrays _ t hboots reads_none
    (reads_started hb hb')
  refine ⟨b, b', t, hboots, congrArg TelegramConfig.ownerId hb', ?_⟩
  cases eq_nil_of_seeds hsplit hseeds fun c hc => (hbefore c hc).1
  obtain ⟨-, -, hall⟩ := hafter b [b'] hsplit.symm
  obtain rfl : [b, b'] = after := hsplit
  exact (hall b' (List.mem_cons_of_mem _ List.mem_cons_self) _ hA logMessage _ logMessage_calls).2

end Startup

end Cmlb
