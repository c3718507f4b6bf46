import Cmlb.Telegram.Gateway

/-!
# The results of sends (`send_formatted_message`, `send_message_with_inline_keyboard`, `send_file`)

TDLib answers `sendMessage` with a message before that is sent, and the id in it is provisional. The
final id, or the failure, comes later, in an update that `dispatch_update` ignores. A send returns on
the answer, so what it returns is final only when it is an error (`send_final_iff`).
-/

namespace Cmlb.Telegram

def tdErrorToAppError (code : Int) (message operation : String) : AppError :=
  ⟨.telegramApi, "telegram " ++ operation ++ ": code=" ++ toString code ++ " message=" ++ message⟩

/-- `none` is a null object. -/
def responseToMessageId (obj : Option TdObject) (operation : String) : Result Int :=
  match obj with
  | none => .error ⟨.telegramApi, "telegram " ++ operation ++ ": null response"⟩
  | some (.error code message) => .error (tdErrorToAppError code message operation)
  | some (.message id) => .ok id
  | some _ => .error ⟨.telegramApi, "telegram " ++ operation ++ ": unexpected response type"⟩

inductive SendOp
  | formattedMessage | messageWithInlineKeyboard | file
deriving DecidableEq, Repr

def SendOp.operation : SendOp → String
  | .formattedMessage => "send_formatted_message"
  | .messageWithInlineKeyboard => "send_message_with_inline_keyboard"
  | .file => "send_file"

namespace Gateway

/-- What `await_send` makes of a wait that ends without an answer. -/
def timerFired : TdObject := .error 500 "cmlb: internal: timer fired before response"

/-- What the send with the request `n` returns when its wait ends. -/
def sendResult (op : SendOp) (g : Gateway) (n : Nat) : Result Int :=
  responseToMessageId (some ((g.resumed.lookup n).getD timerFired)) op.operation

/-- TDLib has reported that the message with the provisional id `p` is sent, with the id `m`. -/
def SendSucceeded (t : List Event) (p m : Int) : Prop :=
  .handleEvent 0 (some (.updateMessageSendSucceeded p m)) ∈ t

/-- The provisional id is not the final one. -/
def IdChanges (t : List Event) : Prop := ∀ p m, SendSucceeded t p m → m ≠ p

/-- The request `n` is answered with the message of the provisional id `p`, while it is pending. -/
def AnsweredBy (ttl : Int) (t : List Event) (n : Nat) (p : Int) : Prop :=
  ∃ t₁ id t₂ g₁, t = t₁ ++ .handleEvent id (some (.message p)) :: t₂ ∧ (machine ttl).Runs start t₁ g₁ ∧
    ∃ h ∈ g₁.pending, h.id = id ∧ h.request = n

/-- A value is the final id of the message that the request `n` was answered with. -/
def Final (ttl : Int) (t : List Event) (n : Nat) (r : Result Int) : Prop :=
  ∀ m, r = .ok m → ∃ p, AnsweredBy ttl t n p ∧ SendSucceeded t p m

variable {ttl : Int} {t : List Event} {g : Gateway} {n : Nat} {p : Int}

theorem AnsweredBy.concat (h : AnsweredBy ttl t n p) (e : Event) : AnsweredBy ttl (t ++ [e]) n p := by
  obtain ⟨t₁, id, t₂, g₁, rfl, hrest⟩ := h
  exact ⟨t₁, id, t₂ ++ [e], g₁, by simp, hrest⟩

/-- A request is resumed with a message only by an answer. -/
theorem answeredBy_of_resumed (h : (machine ttl).Runs start t g) (hn : (n, .message p) ∈ g.resumed) :
    AnsweredBy ttl t n p := by
  induction h with
  | nil => exact absurd hn List.not_mem_nil
  | @snoc g₁ g₂ t e h _ hs ih =>
    cases hs
    obtain ⟨-, new, hnew, hans⟩ := step_inv ttl g₁ e
    rw [hnew, List.mem_append] at hn
    rcases hn with hn | hn
    · exact (ih hn).concat e
    · obtain ⟨h', hh', hreq, hobj⟩ := hans _ hn
      rcases hobj with hobj | hobj | rfl
      · cases hobj
      · cases hobj
      · exact ⟨t, h'.id, [], g₁, by simp, h, h', hh', rfl, hreq⟩

/-- An answer resumes the request whose id it has. -/
theorem Inv.resumed_answer (hg : Inv g) {h : PendingHandler} (hh : h ∈ g.pending) (obj : TdObject) :
    (h.request, obj) ∈ (g.handleEvent h.id (some obj)).resumed := by
  have hid := hg.ids h hh
  unfold Gateway.handleEvent
  dsimp only
  rw [if_neg (by omega)]
  split
  · rename_i hnone
    have hne := List.find?_eq_none.1 hnone h hh
    simp at hne
  · rename_i h' hfind
    have hid' : h'.id = h.id := by simpa using List.find?_some hfind
    have hreq := hg.ids h' (List.mem_of_find?_eq_some hfind)
    have hsame : h'.request = h.request := by omega
    rw [← hsame]
    exact List.mem_append_right _ List.mem_cons_self

theorem resumed_of_answeredBy (h : (machine ttl).Runs start t g)
    (hfew : g.sent.length < 9223372036854775808) (hans : AnsweredBy ttl t n p) :
    (n, .message p) ∈ g.resumed := by
  obtain ⟨t₁, id, t₂, g₁, rfl, h₁, h', hh', rfl, rfl⟩ := hans
  obtain ⟨g₁', h₁', h₂⟩ := h.append_inv
  cases h₁'.det h₁
  obtain ⟨g₂, -, hs, h₃⟩ := h₂.cons_inv
  cases hs
  have hlen := (resumed_runs h₂).2.length_le
  obtain ⟨hinv, -⟩ := inv_runs h₁ (lt_of_le_of_lt hlen hfew)
  exact (resumed_runs h₃).1.subset (hinv.resumed_answer hh' _)

theorem lookup_resumed (h : (machine ttl).Runs start t g) (hfew : g.sent.length < 9223372036854775808)
    (n : Nat) (obj : TdObject) : g.resumed.lookup n = some obj ↔ (n, obj) ∈ g.resumed := by
  obtain ⟨hinv, -⟩ := inv_runs h hfew
  have hnodup := (List.nodup_append.1 (hinv.handled.nodup_iff.2 List.nodup_range)).2.1
  generalize g.resumed = l at hnodup
  induction l with
  | nil => simp
  | cons r l ih =>
    obtain ⟨k, o⟩ := r
    rw [List.map_cons, List.nodup_cons] at hnodup
    rw [List.lookup_cons, List.mem_cons]
    by_cases hk : n = k
    · subst hk
      have hnot : (n, obj) ∉ l := fun hmem => hnodup.1 (List.mem_map.2 ⟨_, hmem, rfl⟩)
      simp [hnot, eq_comm]
    · have hbeq : (n == k) = false := by simpa using hk
      rw [hbeq]
      simp [hk, ih hnodup.2]

/-- In any run of the gateway, when TDLib gives each message that is sent a new id: the result of a
send is final exactly when its request was not answered with a message. -/
theorem send_final_iff (op : SendOp) (h : (machine ttl).Runs start t g)
    (hfew : g.sent.length < 9223372036854775808) (hids : IdChanges t) (n : Nat) :
    Final ttl t n (g.sendResult op n) ↔ ¬∃ p, AnsweredBy ttl t n p := by
  constructor
  · rintro hfinal ⟨p, hp⟩
    have hlookup := (lookup_resumed h hfew n _).2 (resumed_of_answeredBy h hfew hp)
    have hvalue : g.sendResult op n = .ok p := by
      unfold sendResult
      rw [hlookup]
      rfl
    obtain ⟨p', hp', hsent⟩ := hfinal p hvalue
    -- The request was resumed once, so this is the same answer
    have hlookup' := (lookup_resumed h hfew n _).2 (resumed_of_answeredBy h hfew hp')
    rw [hlookup] at hlookup'
    cases hlookup'
    exact hids p p hsent rfl
  · intro hnone m hm
    exfalso
    unfold sendResult at hm
    cases hlookup : g.resumed.lookup n with
    | none =>
      rw [hlookup] at hm
      cases hm
    | some obj =>
      rw [hlookup] at hm
      cases obj with
      | message p => exact hnone ⟨p, answeredBy_of_resumed h ((lookup_resumed h hfew n _).1 hlookup)⟩
      | _ => cases hm

/-- The message is refused. -/
def refusedSend : List Event :=
  [.sendRequest 0, .handleEvent 1000 (some (.error 400 "chat not found"))]

theorem send_final_refused : ∃ g, (machine kDefaultRequestTtl).Runs start refusedSend g ∧
    Final kDefaultRequestTtl refusedSend 0 (g.sendResult .file 0) := by
  have hobs : ((machine kDefaultRequestTtl).run start refusedSend).map
      (fun g => (g.resumed, g.sent.length)) = some ([(0, .error 400 "chat not found")], 1) := by decide
  obtain ⟨g, hg, ho⟩ := Machine.exists_runs hobs
  obtain ⟨hresumed, hlen⟩ := Prod.mk.inj ho
  have hfew : g.sent.length < 9223372036854775808 := by rw [hlen]; decide
  have hids : IdChanges refusedSend := by
    intro p m hsent
    simp [SendSucceeded, refusedSend] at hsent
  refine ⟨g, hg, (send_final_iff .file hg hfew hids 0).2 ?_⟩
  rintro ⟨p, hp⟩
  have hmem := resumed_of_answeredBy hg hfew hp
  rw [hresumed] at hmem
  simp at hmem

/-- The message is accepted, and later sent with another id. -/
def acceptedSend : List Event :=
  [.sendRequest 0, .handleEvent 1000 (some (.message 5)),
    .handleEvent 0 (some (.updateMessageSendSucceeded 5 77))]

theorem provisional_id_returned : ∃ g, (machine kDefaultRequestTtl).Runs start acceptedSend g ∧
    IdChanges acceptedSend ∧ g.sendResult .file 0 = .ok 5 ∧
    ¬Final kDefaultRequestTtl acceptedSend 0 (g.sendResult .file 0) := by
  have hobs : ((machine kDefaultRequestTtl).run start acceptedSend).map (fun g => g.resumed) =
      some [(0, .message 5)] := by decide
  obtain ⟨g, hg, hresumed⟩ := Machine.exists_runs hobs
  have hvalue : g.sendResult .file 0 = .ok 5 := by
    unfold sendResult
    rw [hresumed]
    rfl
  refine ⟨g, hg, ?_, hvalue, ?_⟩
  · intro p m hsent
    simp [SendSucceeded, acceptedSend] at hsent
    omega
  · intro hfinal
    obtain ⟨p, -, hsent⟩ := hfinal 5 hvalue
    simp [SendSucceeded, acceptedSend] at hsent

end Gateway

end Cmlb.Telegram
