import Cmlb.Presentation.CallbackDispatcher

/-!
# What a callback comes to

Whatever the payload is and whatever the calls return, `dispatch` ends in the only `answer_callback`, it
has called one use case at most, and it returns the error of the first call that failed
(`answered_once`).
-/

namespace Cmlb

namespace Port

def answersCallback : Port → Bool
  | answerCallback .. => true
  | _ => false

def isUseCase : Port → Bool
  | sendHtml .. | sendHtmlWithKeyboard .. | editHtml .. | editHtmlWithKeyboard .. | sendFile .. => false
  | deleteMessage .. | answerCallback .. | incompleteTasks | steadyNow | fileExists .. | fileSize .. => false
  | _ => true

end Port

namespace CallbackDispatcher

abbrev CallbackLog := List (Σ c, Port.Answer c)

/-- The error that a call of a callback has returned. -/
def failure : (Σ c, Port.Answer c) → Option AppError
  | ⟨.updateUserSettings .., .error err⟩ => some err
  | ⟨.editHtmlWithKeyboard .., .error err⟩ | ⟨.deleteMessage .., .error err⟩ => some err
  | ⟨.answerCallback .., .error err⟩ => some err
  | ⟨.cancelTask _, .error err⟩ | ⟨.pauseTask _, .error err⟩ | ⟨.resumeTask _, .error err⟩ => some err
  | _ => none

/-- The first error, if a call has failed. -/
def verdict (log : CallbackLog) : Result Unit :=
  match log.findSome? failure with
  | some err => .error err
  | none => .ok ()

variable {chat : ChatId} {sender : UserId} {msg : MessageId} {query : CallbackQueryId} {data rest : String}
  {log : CallbackLog} {ack : Ack} {r : Result Unit}

/-- The calls before the acknowledgement, and what is acknowledged. -/
structure Routed (log : CallbackLog) (ack : Ack) : Prop where
  outcome : ack.outcome = verdict log
  silent : ∀ e ∈ log, e.1.answersCallback = false
  single : log.countP (·.1.isUseCase) ≤ 1

theorem ack_of_outcome (done : String) (r : Result Unit) : (Ack.of done r).outcome = r := by
  cases r <;> rfl

theorem Routed.nil (h : ack.outcome = .ok ()) : Routed [] ack where
  outcome := h
  silent := by simp
  single := by simp

theorem routed_close (h : (close chat msg).Dialog log ack) : Routed log ack := by
  unfold close at h
  split at h
  · obtain ⟨rfl, rfl⟩ := h.pure_inv
    exact .nil rfl
  · obtain ⟨deleted, log', rfl, h'⟩ := h.ask_bind_inv
    obtain ⟨rfl, rfl⟩ := h'.pure_inv
    refine ⟨?_, by simp [Port.answersCallback], by simp [Port.isUseCase]⟩
    rw [ack_of_outcome]
    cases deleted <;> rfl

theorem routed_updateSettings {mutate : UserSettingsRecord → UserSettingsRecord} {done : String}
    (h : (updateSettings chat sender msg mutate done).Dialog log ack) : Routed log ack := by
  obtain ⟨res, log', rfl, h₁⟩ := h.ask_bind_inv
  cases res with
  | error err =>
    obtain ⟨rfl, rfl⟩ := h₁.pure_inv
    exact ⟨rfl, by simp [Port.answersCallback], by simp [Port.isUseCase]⟩
  | ok record =>
    dsimp only at h₁
    split at h₁
    · obtain ⟨rfl, rfl⟩ := h₁.pure_inv
      exact ⟨rfl, by simp [Port.answersCallback], by simp [Port.isUseCase]⟩
    · obtain ⟨edit, log'', rfl, h₂⟩ := h₁.ask_bind_inv
      obtain ⟨rfl, rfl⟩ := h₂.pure_inv
      refine ⟨?_, by simp [Port.answersCallback], by simp [Port.isUseCase]⟩
      rw [ack_of_outcome]
      cases edit <;> rfl

theorem routed_onSettings (h : (onSettings chat sender msg rest).Dialog log ack) : Routed log ack := by
  unfold onSettings at h
  dsimp only at h
  split at h
  · exact routed_updateSettings h
  · split at h
    · exact routed_updateSettings h
    · obtain ⟨rfl, rfl⟩ := h.pure_inv
      exact .nil rfl

/-- The only call is a use case for a task, and its result is acknowledged. -/
theorem routed_control {c : Port} {k : c.Answer → Ack} (hc : c.controls.isSome)
    (hk : ∀ a, (k a).outcome = verdict [⟨c, a⟩])
    (h : (Prog.ask c >>= fun a => pure (k a) : Action Ack).Dialog log ack) : Routed log ack := by
  obtain ⟨a, log', rfl, h'⟩ := h.ask_bind_inv
  obtain ⟨rfl, rfl⟩ := h'.pure_inv
  refine ⟨hk a, ?_, List.countP_le_length⟩
  cases c with
  | answerCallback => cases hc
  | _ => simp [Port.answersCallback]

theorem routed_onTask (h : (onTask chat rest).Dialog log ack) : Routed log ack := by
  unfold onTask at h
  dsimp only at h
  split_ifs at h
  · obtain ⟨rfl, rfl⟩ := h.pure_inv
    exact .nil rfl
  · refine routed_control rfl (fun res => ?_) h
    rw [ack_of_outcome]
    cases res <;> rfl
  · refine routed_control rfl (fun res => ?_) h
    rw [ack_of_outcome]
    cases res <;> rfl
  · refine routed_control rfl (fun res => ?_) h
    rw [ack_of_outcome]
    cases res <;> rfl
  · obtain ⟨rfl, rfl⟩ := h.pure_inv
    exact .nil rfl

theorem routed_route (h : (route chat sender msg data).Dialog log ack) : Routed log ack := by
  unfold route at h
  dsimp only at h
  split_ifs at h
  · exact routed_close h
  · obtain ⟨rfl, rfl⟩ := h.pure_inv
    exact .nil rfl
  · exact routed_onSettings h
  · exact routed_onTask h
  · obtain ⟨rfl, rfl⟩ := h.pure_inv
    exact .nil rfl

theorem verdict_concat (before : CallbackLog) {text : String} {alert : Bool} (answered : Result Unit) :
    verdict (before ++ [⟨.answerCallback query text alert, answered⟩]) = finish (verdict before) answered := by
  unfold verdict
  rw [List.findSome?_append]
  cases hbefore : before.findSome? failure with
  | some err => rfl
  | none => cases answered <;> rfl

/-- The callback is answered once and last, under its own id, after one use case at most. The result is
the first error, which is that of the answer only if nothing else failed. -/
theorem answered_once (h : (dispatch chat sender msg query data).Dialog log r) :
    ∃ before text alert answered, log = before ++ [⟨.answerCallback query text alert, answered⟩] ∧
      (∀ e ∈ before, e.1.answersCallback = false) ∧ log.countP (·.1.isUseCase) ≤ 1 ∧ r = verdict log ∧
      (verdict before ≠ .ok () → r = verdict before) := by
  obtain ⟨before, log', ack, rfl, hroute, h₁⟩ := h.bind_inv
  obtain ⟨answered, log'', rfl, h₂⟩ := h₁.ask_bind_inv
  obtain ⟨rfl, rfl⟩ := h₂.pure_inv
  have hrouted := routed_route hroute
  refine ⟨before, ack.text, ack.alert, answered, rfl, hrouted.silent, ?_, ?_, ?_⟩
  · have hlast : Port.isUseCase (.answerCallback query ack.text ack.alert) = false := rfl
    rw [List.countP_append, List.countP_singleton, hlast]
    exact hrouted.single
  · rw [verdict_concat, hrouted.outcome]
  · rw [hrouted.outcome]
    intro hfailed
    cases hverdict : verdict before with
    | ok => exact absurd hverdict hfailed
    | error err => rfl

/-- A task that cannot be paused, and an answer that fails as well. -/
theorem answered_once_pause : verdict
    [⟨.pauseTask ⟨⟨"7"⟩, ⟨1⟩⟩, .error ⟨.notFound, "no such task"⟩⟩,
      ⟨.answerCallback ⟨5⟩ (friendlyErrorLabel .notFound) true, .error ⟨.io, "gone"⟩⟩] =
    .error ⟨.notFound, "no such task"⟩ := by
  have hsplit : splitColon "task:pause:7" = ("task", "pause:7") := by decide
  have hverb : splitColon "pause:7" = ("pause", "7") := by decide
  have hdialog : (dispatch ⟨1⟩ ⟨2⟩ ⟨3⟩ ⟨5⟩ "task:pause:7").Dialog
      [⟨.pauseTask ⟨⟨"7"⟩, ⟨1⟩⟩, .error ⟨.notFound, "no such task"⟩⟩,
        ⟨.answerCallback ⟨5⟩ (friendlyErrorLabel .notFound) true, .error ⟨.io, "gone"⟩⟩]
      (.error ⟨.notFound, "no such task"⟩) := by
    unfold dispatch route
    rw [hsplit]
    unfold onTask
    dsimp only
    rw [hverb]
    exact .call _ (.call _ (.pure _))
  obtain ⟨before, text, alert, answered, -, -, -, hresult, -⟩ := answered_once hdialog
  exact hresult.symm

end CallbackDispatcher

end Cmlb
