import Mathlib.Algebra.Order.Group.Unbundled.Int
import Mathlib.Data.List.Pairwise
import Cmlb.Lib.Semaphore
import Cmlb.Presentation.HtmlRenderer

/-!
# `ProgressRenderer`: the status message of one chat

Runs of `render` and `force_refresh` on one `ChatState`. A step is what a run does between two
`co_await`s. `render` takes the semaphore's token or gives up; `force_refresh` waits for it. The
token goes back when the run leaves, also by an exception: a messenger call may throw, and a
cancelled wait does. `log` has what became of the messenger calls, the last one first.

Whatever the interleaving, one run at a time has the token, `last_rendered_html` is what the chat
shows, and every message but the first follows a failed edit (`one_status_message`). Without forced
refreshes the edits keep the throttle, as long as its milliseconds fit the ticks of the steady clock
(`edits_throttled_iff`).
-/

namespace Cmlb

namespace ProgressRenderer

open HtmlRenderer

inductive Op
  | render (active : List DownloadStatus)
  | forceRefresh (active : List DownloadStatus)

inductive Entry (ι : Type)
  -- with the clock reading of the run's throttle check
  | sent (run : ι) (now : Int) (text : String)
  | edited (run : ι) (now : Int) (text : String)
  | editFailed

structure ChatState (ι : Type) where
  sem : Sem ι
  statusMessageId : MessageId
  lastEdit : Int
  lastRenderedHtml : String
  log : List (Entry ι)

/-- `waiting` is in `async_receive`, `editing` in `edit_html`, `sending` in `send_html_with_keyboard`. -/
inductive Pc
  | starting
  | waiting
  | editing (text : String) (now : Int)
  | sending (text : String) (now : Int)
  | returned (r : Result Unit)
  | threw

def Pc.phase : Pc → Phase
  | .starting | .returned _ | .threw => .outside
  | .waiting => .waiting
  | .editing .. | .sending .. => .inside

/-- What a run reads before it calls the messenger: the clock (in `render` for the throttle, in
`force_refresh` for an unchanged text), the metrics, and the clock again for the uptime. -/
structure Sample where
  now : Int
  metrics : SystemSnapshot
  later : Int

inductive Event
  | start (sample : Sample)
  | resumed (sample : Sample)
  | cancelled
  | edited (r : Result Unit) (clock : Int)
  | sent (r : Result MessageId) (clock : Int)
  | threw

def ticksPerSecond : Int := 1000000000

/-- `throttle_` for the comparison with a difference of clock readings: an `int64_t` of ticks. -/
def throttleTicks (throttle : Int) : Int := (throttle * 1000000).bmod 18446744073709551616

-- `throttle` in milliseconds
variable {ι : Type} [DecidableEq ι] (F : Fmt) (botStartTime throttle : Int) (op : ι → Op)

def page (active : List DownloadStatus) (x : Sample) : String :=
  let uptime := (x.later - botStartTime).tdiv ticksPerSecond
  html (if active.isEmpty then renderNoActiveTasks F x.metrics uptime
    else renderStatus F active x.metrics uptime)

def ChatState.haveMessage (sh : ChatState ι) : Bool := sh.statusMessageId.value != 0

/-- Leave the scope of the `SemReleaseGuard`. -/
def leave (sh : ChatState ι) (pc : Pc) : ChatState ι × Pc := ({ sh with sem := sh.sem.trySend }, pc)

/-- On to the messenger: `edit_html`, or the first message. -/
def call (sh : ChatState ι) (text : String) (now : Int) : ChatState ι × Pc :=
  (sh, if sh.haveMessage then .editing text now else .sending text now)

/-- `do_render_impl`, with the token, up to the first `co_await`. -/
def renderBody (sh : ChatState ι) (active : List DownloadStatus) (x : Sample) : ChatState ι × Pc :=
  if sh.haveMessage ∧ x.now - sh.lastEdit < throttleTicks throttle then leave sh (.returned (.ok ()))
  else
    let text := page F botStartTime active x
    if sh.haveMessage ∧ text = sh.lastRenderedHtml then leave sh (.returned (.ok ()))
    else call sh text x.now

/-- `do_force_refresh_impl` after its `async_receive`, up to the next `co_await`. -/
def refreshBody (sh : ChatState ι) (active : List DownloadStatus) (x : Sample) : ChatState ι × Pc :=
  let text := page F botStartTime active x
  if sh.haveMessage ∧ text = sh.lastRenderedHtml then
    leave { sh with lastEdit := x.now } (.returned (.ok ()))
  else call sh text x.now

/-- The value for `last_edit`: `render` has read it before the call, `force_refresh` reads it now. -/
def stamp (i : ι) (now clock : Int) : Int :=
  match op i with
  | .render _ => now
  | .forceRefresh _ => clock

def act (i : ι) (sh : ChatState ι) : Pc → Event → Option (ChatState ι × Pc)
  | .starting, .start x =>
    match op i with
    | .render active =>
      match sh.sem.tryReceive with
      | none => some (sh, .returned (.ok ()))
      | some sem => some (renderBody F botStartTime throttle { sh with sem := sem } active x)
    | .forceRefresh _ => some ({ sh with sem := sh.sem.asyncReceive i }, .waiting)
  | .starting, .cancelled =>
    match op i with
    | .render _ => none
    | .forceRefresh _ => some (sh, .threw)
  | .waiting, .resumed x =>
    match op i with
    | .render _ => none
    | .forceRefresh active =>
      (sh.sem.resumed i).map fun sem => refreshBody F botStartTime { sh with sem := sem } active x
  | .waiting, .cancelled => (sh.sem.cancel i).map fun sem => ({ sh with sem := sem }, .threw)
  | .editing text now, .edited (.ok _) clock =>
    some (leave
      { sh with
        lastEdit := stamp op i now clock
        lastRenderedHtml := text
        log := .edited i now text :: sh.log }
      (.returned (.ok ())))
  | .editing text now, .edited (.error _) _ =>
    some ({ sh with log := .editFailed :: sh.log }, .sending text now)
  | .sending text now, .sent (.ok id) clock =>
    some (leave
      { sh with
        statusMessageId := id
        lastEdit := stamp op i now clock
        lastRenderedHtml := text
        log := .sent i now text :: sh.log }
      (.returned (.ok ())))
  | .sending _ _, .sent (.error err) _ => some (leave sh (.returned (.error err)))
  | .editing _ _, .threw => some (leave sh .threw)
  | .sending _ _, .threw => some (leave sh .threw)
  | _, _ => none

def renders : Interleaving ι (ChatState ι) Pc Empty Event where
  env _ e := nomatch e
  act := act F botStartTime throttle op

/-- A fresh `ChatState`, with the token in the channel. -/
def start : Sys ι (ChatState ι) Pc :=
  ⟨⟨Sem.start, ⟨0⟩, 0, "", []⟩, fun _ => .starting⟩

/-- A successful send returns a message id other than zero. -/
def realId : SysEvent ι Empty Event → Bool
  | .act _ (.sent (.ok id) _) => id.value != 0
  | _ => true

/-! ### The log -/

/-- The text of the last successful send or edit. -/
def lastShown : List (Entry ι) → String
  | [] => ""
  | .sent _ _ text :: _ => text
  | .edited _ _ text :: _ => text
  | .editFailed :: log => lastShown log

def sends (log : List (Entry ι)) : Nat := log.countP fun
  | .sent .. => true
  | _ => false

def failedEdits (log : List (Entry ι)) : Nat := log.countP fun
  | .editFailed => true
  | _ => false

/-- The runs that have sent or edited, each with the clock reading of its throttle check. -/
def shownBy (log : List (Entry ι)) : List (ι × Int) := log.filterMap fun
  | .sent i now _ => some (i, now)
  | .edited i now _ => some (i, now)
  | .editFailed => none

/-! ### One step -/

variable {F botStartTime throttle op} {i : ι} {sh sh' : ChatState ι} {pc pc' : Pc} {e : Event}

/-- The token comes to run `i`. -/
def Acquires (i : ι) (pc : Pc) (sem sem' : Sem ι) : Prop :=
  pc = .starting ∧ sem.tryReceive = some sem' ∨ pc = .waiting ∧ sem.resumed i = some sem'

/-- What a step of run `i` can do, with the throttle in ticks. -/
inductive Does (throttle : Int) (op : ι → Op) (i : ι) (sh : ChatState ι) : Pc → ChatState ι → Pc → Prop
  | dropped {pc' : Pc} (h : pc'.phase = .outside) : Does throttle op i sh .starting sh pc'
  | queued : Does throttle op i sh .starting { sh with sem := sh.sem.asyncReceive i } .waiting
  | unqueued {sem : Sem ι} (h : sh.sem.cancel i = some sem) :
    Does throttle op i sh .waiting { sh with sem := sem } .threw
  | unchanged {pc : Pc} {sem : Sem ι} {lastEdit : Int} (h : Acquires i pc sh.sem sem)
      (hl : ∀ active, op i = .render active → lastEdit = sh.lastEdit) :
    Does throttle op i sh pc { sh with sem := sem.trySend, lastEdit := lastEdit } (.returned (.ok ()))
  | called {pc : Pc} {sem : Sem ι} {text : String} {now : Int} (h : Acquires i pc sh.sem sem)
      (ht : sh.haveMessage = true → ∀ active, op i = .render active → throttle ≤ now - sh.lastEdit) :
    Does throttle op i sh pc { sh with sem := sem }
      (if sh.haveMessage then .editing text now else .sending text now)
  | edited {text : String} {now lastEdit : Int} (hl : ∀ active, op i = .render active → lastEdit = now) :
    Does throttle op i sh (.editing text now)
      { sh with
        sem := sh.sem.trySend
        lastEdit := lastEdit
        lastRenderedHtml := text
        log := .edited i now text :: sh.log }
      (.returned (.ok ()))
  | editFailed {text : String} {now : Int} :
    Does throttle op i sh (.editing text now) { sh with log := .editFailed :: sh.log } (.sending text now)
  | sent {text : String} {now lastEdit : Int} {id : MessageId} (hid : id.value ≠ 0)
      (hl : ∀ active, op i = .render active → lastEdit = now) :
    Does throttle op i sh (.sending text now)
      { sh with
        sem := sh.sem.trySend
        statusMessageId := id
        lastEdit := lastEdit
        lastRenderedHtml := text
        log := .sent i now text :: sh.log }
      (.returned (.ok ()))
  | failed {pc pc' : Pc} (h : pc.phase = .inside) (h' : pc'.phase = .outside) :
    Does throttle op i sh pc { sh with sem := sh.sem.trySend } pc'

omit [DecidableEq ι] in
theorem stamp_render (now clock : Int) : ∀ active, op i = .render active → stamp op i now clock = now := by
  intro active h
  simp [stamp, h]

theorem renderBody_does {sem : Sem ι} {active : List DownloadStatus} {x : Sample}
    (hs : sh.sem.tryReceive = some sem)
    (h : renderBody F botStartTime throttle { sh with sem := sem } active x = (sh', pc')) :
    Does (throttleTicks throttle) op i sh .starting sh' pc' := by
  have hacq : Acquires i .starting sh.sem sem := .inl ⟨rfl, hs⟩
  unfold renderBody at h
  split at h
  · cases h
    exact .unchanged hacq fun _ _ => rfl
  · rename_i hthrottle
    dsimp only at h
    split at h
    · cases h
      exact .unchanged hacq fun _ _ => rfl
    · cases h
      refine .called hacq fun hm _ _ => ?_
      exact not_lt.1 fun hlt => hthrottle ⟨hm, hlt⟩

theorem refreshBody_does {sem : Sem ι} {active : List DownloadStatus} {x : Sample}
    (hop : op i = .forceRefresh active) (hs : sh.sem.resumed i = some sem)
    (h : refreshBody F botStartTime { sh with sem := sem } active x = (sh', pc')) :
    Does (throttleTicks throttle) op i sh .waiting sh' pc' := by
  have hacq : Acquires i .waiting sh.sem sem := .inr ⟨rfl, hs⟩
  have hrender : ∀ active, op i ≠ .render active := by simp [hop]
  unfold refreshBody at h
  dsimp only at h
  split at h
  · cases h
    exact .unchanged hacq fun active h => absurd h (hrender active)
  · cases h
    exact .called hacq fun _ active h => absurd h (hrender active)

theorem act_does (h : act F botStartTime throttle op i sh pc e = some (sh', pc'))
    (hid : realId (.act i e) = true) : Does (throttleTicks throttle) op i sh pc sh' pc' := by
  unfold act at h
  split at h
  · split at h
    · split at h
      · cases h
        exact .dropped rfl
      · exact renderBody_does ‹_› (Option.some.inj h)
    · cases h
      exact .queued
  · split at h
    · cases h
    · cases h
      exact .dropped rfl
  · split at h
    · cases h
    · rename_i active hop
      obtain ⟨sem, hs, h⟩ := Option.map_eq_some_iff.1 h
      exact refreshBody_does hop hs h
  · obtain ⟨sem, hs, h⟩ := Option.map_eq_some_iff.1 h
    cases h
    exact .unqueued hs
  · cases h
    exact .edited (stamp_render _ _)
  · cases h
    exact .editFailed
  · cases h
    exact .sent (by simpa [realId] using hid) (stamp_render _ _)
  all_goals cases h
  all_goals exact .failed rfl rfl

/-! ### The token -/

variable {ph : ι → Phase}

theorem valid_acquires {sem sem' : Sem ι} (hv : sem.Valid ph) (hi : ph i = pc.phase)
    (h : Acquires i pc sem sem') : sem'.Valid (Function.update ph i .inside) := by
  rcases h with ⟨rfl, h⟩ | ⟨rfl, h⟩
  · exact hv.tryReceive hi h
  · exact hv.resumed h

/-- A run that is inside gives the token back. -/
theorem valid_trySend {sem : Sem ι} (hv : sem.Valid (Function.update ph i .inside)) :
    sem.trySend.Valid (Function.update ph i .outside) := by
  have h := hv.trySend (i := i) (Function.update_self ..)
  rwa [Function.update_idem] at h

theorem valid_does (hv : sh.sem.Valid ph) (hi : ph i = pc.phase) (h : Does throttle op i sh pc sh' pc') :
    sh'.sem.Valid (Function.update ph i pc'.phase) := by
  have hinside (hpc : pc.phase = .inside) : sh.sem.Valid (Function.update ph i .inside) := by
    rwa [← hpc, ← hi, Function.update_eq_self]
  cases h with
  | dropped h =>
    rw [h]
    rwa [show Phase.outside = ph i from hi.symm, Function.update_eq_self]
  | queued => exact hv.asyncReceive hi
  | unqueued h => exact hv.cancel h
  | unchanged h => exact valid_trySend (valid_acquires hv hi h)
  | called h =>
    split
    · exact valid_acquires hv hi h
    · exact valid_acquires hv hi h
  | edited => exact valid_trySend (hinside rfl)
  | editFailed => exact hinside rfl
  | sent => exact valid_trySend (hinside rfl)
  | failed h h' =>
    rw [h']
    exact valid_trySend (hinside h)

/-! ### Whole runs -/

def phases (s : Sys ι (ChatState ι) Pc) : ι → Phase := fun i => (s.locals i).phase

variable {s : Sys ι (ChatState ι) Pc} {t : List (SysEvent ι Empty Event)}

/-- An invariant `B` of the chat state, with an assertion `A` about a run that only matters inside:
what one run does while it is inside cannot disturb another. -/
theorem runs_invariant {B : ChatState ι → Prop} {A : ChatState ι → Pc → Prop}
    (hA : ∀ sh pc, pc.phase ≠ .inside → A sh pc)
    (hstep : ∀ i sh pc sh' pc', B sh → A sh pc → Does (throttleTicks throttle) op i sh pc sh' pc' →
      B sh' ∧ A sh' pc' ∧ (pc.phase = .inside ∨ ∀ q, A sh q → A sh' q))
    (h0 : B (start (ι := ι)).shared)
    (h : (renders F botStartTime throttle op).machine.Steps (fun _ e => realId e = true) start t s) :
    s.shared.sem.Valid (phases s) ∧ B s.shared ∧ ∀ i, A s.shared (s.locals i) := by
  refine h.invariant (I := fun s => s.shared.sem.Valid (phases s) ∧ B s.shared ∧
    ∀ i, A s.shared (s.locals i)) ?_ ?_
  · exact ⟨Sem.valid_start fun _ => rfl, h0, fun i => hA _ _ (by simp [start, Pc.phase])⟩
  · rintro s e ⟨sh', w'⟩ hid ⟨hv, hB, hAs⟩ hs
    rcases Interleaving.step_inv hs with ⟨x, -⟩ | ⟨i, x, pc', rfl, hact, rfl⟩
    · nomatch x
    have hdoes := act_does hact hid
    obtain ⟨hB', hA', hframe⟩ := hstep i _ _ _ _ hB (hAs i) hdoes
    have hphases : phases (⟨sh', Function.update s.locals i pc'⟩ : Sys ι (ChatState ι) Pc) =
        Function.update (phases s) i pc'.phase :=
      funext fun j => Function.apply_update (fun _ => Pc.phase) s.locals i pc' j
    refine ⟨hphases ▸ valid_does hv rfl hdoes, hB', fun j => ?_⟩
    show A sh' (Function.update s.locals i pc' j)
    by_cases hj : j = i
    · subst hj
      rwa [Function.update_self]
    · rw [Function.update_of_ne hj]
      rcases hframe with hinside | hframe
      · -- run `i` is the one inside
        exact hA _ _ fun hjin => hj (hv.inside_unique hjin hinside)
      · exact hframe _ (hAs j)

/-! ### One message -/

/-- `last_rendered_html` is what the chat shows, and every message but one follows a failed edit. -/
structure Told (sh : ChatState ι) : Prop where
  shown : sh.lastRenderedHtml = lastShown sh.log
  first : sh.haveMessage = false → sends sh.log = 0
  sends_le : sends sh.log ≤ 1 + failedEdits sh.log

/-- There is a message to edit; and a send over a message makes up for a failed edit. -/
def CallFits (sh : ChatState ι) : Pc → Prop
  | .editing .. => sh.haveMessage = true
  | .sending .. => sh.haveMessage = true → sends sh.log ≤ failedEdits sh.log
  | _ => True

omit [DecidableEq ι] in
theorem callFits_of_outside {sh : ChatState ι} {pc : Pc} (h : pc.phase ≠ .inside) : CallFits sh pc := by
  cases pc with
  | editing | sending => exact absurd rfl h
  | _ => trivial

theorem told_does (hB : Told sh) (hA : CallFits sh pc) (h : Does throttle op i sh pc sh' pc') :
    Told sh' ∧ CallFits sh' pc' ∧ (pc.phase = .inside ∨ ∀ q, CallFits sh q → CallFits sh' q) := by
  obtain ⟨hshown, hfirst, hle⟩ := hB
  cases h with
  | dropped h => exact ⟨⟨hshown, hfirst, hle⟩, callFits_of_outside (by simp [h]), .inr fun _ h => h⟩
  | queued => exact ⟨⟨hshown, hfirst, hle⟩, trivial, .inr fun _ h => h⟩
  | unqueued => exact ⟨⟨hshown, hfirst, hle⟩, trivial, .inr fun _ h => h⟩
  | unchanged => exact ⟨⟨hshown, hfirst, hle⟩, trivial, .inr fun _ h => h⟩
  | called =>
    refine ⟨⟨hshown, hfirst, hle⟩, ?_, .inr fun _ h => h⟩
    split
    · assumption
    · exact fun hm => absurd hm ‹_›
  | edited => exact ⟨⟨rfl, hfirst, hle⟩, trivial, .inl rfl⟩
  | editFailed =>
    have hcount : failedEdits (.editFailed :: sh.log) = failedEdits sh.log + 1 := by simp [failedEdits]
    refine ⟨⟨hshown, hfirst, ?_⟩, fun _ => ?_, .inl rfl⟩
    · show sends sh.log ≤ 1 + failedEdits (.editFailed :: sh.log)
      omega
    · show sends sh.log ≤ failedEdits (.editFailed :: sh.log)
      omega
  | @sent text now lastEdit id hid hl =>
    have hcount : sends (.sent i now text :: sh.log) = sends sh.log + 1 := by simp [sends]
    refine ⟨⟨rfl, fun hm => ?_, ?_⟩, trivial, .inl rfl⟩
    · simp [ChatState.haveMessage, hid] at hm
    · show sends (.sent i now text :: sh.log) ≤ 1 + failedEdits sh.log
      -- the first message, or one after a failed edit
      cases hm : sh.haveMessage with
      | false => rw [hcount, hfirst hm]; omega
      | true => rw [hcount]; have := hA hm; omega
  | failed h h' => exact ⟨⟨hshown, hfirst, hle⟩, callFits_of_outside (by simp [h']), .inl h⟩

/-- In every interleaving of `render` and `force_refresh` on one chat, the token is in the channel or
one run has it, so that at most one run is between taking it and giving it back; with the token in the
channel `last_rendered_html` is the text of the last successful send or edit; and there is at most
one message more than there are failed edits. -/
theorem one_status_message
    (h : (renders F botStartTime throttle op).machine.Steps (fun _ e => realId e = true) start t s) :
    ((s.shared.sem.token = true ∧ ∀ i, ¬ s.shared.sem.Holds (phases s) i) ∨
      s.shared.sem.token = false ∧ ∃ i, s.shared.sem.Holds (phases s) i ∧
        ∀ j, s.shared.sem.Holds (phases s) j → j = i) ∧
    (∀ i j, (s.locals i).phase = .inside → (s.locals j).phase = .inside → i = j) ∧
    (s.shared.sem.token = true → s.shared.lastRenderedHtml = lastShown s.shared.log) ∧
    sends s.shared.log ≤ 1 + failedEdits s.shared.log := by
  have h0 : Told (start (ι := ι)).shared := ⟨rfl, fun _ => rfl, by simp [start, sends]⟩
  obtain ⟨hv, htold, -⟩ := runs_invariant (A := CallFits) (fun _ _ => callFits_of_outside)
    (fun _ _ _ _ _ => told_does) h0 h
  exact ⟨hv.token_or_holder, fun i j => hv.inside_unique, fun _ => htold.shown, htold.sends_le⟩

def sampleAt (now : Int) : Sample := ⟨now, {}, now⟩

/-- A first message, a forced refresh that waits for a `render` whose edit fails, and its own edit. -/
def refreshWaits : List (SysEvent (Fin 3) Empty Event) :=
  [.act 0 (.start (sampleAt 0)), .act 0 (.sent (.ok ⟨7⟩) 1), .act 1 (.start (sampleAt 5000000000)),
    .act 2 (.start (sampleAt 6000000000)), .act 1 (.edited (.error ⟨.telegramApi, ""⟩) 6000000000),
    .act 1 (.sent (.ok ⟨8⟩) 6000000000), .act 2 (.resumed (sampleAt 7000000000)),
    .act 2 (.edited (.ok ()) 8000000000)]

def refreshLast (i : Fin 3) : Op := if i = 2 then .forceRefresh [] else .render []

theorem one_status_message_after_refresh : ∃ s,
    (renders Fmt.zero 0 3000 refreshLast).machine.Steps (fun _ e => realId e = true) start
      refreshWaits s ∧
    sends s.shared.log = 2 ∧ failedEdits s.shared.log = 1 ∧ s.shared.sem.token = true ∧
    s.shared.lastRenderedHtml = lastShown s.shared.log := by
  have hrun : ((renders Fmt.zero 0 3000 refreshLast).machine.runIf (fun _ e => realId e) start
      refreshWaits).map (fun s => (sends s.shared.log, failedEdits s.shared.log, s.shared.sem.token)) =
      some (2, 1, true) := by
    decide +kernel
  obtain ⟨s, hs, ho⟩ := Machine.exists_steps hrun
  simp only [Prod.mk.injEq] at ho
  exact ⟨s, hs, ho.1, ho.2.1, ho.2.2, (one_status_message hs).2.2.1 ho.2.2⟩

/-! ### The throttle -/

/-- Each successful call is at least `throttle` after the one before, and `last_edit` is the last. -/
structure Spaced (throttle : Int) (sh : ChatState ι) : Prop where
  pairwise : (shownBy sh.log).Pairwise fun new old => throttle ≤ new.2 - old.2
  first : sh.haveMessage = false → shownBy sh.log = []
  last : ∀ e ∈ (shownBy sh.log).head?, e.2 = sh.lastEdit

/-- The run has passed its throttle check. -/
def Passed (throttle : Int) (sh : ChatState ι) : Pc → Prop
  | .editing _ now => sh.haveMessage = true ∧ throttle ≤ now - sh.lastEdit
  | .sending _ now => sh.haveMessage = true → throttle ≤ now - sh.lastEdit
  | _ => True

omit [DecidableEq ι] in
theorem passed_of_outside {sh : ChatState ι} {pc : Pc} (h : pc.phase ≠ .inside) : Passed throttle sh pc := by
  cases pc with
  | editing | sending => exact absurd rfl h
  | _ => trivial

omit [DecidableEq ι] in
/-- A successful call of a run that has passed is far enough from all before. -/
theorem Spaced.cons {sh : ChatState ι} {now : Int} (h : Spaced throttle sh) (h0 : 0 ≤ throttle)
    (hp : sh.haveMessage = true → throttle ≤ now - sh.lastEdit) (i : ι) :
    ((i, now) :: shownBy sh.log).Pairwise fun new old => throttle ≤ new.2 - old.2 := by
  refine List.pairwise_cons.2 ⟨fun e he => ?_, h.pairwise⟩
  have hm : sh.haveMessage = true := by
    by_contra hm
    rw [h.first (by simpa using hm)] at he
    cases he
  have hnow := hp hm
  have hpair := h.pairwise
  have hlast := h.last
  cases hshown : shownBy sh.log with
  | nil => rw [hshown] at he; cases he
  | cons d rest =>
    rw [hshown] at he hpair hlast
    have hd : d.2 = sh.lastEdit := hlast d rfl
    rcases List.mem_cons.1 he with rfl | he
    · show throttle ≤ now - e.2
      omega
    · have := (List.pairwise_cons.1 hpair).1 e he
      show throttle ≤ now - e.2
      omega

theorem spaced_does (h0 : 0 ≤ throttle) (hop : ∀ i, ∃ active, op i = .render active)
    (hB : Spaced throttle sh) (hA : Passed throttle sh pc) (h : Does throttle op i sh pc sh' pc') :
    Spaced throttle sh' ∧ Passed throttle sh' pc' ∧
      (pc.phase = .inside ∨ ∀ q, Passed throttle sh q → Passed throttle sh' q) := by
  obtain ⟨active, hactive⟩ := hop i
  cases h with
  | dropped h => exact ⟨hB, passed_of_outside (by simp [h]), .inr fun _ h => h⟩
  | queued => exact ⟨⟨hB.pairwise, hB.first, hB.last⟩, trivial, .inr fun _ h => h⟩
  | unqueued => exact ⟨⟨hB.pairwise, hB.first, hB.last⟩, trivial, .inr fun _ h => h⟩
  | unchanged _ hl =>
    cases hl active hactive
    exact ⟨⟨hB.pairwise, hB.first, hB.last⟩, trivial, .inr fun _ h => h⟩
  | called _ ht =>
    refine ⟨⟨hB.pairwise, hB.first, hB.last⟩, ?_, .inr fun _ h => h⟩
    split
    · exact ⟨‹_›, ht ‹_› active hactive⟩
    · exact fun hm => ht hm active hactive
  | edited hl =>
    cases hl active hactive
    have hmsg : sh.haveMessage ≠ false := by simp [hA.1]
    exact ⟨⟨hB.cons h0 (fun _ => hA.2) i, fun hm => absurd hm hmsg, by rintro e ⟨⟩; rfl⟩, trivial, .inl rfl⟩
  | editFailed => exact ⟨⟨hB.pairwise, hB.first, hB.last⟩, fun _ => hA.2, .inl rfl⟩
  | sent hid hl =>
    cases hl active hactive
    refine ⟨⟨hB.cons h0 hA i, fun hm => ?_, by rintro e ⟨⟩; rfl⟩, trivial, .inl rfl⟩
    simp [ChatState.haveMessage, hid] at hm
  | failed h h' =>
    exact ⟨⟨hB.pairwise, hB.first, hB.last⟩, passed_of_outside (by simp [h']), .inl h⟩

/-- What an event reads off the clock. -/
def readings : SysEvent ι Empty Event → List Int
  | .act _ (.start x) | .act _ (.resumed x) => [x.now, x.later]
  | .act _ (.edited _ clock) | .act _ (.sent _ clock) => [clock]
  | _ => []

/-- The clock does not go back, and a reading is an `int64_t` since the start of the system. -/
def SteadyClock (t : List (SysEvent ι Empty Event)) : Prop :=
  (t.flatMap readings).Pairwise (· ≤ ·) ∧ ∀ r ∈ t.flatMap readings, 0 ≤ r ∧ r < 9223372036854775808

/-- With no forced refresh, two runs that each complete a send or an edit have passed their throttle
checks at clock readings at least `throttle` milliseconds apart. -/
def KeepsThrottle (F : Fmt) (botStartTime throttle : Int) : Prop :=
  ∀ (ι : Type) [DecidableEq ι] (op : ι → Op) (t : List (SysEvent ι Empty Event)) (s : Sys ι (ChatState ι) Pc),
    (∀ i, ∃ active, op i = .render active) → SteadyClock t →
    (renders F botStartTime throttle op).machine.Steps (fun _ e => realId e = true) start t s →
    ∀ i j now now', i ≠ j → (i, now) ∈ shownBy s.shared.log → (j, now') ∈ shownBy s.shared.log →
      throttle * 1000000 ≤ |now - now'|

theorem throttleTicks_of_le (h0 : 0 ≤ throttle) (h : throttle ≤ 9223372036854) :
    throttleTicks throttle = throttle * 1000000 := by
  unfold throttleTicks
  rw [Int.bmod_def]
  omega

theorem throttleTicks_lt (throttle : Int) : throttleTicks throttle < 9223372036854775808 := by
  unfold throttleTicks
  rw [Int.bmod_def]
  omega

theorem keepsThrottle (F : Fmt) (botStartTime : Int) (h0 : 0 ≤ throttle) (hfit : throttle ≤ 9223372036854) :
    KeepsThrottle F botStartTime throttle := by
  intro ι _ op t s hop _ h i j now now' hij hi hj
  have hticks := throttleTicks_of_le h0 hfit
  have hstart : Spaced (throttleTicks throttle) (start (ι := ι)).shared :=
    ⟨List.Pairwise.nil, fun _ => rfl, fun e he => nomatch he⟩
  obtain ⟨-, hspaced, -⟩ := runs_invariant (A := Passed (throttleTicks throttle))
    (fun _ _ => passed_of_outside) (fun _ _ _ _ _ => spaced_does (by omega) hop) hstart h
  have hpair : (shownBy s.shared.log).Pairwise fun a b => throttleTicks throttle ≤ |a.2 - b.2| :=
    hspaced.pairwise.imp fun h => h.trans (le_abs_self _)
  have hsymm : Std.Symm fun a b : ι × Int => throttleTicks throttle ≤ |a.2 - b.2| :=
    ⟨fun a b h => by rwa [abs_sub_comm]⟩
  rw [← hticks]
  have hgap := hpair.forall hi hj (by simp [hij])
  exact hgap

/-! ### A throttle that does not fit -/

theorem toList_heading (text : String) (ps : List Markup.Piece) : (html (renderHeading text ++ ps)).toList =
    "<b><u>".toList ++ ((escapeHtml.escape text).toList ++ ("</u></b>".toList ++ (html ps).toList)) := by
  simp [renderHeading, Markup.Piece.text]

/-- The page without tasks has another heading. -/
theorem page_nil_ne (F : Fmt) (botStartTime : Int) (status : DownloadStatus) (x y : Sample) :
    page F botStartTime [] x ≠ page F botStartTime [status] y := by
  intro h
  have hnone : ∃ ps, page F botStartTime [] x = html (renderHeading "Status" ++ ps) := by
    simp only [page, renderNoActiveTasks, List.append_assoc]
    exact ⟨_, rfl⟩
  have hsome : ∃ ps, page F botStartTime [status] y = html (renderHeading "Active Tasks" ++ ps) := by
    simp only [page, renderStatus, List.isEmpty_cons, Bool.false_eq_true, if_false, List.append_assoc]
    exact ⟨_, rfl⟩
  obtain ⟨ps, hps⟩ := hnone
  obtain ⟨qs, hqs⟩ := hsome
  rw [hps, hqs, ← String.toList_inj, toList_heading, toList_heading, Markup.Escaping.toList_escape,
    Markup.Escaping.toList_escape] at h
  have hstatus : "Status".toList.flatMap escapeHtml.esc = "Status".toList := by decide
  have hactive : "Active Tasks".toList.flatMap escapeHtml.esc = "Active Tasks".toList := by decide
  have htexts := List.append_cancel_left h
  rw [hstatus, hactive] at htexts
  have hheads : some 'S' = some 'A' := congrArg List.head? htexts
  exact absurd hheads (by decide)

/-- A second run, later by what the throttle has become in ticks, finds no throttle. -/
def secondTime (throttle : Int) : Int := max (throttleTicks throttle) 0

def twoRenders (throttle : Int) : List (SysEvent Bool Empty Event) :=
  [.act false (.start (sampleAt 0)), .act false (.sent (.ok ⟨7⟩) 0),
    .act true (.start (sampleAt (secondTime throttle))), .act true (.edited (.ok ()) (secondTime throttle))]

/-- The second run has a task to show. -/
def twoOps (status : DownloadStatus) (i : Bool) : Op := .render (if i then [status] else [])

theorem steadyClock_twoRenders (throttle : Int) : SteadyClock (twoRenders throttle) := by
  have hlt := throttleTicks_lt throttle
  have hreadings : (twoRenders throttle).flatMap readings =
      [0, 0, 0, secondTime throttle, secondTime throttle, secondTime throttle] := rfl
  unfold SteadyClock
  rw [hreadings]
  simp [secondTime, hlt]

omit [DecidableEq ι] in
/-- A run that is late enough and has another text goes on to the messenger. -/
theorem renderBody_called {sh : ChatState ι} {active : List DownloadStatus} {x : Sample}
    (hlate : ¬ x.now - sh.lastEdit < throttleTicks throttle)
    (htext : page F botStartTime active x ≠ sh.lastRenderedHtml) :
    renderBody F botStartTime throttle sh active x = call sh (page F botStartTime active x) x.now := by
  unfold renderBody
  rw [if_neg fun h => hlate h.2]
  exact if_neg fun h => htext h.2

/-- The first run has sent `text`. -/
def sentFirst (text : String) : Sys Bool (ChatState Bool) Pc :=
  ⟨⟨Sem.start, ⟨7⟩, 0, text, [.sent false 0 text]⟩, Function.update (Function.update (fun _ => .starting)
    false (.sending text 0)) false (.returned (.ok ()))⟩

theorem sentFirst_start (throttle : Int) (status : DownloadStatus) :
    (renders F botStartTime throttle (twoOps status)).machine.step
      (sentFirst (page F botStartTime [] (sampleAt 0)))
      (.act true (.start (sampleAt (secondTime throttle)))) =
    some ⟨{ (sentFirst (page F botStartTime [] (sampleAt 0))).shared with sem := ⟨false, [], none⟩ },
      Function.update (sentFirst (page F botStartTime [] (sampleAt 0))).locals true
        (.editing (page F botStartTime [status] (sampleAt (secondTime throttle))) (secondTime throttle))⟩ := by
  have hlate : ¬ secondTime throttle - 0 < throttleTicks throttle := by simp [secondTime]
  have htext := page_nil_ne F botStartTime status (sampleAt 0)
    (sampleAt (secondTime throttle))
  have hcalled : renderBody F botStartTime throttle
      { (sentFirst (page F botStartTime [] (sampleAt 0))).shared with sem := ⟨false, [], none⟩ }
      [status] (sampleAt (secondTime throttle)) = call
        { (sentFirst (page F botStartTime [] (sampleAt 0))).shared with sem := ⟨false, [], none⟩ }
        (page F botStartTime [status] (sampleAt (secondTime throttle))) (secondTime throttle) :=
    renderBody_called hlate htext.symm
  exact Interleaving.step_act (congrArg some hcalled)

theorem twoRenders_steps (F : Fmt) (botStartTime throttle : Int) (status : DownloadStatus) : ∃ s,
    (renders F botStartTime throttle (twoOps status)).machine.Steps (fun _ e => realId e = true) start
      (twoRenders throttle) s ∧ shownBy s.shared.log = [(true, secondTime throttle), (false, 0)] :=
  ⟨_, .cons rfl rfl (.cons rfl rfl (.cons rfl (sentFirst_start throttle status)
    (.cons rfl rfl (.nil _)))), rfl⟩

/-- The second run is not late enough. -/
theorem not_keepsThrottle (F : Fmt) (botStartTime : Int) (h : 9223372036854 < throttle) :
    ¬ KeepsThrottle F botStartTime throttle := by
  intro hkeeps
  obtain ⟨s, hs, hshown⟩ := twoRenders_steps F botStartTime throttle {}
  have hlt := throttleTicks_lt throttle
  have hgap := hkeeps Bool (twoOps {}) _ s (fun i => ⟨_, rfl⟩) (steadyClock_twoRenders throttle) hs
    true false (secondTime throttle) 0 (by decide) (by simp [hshown]) (by simp [hshown])
  rw [sub_zero, secondTime, abs_of_nonneg (le_max_right _ _)] at hgap
  omega

/-- The throttle is kept exactly if it fits the ticks of the steady clock. -/
theorem edits_throttled_iff (F : Fmt) (botStartTime throttle : Int) (h0 : 0 ≤ throttle) :
    KeepsThrottle F botStartTime throttle ↔ throttle ≤ 9223372036854 := by
  constructor
  · intro hkeeps
    by_contra hlt
    exact not_keepsThrottle F botStartTime (by omega) hkeeps
  · exact keepsThrottle F botStartTime h0

/-- A first message, a `render` within the throttle, and one after it. -/
def threeRenders : List (SysEvent (Fin 3) Empty Event) :=
  [.act 0 (.start (sampleAt 0)), .act 0 (.sent (.ok ⟨7⟩) 1), .act 1 (.start (sampleAt 1000000000)),
    .act 2 (.start (sampleAt 4000000000)), .act 2 (.edited (.ok ()) 4000000001)]

theorem edits_throttled_three : ∃ s,
    (renders Fmt.zero 0 3000 fun _ : Fin 3 => .render []).machine.Steps (fun _ e => realId e = true)
      start threeRenders s ∧
    shownBy s.shared.log = [(2, 4000000000), (0, 0)] ∧ 3000 * 1000000 ≤ |(4000000000 : Int) - 0| := by
  have hrun : ((renders Fmt.zero 0 3000 fun _ : Fin 3 => .render []).machine.runIf
      (fun _ e => realId e) start threeRenders).map (fun s => shownBy s.shared.log) =
      some [(2, 4000000000), (0, 0)] := by
    decide +kernel
  obtain ⟨s, hs, ho⟩ := Machine.exists_steps hrun
  have hclock : SteadyClock threeRenders := by
    unfold SteadyClock
    decide
  refine ⟨s, hs, ho, ?_⟩
  exact (edits_throttled_iff Fmt.zero 0 3000 (by decide)).2 (by decide) (Fin 3) _ _ s (fun _ => ⟨[], rfl⟩)
    hclock hs 2 0 4000000000 0 (by decide) (by rw [ho]; simp) (by rw [ho]; simp)

/-- The milliseconds do not fit: as an `int64_t` the throttle is negative, and a run right after the first
edits as well. -/
theorem throttle_past_int64 : ¬ ∀ (F : Fmt) (botStartTime throttle : Int), 0 ≤ throttle →
    KeepsThrottle F botStartTime throttle := by
  intro hall
  exact not_keepsThrottle Fmt.zero 0 (by decide) (hall Fmt.zero 0 9223372036855 (by decide))

end ProgressRenderer

end Cmlb
