import Mathlib.Data.List.Perm.Basic
import Mathlib.Data.List.Nodup
import Mathlib.Data.List.Range
import Cmlb.Core.Error
import Cmlb.Lib.Machine

/-!
# The requests of the gateway (`telegram_gateway.cpp`)

All of this runs on the gateway's strand, one step at a time: `send_request`, `handle_event`, the
sweep `evict_stale` and the drain at the end of `run`. A request is its number in the order of
sending; the model keeps the ids that were given out (`sent`) and the calls of the handlers
(`resumed`). The order in which a sweep or the drain goes through the map is that of sending here,
which nothing below depends on.

The numbers of the pending requests and of the resumed ones together are those of the requests sent,
each once (`Inv`). That is what "exactly once" comes to (`requests_resolve`).
-/

namespace Cmlb.Telegram

/-- The objects of TDLib, as far as the gateway tells them apart. -/
inductive TdObject
  | ok
  | error (code : Int) (message : String)
  | message (id : Int)
  | updateMessageSendSucceeded (oldMessageId id : Int)
  | updateMessageSendFailed (oldMessageId : Int)
  | other (constructorId : Int)
deriving DecidableEq, Repr

/-- One more than the greatest `std::uint64_t`. -/
def uint64Size : Nat := 18446744073709551616

/-- In seconds. -/
def kDefaultRequestTtl : Int := 30

def timedOut : TdObject := .error 408 "cmlb: request timed out client-side"

def clientStopped : TdObject := .error 499 "cmlb: client stopped"

/-- `PendingHandler`: the handler is that of the request `request`. -/
structure PendingHandler where
  id : Nat
  request : Nat
  createdAt : Int
deriving DecidableEq, Repr

structure Gateway where
  nextRequestId : Nat
  pending : List PendingHandler
  sent : List Nat
  resumed : List (Nat × TdObject)

namespace Gateway

def start : Gateway := ⟨1000, [], [], []⟩

/-- The handler is called, once it is out of the map. -/
def resume (g : Gateway) (h : PendingHandler) (obj : TdObject) : Gateway :=
  { g with resumed := g.resumed ++ [(h.request, obj)] }

/-- `pending.emplace`, which does nothing where the id is taken. -/
def registerHandler (g : Gateway) (id request : Nat) (now : Int) : Gateway :=
  if g.pending.any (·.id == id) then g else { g with pending := g.pending ++ [⟨id, request, now⟩] }

def sendRequest (g : Gateway) (now : Int) : Gateway :=
  let id := g.nextRequestId
  let g' := { g with nextRequestId := (id + 1) % uint64Size, sent := g.sent ++ [id] }
  g'.registerHandler id g.sent.length now

/-- An update goes to the update handlers, which have nothing to do with the requests. -/
def handleEvent (g : Gateway) (requestId : Nat) (object : Option TdObject) : Gateway :=
  match object with
  | none => g
  | some obj =>
    if requestId = 0 then g
    else
      match g.pending.find? (·.id == requestId) with
      | none => g
      | some h => { g with pending := g.pending.erase h }.resume h obj

def stale (ttl now : Int) (h : PendingHandler) : Bool := now - h.createdAt ≥ ttl

def evictStale (ttl : Int) (g : Gateway) (now : Int) : Gateway :=
  (g.pending.filter (stale ttl now)).foldl (fun g h => g.resume h timedOut)
    { g with pending := g.pending.filter fun h => !stale ttl now h }

/-- The end of `run`. -/
def drain (g : Gateway) : Gateway :=
  { g.pending.foldl (fun g h => g.resume h clientStopped) g with pending := [] }

inductive Event
  | sendRequest (now : Int)
  | handleEvent (requestId : Nat) (object : Option TdObject)
  | evictStale (now : Int)
  | drain
deriving DecidableEq

def step (ttl : Int) (g : Gateway) : Event → Gateway
  | .sendRequest now => g.sendRequest now
  | .handleEvent requestId object => g.handleEvent requestId object
  | .evictStale now => g.evictStale ttl now
  | .drain => g.drain

def machine (ttl : Int) : Machine Gateway Event where
  step g e := some (g.step ttl e)

/-! ### One step -/

variable {ttl now : Int} {g g' : Gateway} {e : Event}

theorem foldl_resume (hs : List PendingHandler) (obj : TdObject) (g : Gateway) :
    hs.foldl (fun g h => g.resume h obj) g =
      { g with resumed := g.resumed ++ hs.map fun h => (h.request, obj) } := by
  induction hs generalizing g with
  | nil => simp
  | cons h hs ih =>
    rw [List.foldl_cons, ih]
    simp [resume]

theorem evictStale_eq : g.evictStale ttl now =
    { g with
      pending := g.pending.filter fun h => !stale ttl now h
      resumed := g.resumed ++ (g.pending.filter (stale ttl now)).map fun h => (h.request, timedOut) } := by
  unfold evictStale
  rw [foldl_resume]

theorem drain_eq : g.drain =
    { g with
      pending := []
      resumed := g.resumed ++ g.pending.map fun h => (h.request, clientStopped) } := by
  unfold drain
  rw [foldl_resume]

/-- The requests that are pending or resumed. -/
def handled (g : Gateway) : List Nat := g.pending.map PendingHandler.request ++ g.resumed.map Prod.fst

/-- The tasks of the strand other than sending: what they resume was pending, and the rest of it
stays. -/
structure Settles (g g' : Gateway) : Prop where
  nextRequestId : g'.nextRequestId = g.nextRequestId
  sent : g'.sent = g.sent
  pending : g'.pending.Sublist g.pending
  resumed : g.resumed <+: g'.resumed
  handled : g'.handled.Perm g.handled

theorem Settles.refl (g : Gateway) : Settles g g := ⟨rfl, rfl, .refl _, List.prefix_rfl, .refl _⟩

theorem Settles.of_perm {pending : List PendingHandler} {resumed : List (Nat × TdObject)}
    (hsub : pending.Sublist g.pending)
    (hperm : (pending.map PendingHandler.request ++ resumed.map Prod.fst).Perm
      (g.pending.map PendingHandler.request)) :
    Settles g { g with pending := pending, resumed := g.resumed ++ resumed } := by
  refine ⟨rfl, rfl, hsub, List.prefix_append _ _, ?_⟩
  unfold Gateway.handled
  rw [List.map_append]
  have hback : (pending.map PendingHandler.request ++ (g.resumed.map Prod.fst ++ resumed.map Prod.fst)).Perm
      ((pending.map PendingHandler.request ++ resumed.map Prod.fst) ++ g.resumed.map Prod.fst) := by
    rw [List.append_assoc]
    exact List.perm_append_comm.append_left _
  exact hback.trans (hperm.append_right _)

theorem settles_handleEvent (g : Gateway) (requestId : Nat) (object : Option TdObject) :
    Settles g (g.handleEvent requestId object) := by
  unfold handleEvent
  split
  · exact .refl g
  · rename_i obj
    split
    · exact .refl g
    · split
      · exact .refl g
      · rename_i h hfind
        have hmem := List.mem_of_find?_eq_some hfind
        refine .of_perm List.erase_sublist ?_
        have hperm := (List.perm_cons_erase hmem).map PendingHandler.request
        exact (List.perm_append_singleton _ _).trans hperm.symm

theorem settles_evictStale (g : Gateway) (ttl now : Int) : Settles g (g.evictStale ttl now) := by
  rw [evictStale_eq]
  refine .of_perm List.filter_sublist ?_
  rw [List.map_map]
  have hperm := (List.filter_append_perm (stale ttl now) g.pending).map PendingHandler.request
  rw [List.map_append] at hperm
  exact List.perm_append_comm.trans hperm

theorem settles_drain (g : Gateway) : Settles g g.drain := by
  rw [drain_eq]
  refine .of_perm (List.nil_sublist _) ?_
  rw [List.map_map]
  exact .refl _

structure Inv (g : Gateway) : Prop where
  next : g.nextRequestId = 1000 + g.sent.length
  sent : g.sent = (List.range g.sent.length).map (1000 + ·)
  ids : ∀ h ∈ g.pending, h.id = 1000 + h.request
  handled : g.handled.Perm (List.range g.sent.length)

theorem inv_start : Inv start where
  next := rfl
  sent := rfl
  ids _ hh := absurd hh List.not_mem_nil
  handled := .nil

namespace Inv

theorem request_lt (hg : Inv g) {h : PendingHandler} (hh : h ∈ g.pending) : h.request < g.sent.length := by
  have hmem : h.request ∈ g.handled := List.mem_append_left _ (List.mem_map_of_mem hh)
  exact List.mem_range.1 (hg.handled.mem_iff.1 hmem)

/-- As long as the counter does not wrap, a new request has a new id. -/
theorem sendRequest (hg : Inv g) (hfew : g.sent.length < 9223372036854775808) (now : Int) :
    Inv (g.sendRequest now) := by
  have hnew : g.pending.any (·.id == g.nextRequestId) = false := by
    rw [List.any_eq_false]
    intro h hh
    have hid := hg.ids h hh
    have hlt := hg.request_lt hh
    have hnext := hg.next
    simp only [beq_iff_eq]
    omega
  unfold Gateway.sendRequest registerHandler
  simp only [hnew, Bool.false_eq_true, if_false]
  refine ⟨?_, ?_, ?_, ?_⟩
  · have hnext := hg.next
    simp only [List.length_append, List.length_singleton, uint64Size]
    omega
  · simp only [List.length_append, List.length_singleton, List.range_succ, List.map_append,
      List.map_singleton, ← hg.next]
    rw [← hg.sent]
  · intro h hh
    rcases List.mem_append.1 hh with hh | hh
    · exact hg.ids h hh
    · rw [List.mem_singleton.1 hh]
      exact hg.next
  · have hperm := hg.handled
    unfold Gateway.handled at hperm ⊢
    simp only [List.length_append, List.length_singleton, List.range_succ, List.map_append,
      List.map_singleton, List.append_assoc, List.singleton_append]
    exact (List.perm_middle.trans (hperm.cons _)).trans (List.perm_append_singleton _ _).symm

theorem settle (hg : Inv g) (h : Settles g g') : Inv g' := by
  refine ⟨?_, ?_, fun p hp => hg.ids p (h.pending.subset hp), ?_⟩
  · rw [h.nextRequestId, h.sent]
    exact hg.next
  · rw [h.sent]
    exact hg.sent
  · rw [h.sent]
    exact h.handled.trans hg.handled

end Inv

theorem sent_sendRequest (g : Gateway) (now : Int) :
    (g.sendRequest now).sent = g.sent ++ [g.nextRequestId] := by
  unfold sendRequest registerHandler
  dsimp only
  split <;> rfl

theorem resumed_sendRequest (g : Gateway) (now : Int) : (g.sendRequest now).resumed = g.resumed := by
  unfold sendRequest registerHandler
  dsimp only
  split <;> rfl

/-- A request whose id is still taken has no handler. -/
theorem handled_sendRequest (g : Gateway) (now : Int) : (g.sendRequest now).handled = g.handled ∨
    (g.sendRequest now).handled.Perm (g.sent.length :: g.handled) := by
  unfold sendRequest registerHandler
  dsimp only
  split
  · exact .inl rfl
  · refine .inr ?_
    unfold handled
    rw [List.map_append, List.append_assoc]
    exact List.perm_middle

/-- A handler is called with what the event says. -/
def Answers (e : Event) (h : PendingHandler) (obj : TdObject) : Prop :=
  obj = timedOut ∨ obj = clientStopped ∨ e = .handleEvent h.id (some obj)

/-- A step sends at most one request, and resumes only what is pending. -/
theorem step_inv (ttl : Int) (g : Gateway) (e : Event) :
    g.sent <+: (g.step ttl e).sent ∧ ∃ new, (g.step ttl e).resumed = g.resumed ++ new ∧
      ∀ r ∈ new, ∃ h ∈ g.pending, h.request = r.1 ∧ Answers e h r.2 := by
  cases e with
  | sendRequest now =>
    refine ⟨?_, [], ?_, fun r hr => absurd hr List.not_mem_nil⟩
    · exact ⟨[g.nextRequestId], (sent_sendRequest g now).symm⟩
    · rw [List.append_nil]
      exact resumed_sendRequest g now
  | handleEvent requestId object =>
    unfold step handleEvent
    dsimp only
    split
    · exact ⟨List.prefix_rfl, [], by simp, fun r hr => absurd hr List.not_mem_nil⟩
    · split
      · exact ⟨List.prefix_rfl, [], by simp, fun r hr => absurd hr List.not_mem_nil⟩
      · split
        · exact ⟨List.prefix_rfl, [], by simp, fun r hr => absurd hr List.not_mem_nil⟩
        · rename_i obj _ _ h hfind
          refine ⟨List.prefix_rfl, [(h.request, obj)], rfl, fun r hr => ?_⟩
          rw [List.mem_singleton.1 hr]
          have hid : h.id = requestId := by simpa using List.find?_some hfind
          exact ⟨h, List.mem_of_find?_eq_some hfind, rfl, .inr (.inr (by rw [hid]))⟩
  | evictStale now =>
    simp only [step, evictStale_eq]
    refine ⟨List.prefix_rfl, _, rfl, fun r hr => ?_⟩
    obtain ⟨h, hh, rfl⟩ := List.mem_map.1 hr
    exact ⟨h, (List.mem_filter.1 hh).1, rfl, .inl rfl⟩
  | drain =>
    simp only [step, drain_eq]
    refine ⟨List.prefix_rfl, _, rfl, fun r hr => ?_⟩
    obtain ⟨h, hh, rfl⟩ := List.mem_map.1 hr
    exact ⟨h, hh, rfl, .inr (.inl rfl)⟩

theorem Inv.step (hg : Inv g) (hfew : (g.step ttl e).sent.length < 9223372036854775808) :
    Inv (g.step ttl e) := by
  cases e with
  | sendRequest now =>
    refine hg.sendRequest ?_ now
    have hle := ((step_inv ttl g (.sendRequest now)).1).length_le
    omega
  | handleEvent requestId object => exact hg.settle (settles_handleEvent g requestId object)
  | evictStale now => exact hg.settle (settles_evictStale g ttl now)
  | drain => exact hg.settle (settles_drain g)

/-! ### Runs -/

variable {t : List Event}

/-- Every call of a handler was with what some event of the run says. -/
def Answered (t : List Event) (g : Gateway) : Prop :=
  ∀ r ∈ g.resumed, ∃ id, g.sent[r.1]? = some id ∧
    (r.2 = timedOut ∨ r.2 = clientStopped ∨ .handleEvent id (some r.2) ∈ t)

theorem Inv.sent_get (hg : Inv g) {n : Nat} (hn : n < g.sent.length) : g.sent[n]? = some (1000 + n) := by
  rw [hg.sent]
  simp [hn]

theorem Inv.answered_step (hg : Inv g) (ht : Answered t g) : Answered (t ++ [e]) (g.step ttl e) := by
  obtain ⟨hsent, new, hresumed, hnew⟩ := step_inv ttl g e
  obtain ⟨more, hmore⟩ := hsent
  have hget : ∀ (n : Nat) (id : Nat), g.sent[n]? = some id → (g.step ttl e).sent[n]? = some id := by
    intro n id hid
    obtain ⟨hlt, -⟩ := List.getElem?_eq_some_iff.1 hid
    rw [← hmore, List.getElem?_append_left hlt]
    exact hid
  intro r hr
  rw [hresumed, List.mem_append] at hr
  rcases hr with hr | hr
  · obtain ⟨id, hid, hobj⟩ := ht r hr
    refine ⟨id, hget _ _ hid, ?_⟩
    rcases hobj with hobj | hobj | hobj
    · exact .inl hobj
    · exact .inr (.inl hobj)
    · exact .inr (.inr (List.mem_append_left _ hobj))
  · obtain ⟨h, hh, hreq, hobj⟩ := hnew r hr
    have hid := hg.sent_get (hg.request_lt hh)
    rw [← hg.ids h hh, hreq] at hid
    refine ⟨h.id, hget _ _ hid, ?_⟩
    rcases hobj with hobj | hobj | hobj
    · exact .inl hobj
    · exact .inr (.inl hobj)
    · exact .inr (.inr (List.mem_append_right _ (List.mem_singleton.2 hobj.symm)))

theorem inv_runs (h : (machine ttl).Runs start t g) (hfew : g.sent.length < 9223372036854775808) :
    Inv g ∧ Answered t g := by
  induction h with
  | nil => exact ⟨inv_start, fun r hr => absurd hr List.not_mem_nil⟩
  | @snoc g₁ g₂ t e h hp hs ih =>
    cases hs
    have hle := (step_inv ttl g₁ e).1.length_le
    obtain ⟨hinv, hans⟩ := ih (lt_of_le_of_lt hle hfew)
    exact ⟨hinv.step hfew, hinv.answered_step hans⟩

/-- What has been resumed stays resumed. -/
theorem resumed_runs (h : (machine ttl).Runs g t g') : g.resumed <+: g'.resumed ∧ g.sent <+: g'.sent := by
  refine h.invariant (I := fun g' => g.resumed <+: g'.resumed ∧ g.sent <+: g'.sent)
    ⟨List.prefix_rfl, List.prefix_rfl⟩ ?_
  rintro g₁ e g₂ - ⟨hresumed, hsent⟩ hs
  cases hs
  obtain ⟨hsent', new, hnew, -⟩ := step_inv ttl g₁ e
  refine ⟨hresumed.trans ?_, hsent.trans hsent'⟩
  rw [hnew]
  exact List.prefix_append _ _

/-- What is pending has been sent and not been resumed. -/
theorem Inv.mem_pending_iff (h : Inv g) (n : Nat) :
    n ∈ g.pending.map PendingHandler.request ↔
      n < g.sent.length ∧ n ∉ g.resumed.map Prod.fst := by
  have hnodup : g.handled.Nodup := h.handled.nodup_iff.2 List.nodup_range
  have hmem := h.handled.mem_iff (a := n)
  rw [List.mem_range] at hmem
  unfold Gateway.handled at hmem
  rw [List.mem_append] at hmem
  constructor
  · intro hn
    exact ⟨hmem.1 (.inl hn), fun hn' => (List.nodup_append.1 hnodup).2.2 n hn n hn' rfl⟩
  · rintro ⟨hlt, hn⟩
    exact (hmem.2 hlt).resolve_right hn

/-- Nothing is pending after the drain. -/
theorem Inv.resumed_drain (h : Inv g) {n : Nat} (hn : n < g.sent.length) :
    n ∈ g.drain.resumed.map Prod.fst := by
  have hdrained := (h.settle (settles_drain g)).handled
  rw [drain_eq] at hdrained ⊢
  exact hdrained.mem_iff.2 (List.mem_range.2 hn)

/-- In any sequence of steps with fewer than 2^63 requests: no two requests have the same id; each is
resumed at most once, with a response that has its id or with the gateway's own 408 or 499; the
pending ones are just those that are sent and not resumed; and the drain resumes every request that
was sent before it. -/
theorem requests_resolve (h : (machine ttl).Runs start t g) (hfew : g.sent.length < 9223372036854775808) :
    g.sent.Nodup ∧ (g.resumed.map Prod.fst).Nodup ∧ Answered t g ∧
    (g.pending.map PendingHandler.request).Nodup ∧
    (∀ n, n ∈ g.pending.map PendingHandler.request ↔
      n < g.sent.length ∧ n ∉ g.resumed.map Prod.fst) ∧
    (∀ p ∈ g.pending, g.sent[p.request]? = some p.id) ∧
    ∀ t₁ t₂ g₁, t = t₁ ++ .drain :: t₂ → (machine ttl).Runs start t₁ g₁ →
      ∀ n < g₁.sent.length, n ∈ g.resumed.map Prod.fst := by
  obtain ⟨hinv, hans⟩ := inv_runs h hfew
  have hnodup : g.handled.Nodup := hinv.handled.nodup_iff.2 List.nodup_range
  obtain ⟨hpending, hresumed, -⟩ := List.nodup_append.1 hnodup
  refine ⟨?_, hresumed, hans, hpending, hinv.mem_pending_iff, ?_, ?_⟩
  · rw [hinv.sent]
    exact List.nodup_range.map fun a b hab => Nat.add_left_cancel hab
  · intro p hp
    rw [hinv.ids p hp]
    exact hinv.sent_get (hinv.request_lt hp)
  · rintro t₁ t₂ g₁ rfl h₁ n hn
    obtain ⟨g₁', h₁', h₂⟩ := h.append_inv
    cases h₁'.det h₁
    obtain ⟨g₂, -, hs, h₃⟩ := h₂.cons_inv
    cases hs
    obtain ⟨hgrow, hsent⟩ := resumed_runs h₃
    simp only [step] at hgrow hsent
    have hlen : g₁.sent.length ≤ g.sent.length := by
      rw [drain_eq] at hsent
      exact hsent.length_le
    obtain ⟨hinv₁, -⟩ := inv_runs h₁ (lt_of_le_of_lt hlen hfew)
    exact (hgrow.map Prod.fst).subset (hinv₁.resumed_drain hn)

/-- A request that is answered, one that the sweep takes, whose answer comes too late, and one that
the drain takes. -/
def mixedRun : List Event :=
  [.sendRequest 0, .sendRequest 5, .handleEvent 1000 (some .ok), .handleEvent 1000 (some .ok),
    .evictStale 40, .handleEvent 1001 (some .ok), .sendRequest 50, .evictStale 60, .drain]

theorem requests_resolve_mixed : ∃ g, (machine kDefaultRequestTtl).Runs start mixedRun g ∧
    g.resumed = [(0, .ok), (1, timedOut), (2, clientStopped)] ∧ (g.resumed.map Prod.fst).Nodup := by
  have hobs : ((machine kDefaultRequestTtl).run start mixedRun).map
      (fun g => (g.resumed, g.sent.length)) =
        some ([(0, .ok), (1, timedOut), (2, clientStopped)], 3) := by decide
  obtain ⟨g, hg, ho⟩ := Machine.exists_runs hobs
  obtain ⟨hresumed, hlen⟩ := Prod.mk.inj ho
  exact ⟨g, hg, hresumed, (requests_resolve hg (by rw [hlen]; decide)).2.1⟩

end Gateway

end Cmlb.Telegram
