import Mathlib.Data.Finset.Basic
import Cmlb.Lib.Interleave
import Cmlb.Download.Qbittorrent

/-!
# qBittorrent sessions (`ensure_login`, `login`, `authed_request`)

Any number of `authed_request` runs share one client: its session id and the `connected_` flag. The
server answers 403 exactly when the cookie is not a session id it has issued; sessions expire only
before the runs start, so the ids it has issued (`issued`) only grow. A run that gets a 403 clears the
session, logs in, and retries once with whatever id the client then holds. Another run can clear the
session again between that login and that read, and the retry is then a 403 too; when no run clears
it there, no run returns a 403 (`no_forbidden`).

Both fields are written under the mutex. A read of the flag that sees only half of such a write sees
what it would have seen before or after it, so a write is one step.
-/

namespace Cmlb.Qbittorrent

/-- What follows the first `SID=`. -/
def afterSid : List Char → Option (List Char)
  | 'S' :: 'I' :: 'D' :: '=' :: rest => some rest
  | _ :: cs => afterSid cs
  | [] => none

def parseSid (setCookie : String) : String :=
  match afterSid setCookie.toList with
  | none => ""
  | some rest => String.ofList (rest.takeWhile (· != ';'))

/-- The session id in a header, if it is a `Set-Cookie` with one. -/
def headerSid (header : String × String) : Option String :=
  if header.1 = "Set-Cookie" ∨ header.1 = "set-cookie" then
    if parseSid header.2 = "" then none else some (parseSid header.2)
  else none

/-- What `login` makes of the answer to `auth/login`. -/
def loginSid (resp : HttpResponse) : Result String :=
  if resp.statusCode ≠ 200 then
    .error ⟨.unauthenticated, "qBittorrent login HTTP " ++ toString resp.statusCode⟩
  else if ¬ "Ok.".toList <:+: resp.body.toList then
    .error ⟨.unauthenticated, "qBittorrent login rejected: " ++ resp.body⟩
  else
    match resp.headers.findSome? headerSid with
    | some sid => .ok sid
    | none => .error ⟨.unauthenticated, "qBittorrent login: SID cookie missing"⟩

/-- The client's session and the ids that the server has issued since sessions expired. -/
structure Client where
  sessionId : String
  connected : Bool
  issued : Finset String

namespace Client

def storeSession (c : Client) (sid : String) : Client :=
  { c with sessionId := sid, connected := !sid.isEmpty }

def clearSession (c : Client) : Client := { c with sessionId := "", connected := false }

def issue (c : Client) (sid : String) : Client := { c with issued := insert sid c.issued }

end Client

/-- The two requests of a run; each can be preceded by a login. -/
inductive Attempt
  | first | retry
deriving DecidableEq

inductive AuthPc
  | ensuringLogin
  | loggingIn (k : Attempt)
  | storing (k : Attempt) (sid : String)
  | pushingPreferences (k : Attempt)
  -- About to read `session_id()` for the request
  | reading (k : Attempt)
  | requesting (k : Attempt) (cookie : String)
  | clearing
  | returned (r : Result HttpResponse)

/-- The run has stored the session of its second login and not read it yet. -/
def AuthPc.awaitsSession : AuthPc → Bool
  | .pushingPreferences .retry | .reading .retry => true
  | _ => false

inductive AuthEvent
  | run
  | login (resp : Result HttpResponse)
  | preferences (resp : Result HttpResponse)
  | response (resp : Result HttpResponse)

/-- `authed_request`, up to its next lock section or `co_await`. -/
def authedRequest (c : Client) (pc : AuthPc) (e : AuthEvent) : Option (Client × AuthPc) :=
  match pc, e with
  | .ensuringLogin, .run => some (c, if c.connected then .reading .first else .loggingIn .first)
  | .loggingIn k, .login resp =>
    match resp.bind loginSid with
    | .error err => some (c, .returned (.error err))
    | .ok sid => some (c.issue sid, .storing k sid)
  | .storing k sid, .run => some (c.storeSession sid, .pushingPreferences k)
  -- A failure to push the preferences is only logged
  | .pushingPreferences k, .preferences _ => some (c, .reading k)
  | .reading k, .run => some (c, .requesting k c.sessionId)
  | .requesting _ _, .response (.error err) => some (c, .returned (.error err))
  | .requesting k cookie, .response (.ok resp) =>
    if (resp.statusCode = 403) ↔ cookie ∈ c.issued then none
    else if resp.statusCode = 403 ∧ k = .first then some (c, .clearing)
    else some (c, .returned (.ok resp))
  | .clearing, .run => some (c.clearSession, .loggingIn .retry)
  | _, _ => none

variable {ι : Type}

def authedRequests : Interleaving ι Client AuthPc Empty AuthEvent where
  env _ e := e.elim
  act _ := authedRequest

/-- A run that clears the session does it while no other run awaits one. -/
def ClearsAlone (s : Sys ι Client AuthPc) : SysEvent ι Empty AuthEvent → Prop
  | .act i _ => s.locals i = .clearing → ∀ j, j ≠ i → (s.locals j).awaitsSession = false
  | .env _ => True

/-- What is known of a run: past its second login, the session it holds is one the server takes. -/
def AuthOk (c : Client) : AuthPc → Prop
  | .storing _ sid => sid ∈ c.issued
  | .pushingPreferences .retry | .reading .retry => c.sessionId ∈ c.issued
  | .requesting .retry cookie => cookie ∈ c.issued
  | .returned r => ∀ resp, r = .ok resp → resp.statusCode ≠ 403
  | _ => True

/-- What a step of a run does to the client. -/
inductive ClientStep (c : Client) (pc : AuthPc) : Client → Prop
  | same : ClientStep c pc c
  | issue (sid : String) : ClientStep c pc (c.issue sid)
  | store (k : Attempt) (sid : String) (h : pc = .storing k sid) : ClientStep c pc (c.storeSession sid)
  | clear (h : pc = .clearing) : ClientStep c pc c.clearSession

variable {c c' : Client} {pc pc' : AuthPc} {e : AuthEvent} {sid : String}

theorem returned_error (c : Client) (err : AppError) : AuthOk c (.returned (.error err)) := by
  intro resp hresp
  cases hresp

theorem AuthOk.own (h : AuthOk c pc) (hs : authedRequest c pc e = some (c', pc')) :
    AuthOk c' pc' ∧ ClientStep c pc c' := by
  unfold authedRequest at hs
  split at hs
  · cases hs
    refine ⟨?_, .same⟩
    split <;> trivial
  · split at hs
    · cases hs
      exact ⟨returned_error c _, .same⟩
    · cases hs
      exact ⟨Finset.mem_insert_self _ _, .issue _⟩
  · rename_i k sid
    cases hs
    refine ⟨?_, .store k sid rfl⟩
    cases k with
    | first => trivial
    | retry => exact h
  · rename_i k _
    cases hs
    refine ⟨?_, .same⟩
    cases k with
    | first => trivial
    | retry => exact h
  · rename_i k
    cases hs
    refine ⟨?_, .same⟩
    cases k with
    | first => trivial
    | retry => exact h
  · cases hs
    exact ⟨returned_error c _, .same⟩
  · rename_i k cookie resp
    split at hs
    · cases hs
    rename_i hserver
    split at hs
    · cases hs
      exact ⟨trivial, .same⟩
    · rename_i hgive
      cases hs
      refine ⟨fun resp' hresp => ?_, .same⟩
      cases hresp
      intro h403
      cases k with
      | first => exact hgive ⟨h403, rfl⟩
      | retry => exact hserver ⟨fun _ => h, fun _ => h403⟩
  · cases hs
    exact ⟨trivial, .clear rfl⟩
  · cases hs

theorem AuthOk.issue (h : AuthOk c pc) (sid : String) : AuthOk (c.issue sid) pc := by
  have hgrow : ∀ x, x ∈ c.issued → x ∈ (c.issue sid).issued := fun x => Finset.mem_insert_of_mem
  unfold AuthOk at h ⊢
  split at h <;> first | exact hgrow _ h | exact h

theorem AuthOk.store (h : AuthOk c pc) (hsid : sid ∈ c.issued) : AuthOk (c.storeSession sid) pc := by
  unfold AuthOk at h ⊢
  split at h <;> first | exact hsid | exact h

theorem AuthOk.clear (h : AuthOk c pc) (hpc : pc.awaitsSession = false) : AuthOk c.clearSession pc := by
  unfold AuthOk at h ⊢
  split at h <;> first | exact h | cases hpc

variable [DecidableEq ι]

/-- When no run clears the session while another awaits the one it has just stored, no run returns
a 403, from whatever session the client starts with. -/
theorem no_forbidden (c : Client) {t : List (SysEvent ι Empty AuthEvent)} {s : Sys ι Client AuthPc}
    (h : authedRequests.machine.Steps ClearsAlone ⟨c, fun _ => .ensuringLogin⟩ t s) :
    ∀ i resp, s.locals i = .returned (.ok resp) → resp.statusCode ≠ 403 := by
  have hok : ∀ i, AuthOk s.shared (s.locals i) := by
    refine Interleaving.each (A := fun _ => AuthOk) ?_ ?_ ?_ ?_ h
    · exact fun _ => trivial
    · intro s i e c' pc' _ hA hs
      exact ((hA i).own hs).1
    · intro s i e c' pc' hclear hA hs j hj
      have hA' := hA i
      cases ((hA i).own hs).2 with
      | same => exact hA j
      | issue sid => exact (hA j).issue sid
      | store k sid hpc =>
        rw [hpc] at hA'
        exact (hA j).store hA'
      | clear hpc => exact (hA j).clear (hclear hpc j hj)
    · intro s e
      exact e.elim
  intro i resp hi
  have hA := hok i
  rw [hi] at hA
  exact hA resp rfl

/-! Two runs with an expired session -/

def expired : Client := ⟨"old", true, ∅⟩

def forbidden : AuthEvent := .response (.ok ⟨403, "Forbidden", []⟩)

def accepted : AuthEvent := .response (.ok ⟨200, "[]", []⟩)

def loggedIn (cookie : String) : AuthEvent := .login (.ok ⟨200, "Ok.", [("set-cookie", cookie)]⟩)

def preferencesSet : AuthEvent := .preferences (.ok ⟨200, "", []⟩)

/-- A run that finds its session expired, up to the store of the new one. -/
def reauthenticate (i : Bool) (cookie : String) : List (SysEvent Bool Empty AuthEvent) :=
  [.act i .run, .act i (loggedIn cookie), .act i .run]

/-- Both runs get a 403, and the second one logs in when the first is through. -/
def retriesInTurn : List (SysEvent Bool Empty AuthEvent) :=
  [.act false .run, .act true .run, .act false .run, .act true .run, .act false forbidden,
    .act true forbidden] ++
  reauthenticate false "SID=s1; path=/" ++ [.act false preferencesSet, .act false .run, .act false accepted] ++
  reauthenticate true "SID=s2; path=/" ++ [.act true preferencesSet, .act true .run, .act true accepted]

/-- The second run clears the session that the first has just stored. -/
def retriesCrossed : List (SysEvent Bool Empty AuthEvent) :=
  [.act false .run, .act true .run, .act false .run, .act true .run, .act false forbidden,
    .act true forbidden] ++
  reauthenticate false "SID=s1; path=/" ++
  [.act true .run, .act false preferencesSet, .act false .run, .act false forbidden]

def returnedStatus : AuthPc → Option Nat
  | .returned (.ok resp) => some resp.statusCode
  | _ => none

theorem exists_of_returnedStatus {n : Nat} (h : returnedStatus pc = some n) :
    ∃ resp, pc = .returned (.ok resp) ∧ resp.statusCode = n := by
  unfold returnedStatus at h
  split at h <;> cases h
  exact ⟨_, rfl, rfl⟩

def AuthPc.isClearing : AuthPc → Bool
  | .clearing => true
  | _ => false

/-- `ClearsAlone` for two runs. -/
def clearsAlone (s : Sys Bool Client AuthPc) : SysEvent Bool Empty AuthEvent → Bool
  | .act i _ => !(s.locals i).isClearing || !(s.locals !i).awaitsSession
  | .env _ => true

theorem clearsAlone_iff {s : Sys Bool Client AuthPc} {e : SysEvent Bool Empty AuthEvent}
    (h : clearsAlone s e = true) : ClearsAlone s e := by
  cases e with
  | env e => trivial
  | act i e =>
    intro hi j hj
    have hji : j = !i := by
      revert hj
      cases i <;> cases j <;> decide
    simp only [clearsAlone, hi, AuthPc.isClearing, Bool.not_true, Bool.false_or,
      Bool.not_eq_true'] at h
    rw [hji]
    exact h

set_option maxRecDepth 4000 in
theorem no_forbidden_in_turn : ∃ s resp, authedRequests.machine.Runs
    ⟨expired, fun _ => .ensuringLogin⟩ retriesInTurn s ∧ s.locals true = .returned (.ok resp) ∧
      resp.statusCode ≠ 403 := by
  have hobs : (authedRequests.machine.runIf clearsAlone ⟨expired, fun _ => .ensuringLogin⟩
      retriesInTurn).map (fun s => returnedStatus (s.locals true)) = some (some 200) := by decide
  obtain ⟨s, hs, ho⟩ := Machine.exists_steps hobs
  obtain ⟨resp, hresp, -⟩ := exists_of_returnedStatus ho
  exact ⟨s, resp, hs.runs, hresp, no_forbidden expired (hs.mono fun s e => clearsAlone_iff) true resp hresp⟩

set_option maxRecDepth 4000 in
/-- The retry of the first run carries the session id that the second has cleared. -/
theorem forbidden_returned : ¬ ∀ (c : Client) (t : List (SysEvent Bool Empty AuthEvent))
    (s : Sys Bool Client AuthPc),
    authedRequests.machine.Runs ⟨c, fun _ => .ensuringLogin⟩ t s →
      ∀ i resp, s.locals i = .returned (.ok resp) → resp.statusCode ≠ 403 := by
  intro hall
  have hobs : (authedRequests.machine.run ⟨expired, fun _ => .ensuringLogin⟩ retriesCrossed).map
      (fun s => returnedStatus (s.locals false)) = some (some 403) := by decide
  obtain ⟨s, hs, ho⟩ := Machine.exists_runs hobs
  obtain ⟨resp, hresp, h403⟩ := exists_of_returnedStatus ho
  exact hall expired _ s hs false resp hresp h403

end Cmlb.Qbittorrent
