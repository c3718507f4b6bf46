import Cmlb.Http.BeastClient
import Cmlb.Download.AuthedRequest

/-!
# The session cookie (`login`, `push_preferences`, `authed_request`)

A run of `authed_request` as a program over the client's session and the HTTP client. Other runs
share the session, so what a read of it finds is arbitrary. The HTTP client takes the cookie for an
ordinary header: of the headers it sends along on a redirect it drops only `Authorization`. The
cookie stays with its server exactly as long as no redirect that is followed leads away from there
(`cookie_stays_iff`).
-/

namespace Cmlb.Qbittorrent

open Http

/-- What the requests need of `QbittorrentConfig`: `loginForm` is the form with the credentials, and
`preferencesForm` the one with the preferences. -/
structure Config where
  url : String
  loginForm : String
  preferencesForm : String

namespace Config

/-- `config_.url` after the constructor has stripped it. -/
def baseUrl (cfg : Config) : String := String.ofList (cfg.url.toList.rdropWhile (· == '/'))

/-- `Impl::url`. -/
def pathUrl (cfg : Config) (path : String) : String :=
  if path ≠ "" ∧ ¬"/".toList <+: path.toList then cfg.baseUrl ++ "/" ++ path else cfg.baseUrl ++ path

end Config

/-- In milliseconds. -/
def kDefaultRequestTimeout : Int := 30000

namespace Impl

inductive Call
  | connected
  | sessionId
  | storeSession (sid : String)
  | clearSession
  | request (req : HttpRequest)

abbrev Call.Answer : Call → Type
  | .connected => Bool
  | .sessionId => String
  | .storeSession _ | .clearSession => Unit
  | .request _ => Result HttpResponse

abbrev Program := Prog Call Call.Answer

def formHeader : HttpHeader := ("Content-Type", "application/x-www-form-urlencoded")

def cookieHeader (sid : String) : HttpHeader := ("Cookie", "SID=" ++ sid)

def loginRequest (cfg : Config) : HttpRequest :=
  { method := .post
    url := cfg.pathUrl "/api/v2/auth/login"
    headers := [formHeader, ("Referer", cfg.baseUrl)]
    body := cfg.loginForm
    timeout := kDefaultRequestTimeout }

def preferencesRequest (cfg : Config) (sid : String) : HttpRequest :=
  { method := .post
    url := cfg.pathUrl "/api/v2/app/setPreferences"
    headers := [formHeader, ("Referer", cfg.baseUrl), cookieHeader sid]
    body := cfg.preferencesForm
    timeout := kDefaultRequestTimeout }

def pushPreferences (cfg : Config) : Program (Result Unit) := do
  let sid : String ← Prog.ask Call.sessionId
  let resp : Result HttpResponse ← Prog.ask (Call.request (preferencesRequest cfg sid))
  match resp with
  | .error e => pure (.error e)
  | .ok resp =>
    if resp.statusCode ≠ 200 then
      pure (.error ⟨.qbittorrentApi,
        "setPreferences HTTP " ++ toString resp.statusCode ++ ": " ++ resp.body⟩)
    else pure (.ok ())

def login (cfg : Config) : Program (Result Unit) := do
  let resp : Result HttpResponse ← Prog.ask (Call.request (loginRequest cfg))
  match resp.bind loginSid with
  | .error e => pure (.error e)
  | .ok sid =>
    Prog.ask (Call.storeSession sid)
    -- A failure is only logged
    let _ ← pushPreferences cfg
    pure (.ok ())

def ensureLogin (cfg : Config) : Program (Result Unit) := do
  let connected : Bool ← Prog.ask Call.connected
  if connected then pure (.ok ()) else login cfg

def authedRequest (cfg : Config) (req : HttpRequest) : Program (Result HttpResponse) := do
  match ← ensureLogin cfg with
  | .error e => pure (.error e)
  | .ok () =>
    let sid : String ← Prog.ask Call.sessionId
    let first := { req with headers := req.headers ++ [cookieHeader sid] }
    let resp : Result HttpResponse ← Prog.ask (Call.request first)
    match resp with
    | .error e => pure (.error e)
    | .ok resp =>
      if resp.statusCode = 403 then
        Prog.ask Call.clearSession
        let headers := first.headers.filter fun h => h.1 != "Cookie"
        match ← login cfg with
        | .error e => pure (.error e)
        | .ok () =>
          let sid : String ← Prog.ask Call.sessionId
          Prog.ask (Call.request { req with headers := headers ++ [cookieHeader sid] })
      else pure (.ok resp)

/-- Every caller of `authed_request` names an endpoint of the API. -/
def apiUrl (cfg : Config) (endpoint : String) : String := cfg.pathUrl ("/api/v2/" ++ endpoint)

/-! ### What is issued -/

/-- A request that a run gives to the HTTP client: it is for the API of the configured server, and
has the cookie, as its last header, unless it is a login. -/
structure Issued (cfg : Config) (req : HttpRequest) : Prop where
  url : ∃ endpoint, req.url = apiUrl cfg endpoint
  headers : req = loginRequest cfg ∨ ∃ headers sid, req.headers = headers ++ [cookieHeader sid]

/-- The calls of a run. -/
def Allowed (cfg : Config) : Call → Prop
  | .request req => Issued cfg req
  | _ => True

variable {cfg : Config}

theorem issued_login : Issued cfg (loginRequest cfg) := ⟨⟨"auth/login", rfl⟩, .inl rfl⟩

theorem issued_preferences (sid : String) : Issued cfg (preferencesRequest cfg sid) :=
  ⟨⟨"app/setPreferences", rfl⟩, .inr ⟨[formHeader, ("Referer", cfg.baseUrl)], sid, rfl⟩⟩

theorem only_pushPreferences : (pushPreferences cfg).Only (Allowed cfg) := by
  refine .ask_bind trivial fun sid => .ask_bind (issued_preferences sid) fun resp => ?_
  cases resp with
  | error e => exact .pure _
  | ok resp =>
    dsimp only
    split <;> exact .pure _

theorem only_login : (login cfg).Only (Allowed cfg) := by
  refine .ask_bind issued_login fun resp => ?_
  split
  · exact .pure _
  · refine .ask_bind trivial fun _ => ?_
    exact only_pushPreferences.bind fun _ => .pure _

theorem only_ensureLogin : (ensureLogin cfg).Only (Allowed cfg) := by
  refine .ask_bind trivial fun connected => ?_
  split
  · exact .pure _
  · exact only_login

theorem only_authedRequest {req : HttpRequest} {endpoint : String} (hurl : req.url = apiUrl cfg endpoint) :
    (authedRequest cfg req).Only (Allowed cfg) := by
  have hissued (headers : List HttpHeader) (sid : String) :
      Issued cfg { req with headers := headers ++ [cookieHeader sid] } :=
    ⟨⟨endpoint, hurl⟩, .inr ⟨headers, sid, rfl⟩⟩
  refine only_ensureLogin.bind fun ready => ?_
  split
  · exact .pure _
  · refine .ask_bind trivial fun sid => .ask_bind (hissued req.headers sid) fun resp => ?_
    cases resp with
    | error e => exact .pure _
    | ok resp =>
      dsimp only
      split
      · refine .ask_bind trivial fun _ => only_login.bind fun again => ?_
        split
        · exact .pure _
        · exact .ask_bind trivial fun sid => .ask (hissued _ sid)
      · exact .pure _

/-! ### The origin of what is issued -/

/-- A scheme that opens the URL of an endpoint opens what the endpoint was added to. -/
theorem scheme_isPrefix {scheme base rest : List Char} (hscheme : 'a' ∉ scheme)
    (hbase : ∀ cs, base ≠ cs ++ ['/']) (hlast : ∃ cs, scheme = cs ++ ['/'] ++ ['/'])
    (h : scheme <+: base ++ '/' :: 'a' :: rest) : scheme <+: base := by
  obtain ⟨tail, htail⟩ := h
  rcases List.append_eq_append_iff.1 htail with ⟨more, rfl, -⟩ | ⟨more, rfl, hmore⟩
  · exact List.prefix_append _ _
  · match more with
    | [] => exact ⟨[], by simp⟩
    | [c] =>
      -- The base would end in the first of the scheme's two slashes
      obtain ⟨cs, hcs⟩ := hlast
      obtain ⟨hbase', -⟩ := List.append_inj' hcs rfl
      exact absurd hbase' (hbase cs)
    | c :: c' :: more =>
      obtain ⟨-, hmore⟩ := List.cons.inj hmore
      obtain ⟨rfl, -⟩ := List.cons.inj hmore
      exact absurd (by simp) hscheme

theorem splitScheme_append {base : List Char} {https : Bool} {authority : List Char}
    (h : splitScheme base = some (https, authority)) (path : List Char) :
    splitScheme (base ++ path) = some (https, authority ++ path) := by
  unfold splitScheme at h ⊢
  split at h
  · rename_i hs
    cases h
    have hlength : 8 ≤ base.length := hs.length_le
    rw [if_pos (List.prefix_append_of_prefix hs), List.drop_append_of_le_length hlength]
  · split at h
    · rename_i hp
      cases h
      have hnot : ¬"https://".toList <+: base ++ path := by
        intro hs
        have hboth := List.prefix_of_prefix_length_le (List.prefix_append_of_prefix hp) hs (by decide)
        exact absurd hboth (by decide)
      have hlength : 7 ≤ base.length := hp.length_le
      rw [if_neg hnot, if_pos (List.prefix_append_of_prefix hp), List.drop_append_of_le_length hlength]
    · cases h

theorem splitScheme_of_append {base rest : List Char} {p : Bool × List Char}
    (hbase : ∀ cs, base ≠ cs ++ ['/']) (h : splitScheme (base ++ '/' :: 'a' :: rest) = some p) :
    ∃ q, splitScheme base = some q := by
  unfold splitScheme at h ⊢
  split at h
  · rename_i hs
    have hs' : "https://".toList <+: base := scheme_isPrefix (by decide) hbase ⟨"https:".toList, rfl⟩ hs
    exact ⟨_, if_pos hs'⟩
  · split at h
    · rename_i hs
      have hs' : "http://".toList <+: base := scheme_isPrefix (by decide) hbase ⟨"http:".toList, rfl⟩ hs
      rw [if_pos hs']
      split <;> exact ⟨_, rfl⟩
    · cases h

/-- What stands before the path does not depend on it. -/
theorem takeWhile_slash (cs : List Char) {path : List Char} (hpath : path.takeWhile (· != '/') = []) :
    (cs ++ path).takeWhile (· != '/') = cs.takeWhile (· != '/') := by
  rw [List.takeWhile_append, hpath, List.append_nil]
  split
  · rename_i hall
    exact ((List.takeWhile_prefix _).eq_of_length hall).symm
  · rfl

theorem parseUrl_of_key {url : String} {https : Bool} {rest : List Char} {host port : String}
    (hscheme : splitScheme url.toList = some (https, rest))
    (hauthority : splitAuthority https (rest.takeWhile (· != '/')) = some (host, port)) :
    ∃ parsed, parseUrl url = some parsed ∧ parsed.key = ⟨https, host, port⟩ := by
  unfold parseUrl
  simp only [hscheme, hauthority]
  exact ⟨_, rfl, rfl⟩

theorem apiUrl_toList (cfg : Config) (endpoint : String) : ∃ rest,
    (apiUrl cfg endpoint).toList = cfg.url.toList.rdropWhile (· == '/') ++ '/' :: 'a' :: rest := by
  refine ⟨"pi/v2/".toList ++ endpoint.toList, ?_⟩
  have hpath : ("/api/v2/" ++ endpoint).toList = '/' :: 'a' :: ("pi/v2/".toList ++ endpoint.toList) := by
    rw [String.toList_append]
    rfl
  have hslash : "/".toList <+: ("/api/v2/" ++ endpoint).toList := by
    rw [hpath]
    exact ⟨_, rfl⟩
  unfold apiUrl Config.pathUrl
  rw [if_neg (fun h => h.2 hslash), String.toList_append, hpath]
  simp [Config.baseUrl]

/-- The requests of a run start at the origin of the configured URL. -/
theorem apiUrl_origin {endpoint : String} {parsed : ParsedUrl}
    (h : parseUrl (apiUrl cfg endpoint) = some parsed) : ¬Crosses cfg.url parsed.key := by
  obtain ⟨path, hpath⟩ := apiUrl_toList cfg endpoint
  obtain ⟨rest, hscheme, hauthority, -⟩ := parseUrl_eq_some h
  rw [hpath] at hscheme
  set base := cfg.url.toList.rdropWhile (· == '/') with hbase
  have hend : ∀ cs, base ≠ cs ++ ['/'] := by
    intro cs hcs
    have hne : base ≠ [] := by simp [hcs]
    have hlast := List.rdropWhile_last_not (· == '/') cfg.url.toList hne
    simp [← hbase, hcs] at hlast
  obtain ⟨⟨https, authority⟩, hbase'⟩ := splitScheme_of_append hend hscheme
  rw [splitScheme_append hbase'] at hscheme
  cases hscheme
  rw [takeWhile_slash authority rfl] at hauthority
  have hslashes : (cfg.url.toList.rtakeWhile (· == '/')).takeWhile (· != '/') = [] := by
    rw [List.takeWhile_eq_nil_iff]
    intro hpos
    have hmem := List.mem_rtakeWhile_imp (List.getElem_mem hpos)
    simpa using hmem
  have hscheme := splitScheme_append hbase' (cfg.url.toList.rtakeWhile (· == '/'))
  rw [hbase, List.rdropWhile_append_rtakeWhile] at hscheme
  rw [← takeWhile_slash authority hslashes] at hauthority
  obtain ⟨orig, horig, hkey⟩ := parseUrl_of_key hscheme hauthority
  intro hcross
  refine hcross orig horig ?_
  obtain ⟨hhttps, hhost, hport⟩ := EndpointKey.mk.inj hkey
  refine ⟨hhttps.symm, ?_, hport.symm⟩
  rw [hhost]
  exact beq_self_eq_true _

/-! ### The cookie -/

/-- The request carries the session id. -/
def CarriesSid (req : WireRequest) : Prop :=
  ∃ f ∈ req.fields, iequals f.1 "cookie" = true ∧ "SID=".toList <+: f.2.toList

/-- Nothing with the session id is sent to another origin. -/
def CookieStays (cfg : Config) (sent : List Exchanged) : Prop :=
  ∀ e ∈ sent, Crosses cfg.url e.key → ¬CarriesSid e.req

/-- No redirect that is followed by another request leads away from the configured origin. -/
def RedirectsWithin (cfg : Config) (sent : List Exchanged) : Prop :=
  ∀ before e e' after, sent = before ++ e :: e' :: after →
    ∀ target, e.target = some target → ¬Crosses cfg.url target.key

variable {dest : Option String} {orig : ParsedUrl} {left : Nat} {s : Hop} {sent : List Exchanged}
  {endpoint : String}

/-- As long as every redirect stays at the origin, every request is there. -/
theorem RedirectsWithin.origin (h : RedirectsWithin cfg sent) (hchain : Chain dest orig left s sent)
    (hurl : s.url = apiUrl cfg endpoint) : ∀ e ∈ sent, ¬Crosses cfg.url e.key := by
  intro e he
  obtain ⟨before, after, hsplit⟩ := List.append_of_mem he
  rcases List.eq_nil_or_concat before with rfl | ⟨before, e₀, rfl⟩
  · rw [hsplit] at hchain
    obtain ⟨parsed, hparsed, hkey⟩ := hchain.first
    rw [hurl] at hparsed
    rw [hkey]
    exact apiUrl_origin hparsed
  · rw [List.concat_append] at hsplit
    obtain ⟨target, htarget, hkey⟩ := hchain.next before e₀ e after hsplit
    rw [hkey]
    exact h before e₀ e after hsplit target htarget

theorem cookieHeader_name {sid : String} (name : String) (h : iequals "Cookie" name = false) :
    iequals (cookieHeader sid).1 name = false := h

theorem ownFields_cookie : ∀ own ∈ ownFields, iequals "Cookie" own = false := by decide

/-- A request with the cookie keeps it at the origin exactly when its redirects stay there. -/
theorem cookieStays_iff_of_chain (hchain : Chain dest orig left s sent)
    (hurl : s.url = apiUrl cfg endpoint) {sid : String} (hs : s.Ends (cookieHeader sid)) :
    CookieStays cfg sent ↔ RedirectsWithin cfg sent := by
  refine ⟨fun hstays before e e' after hsplit target htarget hcross => ?_, fun h e he hcross => ?_⟩
  · obtain ⟨target', htarget', hkey⟩ := hchain.next before e e' after hsplit
    rw [htarget] at htarget'
    cases htarget'
    have he' : e' ∈ sent := by simp [hsplit]
    have hcookie := hchain.ends hs (cookieHeader_name "authorization" (by decide))
      (fun own hown => cookieHeader_name own (ownFields_cookie own hown)) e' he'
    rw [← hkey] at hcross
    refine hstays e' he' hcross ⟨_, hcookie, ?_, ?_⟩
    · show iequals "Cookie" "cookie" = true
      decide
    · exact ⟨sid.toList, by simp [cookieHeader]⟩
  · exact absurd hcross (h.origin hchain hurl e he)

/-- A login carries no cookie anywhere. -/
theorem cookieStays_login (hchain : Chain dest orig left s sent)
    (hs : s.headers = (loginRequest cfg).headers) : CookieStays cfg sent := by
  intro e he _ hsid
  obtain ⟨f, hf, hname, -⟩ := hsid
  have hlacks : s.Lacks "cookie" := by
    intro h hh
    rw [hs] at hh
    simp only [loginRequest, List.mem_cons, List.not_mem_nil, or_false] at hh
    rcases hh with rfl | rfl
    · decide
    · show iequals "Referer" "cookie" = false
      decide
  exact hchain.lacks hlacks (by decide) e he ⟨f, hf, hname⟩

/-- In every run of `authed_request`, with its logins and preferences, and for everything the servers
answer: a request that the run gives to the HTTP client keeps the session id at the configured origin
exactly when it is a login or every redirect of it that is followed stays there. -/
theorem cookie_stays_iff (cfg : Config) (req : HttpRequest) (endpoint : String)
    {log : List (Σ c, Call.Answer c)} {r : Result HttpResponse}
    (h : (authedRequest cfg { req with url := apiUrl cfg endpoint }).Dialog log r) :
    ∀ issued answer, ⟨.request issued, answer⟩ ∈ log →
      ∀ net res, (request issued).Dialog net res →
        (CookieStays cfg (exchanges net) ↔
          issued = loginRequest cfg ∨ RedirectsWithin cfg (exchanges net)) := by
  intro issued answer hmem net res hnet
  have hissued : Issued cfg issued := (only_authedRequest rfl).dialog h _ hmem
  obtain ⟨⟨path, hurl⟩, hheaders⟩ := hissued
  rcases chain_request hnet with hnone | ⟨orig, -, hchain⟩
  · -- Nothing is sent
    rw [hnone]
    refine ⟨fun _ => .inr ?_, fun _ e he => absurd he List.not_mem_nil⟩
    intro before e e' after hsplit
    simp at hsplit
  rcases hheaders with rfl | ⟨headers, sid, hheaders⟩
  · exact iff_of_true (cookieStays_login hchain rfl) (.inl rfl)
  · rw [cookieStays_iff_of_chain hchain hurl ⟨headers, hheaders⟩]
    refine ⟨.inr, ?_⟩
    rintro (rfl | hwithin)
    · -- A login does not end in the cookie
      have hlast := congrArg (fun hs => hs.getLast?.map Prod.fst) hheaders
      simp [loginRequest, cookieHeader] at hlast
    · exact hwithin

/-! A client that is logged in, and its request for the list of torrents -/

def localServer : Config := ⟨"http://qb:8080/", "username=u&password=p", "json=%7B%7D"⟩

def loggedInAs (sid : String) : (c : Call) → c.Answer
  | .connected => true
  | .sessionId => sid
  | .storeSession _ | .clearSession => ()
  | .request _ => .ok ⟨200, "[]", []⟩

def listTorrents : HttpRequest := { url := apiUrl localServer "torrents/info" }

def listIssued : HttpRequest := { listTorrents with headers := [cookieHeader "s1"] }

theorem listIssued_mem : ⟨.request listIssued, .ok ⟨200, "[]", []⟩⟩ ∈
    ((authedRequest localServer listTorrents).converse (loggedInAs "s1")).1 :=
  .tail _ (.tail _ (.head _))

/-- A server that has moved the list of torrents to another path. -/
def movedWithin : (c : NetCall) → c.Answer
  | .takeIdle _ => false
  | .openSocket _ _ => .ok ()
  | .exchange _ req _ _ =>
    if req.target = "/api/v2/torrents/info" then .ok (⟨302, "", [("location", "/torrents")]⟩, true)
    else .ok (⟨200, "[]", []⟩, true)
  | .returnIdle _ | .shutdown _ => ()

/-- The redirect is followed with the cookie. -/
theorem cookie_stays_moved :
    (exchanges ((request listIssued).converse movedWithin).1).map (fun e =>
      (e.req.target, decide (cookieHeader "s1" ∈ e.req.fields))) =
        [("/api/v2/torrents/info", true), ("/torrents", true)] ∧
    CookieStays localServer (exchanges ((request listIssued).converse movedWithin).1) := by
  refine ⟨by decide +kernel, (cookie_stays_iff localServer listTorrents "torrents/info"
    (Prog.dialog_converse (loggedInAs "s1") _) listIssued _ listIssued_mem _ _ (Prog.dialog_converse _ _)).2
    (.inr ?_)⟩
  intro before e e' after hsplit target htarget hcross
  have hkeys : (exchanges ((request listIssued).converse movedWithin).1).map (fun e => e.target.map ParsedUrl.key) =
      [some ⟨false, "qb", "8080"⟩, none] := by
    decide +kernel
  have hmem : e.target.map ParsedUrl.key ∈ [some ⟨false, "qb", "8080"⟩, none] := by
    rw [← hkeys, hsplit]
    exact List.mem_map_of_mem (List.mem_append_right _ List.mem_cons_self)
  have hkey : target.key = ⟨false, "qb", "8080"⟩ := by
    rw [htarget] at hmem
    simpa using hmem
  have hparse : parseUrl localServer.url = some ⟨false, "qb", "8080", "/"⟩ := by decide +kernel
  refine hcross _ hparse ?_
  rw [hkey]
  exact ⟨rfl, by decide, rfl⟩

/-- The server redirects to another host, which gets the cookie. -/
theorem cookie_leaves : ¬∀ (cfg : Config) (req : HttpRequest) (endpoint : String) log r,
    (authedRequest cfg { req with url := apiUrl cfg endpoint }).Dialog log r →
      ∀ issued answer, ⟨.request issued, answer⟩ ∈ log →
        ∀ net res, (request issued).Dialog net res → CookieStays cfg (exchanges net) := by
  intro hall
  have hstays := hall localServer listTorrents "torrents/info" _ _
    (Prog.dialog_converse (loggedInAs "s1") _) listIssued _ listIssued_mem _ _
    (Prog.dialog_converse (redirecting "qb" "http://evil/") (request listIssued))
  have hobs : ((exchanges ((request listIssued).converse (redirecting "qb" "http://evil/")).1)[1]?).map
      (fun e => (e.key.host, decide (cookieHeader "s1" ∈ e.req.fields))) = some ("evil", true) := by
    decide +kernel
  obtain ⟨e, he, hobs⟩ := Option.map_eq_some_iff.1 hobs
  obtain ⟨hhost, hcookie⟩ := Prod.mk.inj hobs
  refine hstays e (List.mem_of_getElem? he) ?_ ⟨_, of_decide_eq_true hcookie, by decide, by decide⟩
  intro orig horig hsame
  have hparse : parseUrl localServer.url = some ⟨false, "qb", "8080", "/"⟩ := by decide +kernel
  rw [hparse] at horig
  cases horig
  rw [hhost] at hsame
  exact absurd hsame.2.1 (by decide)

end Impl

end Cmlb.Qbittorrent
