import Mathlib.Data.List.DropRight
import Cmlb.Core.Cancelled
import Cmlb.Core.Http
import Cmlb.Http.ConnectionPool

/-!
# The HTTP client (`beast_http_client.cpp`)

`request` and `download_to_file` run one loop over the hops of a redirect chain. The loop is a
program over the sockets: it takes an idle one or opens one, exchanges a request for a response and
gives the socket back. Whatever the servers answer, the exchanges it makes form a `Chain`, and what a
chain can carry from hop to hop is proved on that.

A request is its header fields as Beast's container holds them; the timer that fills in a response's
`duration` is not modelled.
-/

namespace Cmlb.Http

abbrev HttpHeader := String × String

inductive HttpMethod
  | get | post | put | delete | patch | head
deriving DecidableEq, Repr

structure HttpRequest where
  method : HttpMethod := .get
  url : String
  headers : List HttpHeader := []
  body : String := ""
  -- In milliseconds
  timeout : Int := 30000

def kMaxRedirects : Nat := 5

def kUserAgent : String := "cmlb/1.0 (+https://github.com/cmlb)"

/-! ### URLs -/

structure ParsedUrl where
  https : Bool
  host : String
  port : String
  target : String
deriving DecidableEq, Repr

/-- The scheme, and what follows it. -/
def splitScheme (url : List Char) : Option (Bool × List Char) :=
  if "https://".toList <+: url then some (true, url.drop 8)
  else if "http://".toList <+: url then some (false, url.drop 7)
  else none

def defaultPort (https : Bool) : String := if https then "443" else "80"

/-- The host and the port of an authority. -/
def splitAuthority (https : Bool) (authority : List Char) : Option (String × String) :=
  if '@' ∈ authority then none
  else if ':' ∈ authority then
    let host := (authority.rdropWhile (· != ':')).dropLast
    let port := authority.rtakeWhile (· != ':')
    if host = [] ∨ port = [] ∨ ¬ port.all Char.isDigit then none
    else some (String.ofList host, String.ofList port)
  else if authority = [] then none
  else some (String.ofList authority, defaultPort https)

def parseUrl (url : String) : Option ParsedUrl :=
  match splitScheme url.toList with
  | none => none
  | some (https, rest) =>
    let path := rest.dropWhile (· != '/')
    let target := if path = [] then "/" else String.ofList path
    match splitAuthority https (rest.takeWhile (· != '/')) with
    | none => none
    | some (host, port) => some ⟨https, host, port, target⟩

theorem parseUrl_eq_some {url : String} {parsed : ParsedUrl} (h : parseUrl url = some parsed) :
    ∃ rest, splitScheme url.toList = some (parsed.https, rest) ∧
      splitAuthority parsed.https (rest.takeWhile (· != '/')) = some (parsed.host, parsed.port) ∧
      parsed.target = if rest.dropWhile (· != '/') = [] then "/"
        else String.ofList (rest.dropWhile (· != '/')) := by
  unfold parseUrl at h
  split at h
  · cases h
  · rename_i https rest hscheme
    dsimp only at h
    split at h
    · cases h
    · rename_i host port hauthority
      cases h
      exact ⟨rest, hscheme, hauthority, rfl⟩

def iequals (a b : String) : Bool := a.toList.map Char.toLower == b.toList.map Char.toLower

def sameOrigin (a b : ParsedUrl) : Bool :=
  a.https == b.https && iequals a.host b.host && a.port == b.port

namespace ParsedUrl

def key (url : ParsedUrl) : EndpointKey := ⟨url.https, url.host, url.port⟩

/-- The host, and the port unless it is the scheme's own. -/
def hostWithPort (url : ParsedUrl) : String :=
  if url.port = defaultPort url.https then url.host else url.host ++ ":" ++ url.port

end ParsedUrl

def resolveRedirect (current : ParsedUrl) (location : String) : Option String :=
  if location = "" then none
  else if "http://".toList <+: location.toList ∨ "https://".toList <+: location.toList then
    some location
  else
    let base := (if current.https then "https://" else "http://") ++ current.hostWithPort
    if "/".toList <+: location.toList then some (base ++ location)
    else
      let tgt :=
        if '/' ∈ current.target.toList then
          String.ofList (current.target.toList.rdropWhile (· != '/'))
        else "/"
      some (base ++ tgt ++ location)

/-! ### Requests -/

/-- `bh::request<bh::string_body>`. -/
structure WireRequest where
  verb : HttpMethod
  target : String
  fields : List HttpHeader
  body : String
deriving DecidableEq, Repr

/-- `basic_fields::set`. -/
def setField (fields : List HttpHeader) (name value : String) : List HttpHeader :=
  fields.filter (fun f => !iequals f.1 name) ++ [(name, value)]

/-- `set` where the caller's headers do not have the field. -/
def setDefault (headers fields : List HttpHeader) (name value : String) : List HttpHeader :=
  if headers.any (fun h => iequals h.1 name) then fields else setField fields name value

def applyHeaders (headers : List HttpHeader) (hostWithPort : String) (hasBody : Bool) (body : String) :
    List HttpHeader :=
  let headers := headers.filter fun h => !iequals h.1 "host" && !iequals h.1 "content-length"
  let fields := headers.foldl (fun fields h => setField fields h.1 h.2) []
  let fields := setField fields "Host" hostWithPort
  let fields := setDefault headers fields "User-Agent" kUserAgent
  let fields := setDefault headers fields "Accept" "*/*"
  let fields := setDefault headers fields "Connection" "keep-alive"
  if hasBody then setField fields "Content-Length" (toString body.utf8ByteSize) else fields

def HttpMethod.hasBody : HttpMethod → Bool
  | .post | .put | .patch => true
  | _ => false

/-! ### Sockets -/

/-- What the loop asks of the sockets of an endpoint. `dest` is the file that `exchange_to_file`
writes to, and `none` for `exchange`. -/
inductive NetCall
  | takeIdle (key : EndpointKey)
  | openSocket (key : EndpointKey) (timeout : Int)
  | exchange (key : EndpointKey) (req : WireRequest) (timeout : Int) (dest : Option String)
  | returnIdle (key : EndpointKey)
  | shutdown (key : EndpointKey)

/-- Whether there was an idle socket; the response, and whether the socket can serve another. -/
abbrev NetCall.Answer : NetCall → Type
  | .takeIdle _ => Bool
  | .openSocket _ _ => Result Unit
  | .exchange _ _ _ _ => Result (HttpResponse × Bool)
  | .returnIdle _ | .shutdown _ => Unit

abbrev Net := Prog NetCall NetCall.Answer

/-- What becomes of a socket after its response. -/
def giveBack (key : EndpointKey) (reusable : Bool) : Net Unit :=
  if reusable then Prog.ask (NetCall.returnIdle key) else Prog.ask (NetCall.shutdown key)

def exchangeOn (key : EndpointKey) (req : WireRequest) (timeout : Int) (dest : Option String) :
    Net (Result HttpResponse) := do
  let ex : Result (HttpResponse × Bool) ← Prog.ask (NetCall.exchange key req timeout dest)
  match ex with
  | .error e => pure (.error e)
  | .ok (resp, reusable) =>
    giveBack key reusable
    pure (.ok resp)

/-- The part of a hop that is the same for both kinds of socket. -/
def roundTrip (key : EndpointKey) (req : WireRequest) (timeout : Int) (dest : Option String) :
    Net (Result HttpResponse) := do
  let idle : Bool ← Prog.ask (NetCall.takeIdle key)
  if idle then exchangeOn key req timeout dest
  else
    let opened : Result Unit ← Prog.ask (NetCall.openSocket key timeout)
    match opened with
    | .error e => pure (.error e)
    | .ok () => exchangeOn key req timeout dest

/-! ### The loop -/

/-- The variables of the loop. -/
structure Hop where
  method : HttpMethod
  url : String
  headers : List HttpHeader
  body : String
  redirected : Bool

namespace Hop

/-- `Authorization` is stripped for good when a redirect leaves the origin. -/
def strip (s : Hop) (orig parsed : ParsedUrl) : Hop :=
  if s.redirected && !sameOrigin orig parsed then
    { s with headers := s.headers.filter fun h => !iequals h.1 "authorization" }
  else s

def wire (s : Hop) (parsed : ParsedUrl) : WireRequest :=
  let body := if s.method.hasBody then s.body else ""
  ⟨s.method, parsed.target, applyHeaders s.headers parsed.hostWithPort s.method.hasBody body, body⟩

/-- The next hop. `download_to_file` keeps its method, which is `GET`. -/
def follow (s : Hop) (dest : Option String) (code : Nat) (next : String) : Hop :=
  if dest = none ∧ (code = 301 ∨ code = 302 ∨ code = 303) then
    { s with url := next, method := .get, body := "", redirected := true }
  else { s with url := next, redirected := true }

end Hop

def isRedirect (code : Nat) : Bool :=
  code == 301 || code == 302 || code == 303 || code == 307 || code == 308

def findLocation (headers : List HttpHeader) : Option String :=
  (headers.find? fun h => iequals h.1 "location").map Prod.snd

/-- The loop of `request` (`dest = none`) and of `download_to_file`, with `left` hops to go. -/
def hops (dest : Option String) (orig : ParsedUrl) (timeout : Int) : Nat → Hop → Net (Result HttpResponse)
  | 0, s => pure (.error ⟨.network, "too many redirects (max " ++ toString kMaxRedirects ++ "): " ++ s.url⟩)
  | left + 1, s =>
    match parseUrl s.url with
    | none => pure (.error ⟨.invalidArgument, "malformed URL (redirect): " ++ s.url⟩)
    | some parsed => do
      let s := s.strip orig parsed
      match ← roundTrip parsed.key (s.wire parsed) timeout dest with
      | .error e => pure (.error e)
      | .ok resp =>
        -- `hop < kMaxRedirects`
        if isRedirect resp.statusCode ∧ left ≠ 0 then
          match findLocation resp.headers with
          | none => pure (.ok resp)
          | some location =>
            match resolveRedirect parsed location with
            | none => pure (.error ⟨.network, "redirect target malformed: " ++ location⟩)
            | some next => hops dest orig timeout left (s.follow dest resp.statusCode next)
        else pure (.ok resp)

def request (req : HttpRequest) : Net (Result HttpResponse) :=
  match parseUrl req.url with
  | none => pure (.error ⟨.invalidArgument, "malformed URL: " ++ req.url⟩)
  | some orig =>
    let timeout := if req.timeout ≤ 0 then 30000 else req.timeout
    hops none orig timeout (kMaxRedirects + 1) ⟨req.method, req.url, req.headers, req.body, false⟩

def downloadToFile (url dest : String) (headers : List HttpHeader) : Net (Result HttpResponse) :=
  match parseUrl url with
  | none => pure (.error ⟨.invalidArgument, "malformed URL: " ++ url⟩)
  | some orig => hops (some dest) orig 60000 (kMaxRedirects + 1) ⟨.get, url, headers, "", false⟩

/-! ### Aborted operations -/

/-- Opening a socket or an exchange over it was aborted. -/
def Aborted : (Σ c, NetCall.Answer c) → Prop
  | ⟨.openSocket _ _, res⟩ => IsCancelled res
  | ⟨.exchange _ _ _ _, res⟩ => IsCancelled res
  | _ => False

theorem decided_exchange (key : EndpointKey) (req : WireRequest) (timeout : Int) (dest : Option String) :
    (Prog.ask (NetCall.exchange key req timeout dest) : Net (Result (HttpResponse × Bool))).Decided
      Aborted IsCancelled := by
  show (Prog.ask (NetCall.exchange key req timeout dest) : Net _).Decided Aborted
    fun res => Aborted ⟨.exchange key req timeout dest, res⟩
  exact .ask _

theorem decided_openSocket (key : EndpointKey) (timeout : Int) :
    (Prog.ask (NetCall.openSocket key timeout) : Net (Result Unit)).Decided Aborted IsCancelled := by
  show (Prog.ask (NetCall.openSocket key timeout) : Net _).Decided Aborted
    fun res => Aborted ⟨.openSocket key timeout, res⟩
  exact .ask _

theorem decided_exchangeOn (key : EndpointKey) (req : WireRequest) (timeout : Int) (dest : Option String) :
    (exchangeOn key req timeout dest).Decided Aborted IsCancelled := by
  refine decided_passOn (decided_exchange key req timeout dest) (fun _ => rfl) ?_
  rintro ⟨resp, reusable⟩
  show (giveBack key reusable >>= fun _ => pure (.ok resp)).Decided Aborted IsCancelled
  unfold giveBack
  split
  · exact .ask_bind (fun _ h => h.elim) fun _ _ => decided_ok resp
  · exact .ask_bind (fun _ h => h.elim) fun _ _ => decided_ok resp

theorem decided_roundTrip (key : EndpointKey) (req : WireRequest) (timeout : Int) (dest : Option String) :
    (roundTrip key req timeout dest).Decided Aborted IsCancelled := by
  refine .ask_bind (fun _ h => h.elim) fun idle _ => ?_
  split
  · exact decided_exchangeOn key req timeout dest
  · refine decided_passOn (decided_openSocket key timeout) (fun _ => rfl) ?_
    exact fun _ => decided_exchangeOn key req timeout dest

theorem decided_hops (dest : Option String) (orig : ParsedUrl) (timeout : Int) (left : Nat) (s : Hop) :
    (hops dest orig timeout left s).Decided Aborted IsCancelled := by
  induction left generalizing s with
  | zero => exact decided_error (by simp)
  | succ left ih =>
    unfold hops
    split
    · exact decided_error (by simp)
    · refine decided_passOn (decided_roundTrip _ _ _ _) (fun _ => rfl) fun resp => ?_
      dsimp only
      split
      · split
        · exact decided_ok resp
        · split
          · exact decided_error (by simp)
          · exact ih _
      · exact decided_ok resp

/-- A request returns `Cancelled` exactly if one of its operations was aborted. -/
theorem decided_request (req : HttpRequest) : (request req).Decided Aborted IsCancelled := by
  unfold request
  split
  · exact decided_error (by simp)
  · exact decided_hops none _ _ _ _

/-! ### What is sent -/

structure Exchanged where
  key : EndpointKey
  req : WireRequest
  answer : Result (HttpResponse × Bool)

/-- The requests of a log in the order they were sent, with their answers. -/
def exchanges (log : List (Σ c, NetCall.Answer c)) : List Exchanged :=
  log.filterMap fun
    | ⟨.exchange key req _ _, answer⟩ => some ⟨key, req, answer⟩
    | _ => none

/-- The requests that the loop can send from `s` on, with `left` hops to go. -/
inductive Chain (dest : Option String) (orig : ParsedUrl) : Nat → Hop → List Exchanged → Prop
  | stop (left : Nat) (s : Hop) : Chain dest orig left s []
  | last {left : Nat} {s : Hop} {parsed : ParsedUrl} (answer : Result (HttpResponse × Bool))
      (h : parseUrl s.url = some parsed) :
      Chain dest orig (left + 1) s [⟨parsed.key, (s.strip orig parsed).wire parsed, answer⟩]
  | redirect {left : Nat} {s : Hop} {parsed : ParsedUrl} {resp : HttpResponse} {location next : String}
      {rest : List Exchanged} (reusable : Bool) (h : parseUrl s.url = some parsed)
      (hcode : isRedirect resp.statusCode = true) (hloc : findLocation resp.headers = some location)
      (hnext : resolveRedirect parsed location = some next)
      (hrest : Chain dest orig left ((s.strip orig parsed).follow dest resp.statusCode next) rest) :
      Chain dest orig (left + 1) s
        (⟨parsed.key, (s.strip orig parsed).wire parsed, .ok (resp, reusable)⟩ :: rest)

section Exchanges

variable {log log' : List (Σ c, NetCall.Answer c)} {r : Result HttpResponse}

@[simp] theorem exchanges_append : exchanges (log ++ log') = exchanges log ++ exchanges log' :=
  List.filterMap_append

theorem exchanges_giveBack {key : EndpointKey} {reusable : Bool} {u : Unit}
    (h : (giveBack key reusable).Dialog log u) : exchanges log = [] := by
  unfold giveBack at h
  split at h
  · rw [h.ask_inv]
    rfl
  · rw [h.ask_inv]
    rfl

theorem exchanges_exchangeOn {key : EndpointKey} {req : WireRequest} {timeout : Int}
    {dest : Option String} (h : (exchangeOn key req timeout dest).Dialog log r) :
    ∃ answer, exchanges log = [⟨key, req, answer⟩] ∧ r = answer.map Prod.fst := by
  unfold exchangeOn at h
  obtain ⟨answer, log₁, rfl, h₁⟩ := h.ask_bind_inv
  refine ⟨answer, ?_⟩
  cases answer with
  | error e =>
    obtain ⟨rfl, rfl⟩ := h₁.pure_inv
    exact ⟨rfl, rfl⟩
  | ok answer =>
    obtain ⟨resp, reusable⟩ := answer
    obtain ⟨log₂, log₃, _, rfl, h₂, h₃⟩ := h₁.bind_inv
    obtain ⟨rfl, rfl⟩ := h₃.pure_inv
    have hback := exchanges_giveBack h₂
    refine ⟨?_, rfl⟩
    show ⟨key, req, _⟩ :: exchanges (log₂ ++ []) = _
    rw [List.append_nil, hback]

/-- A round trip sends its request once, unless it gets no socket. -/
theorem exchanges_roundTrip {key : EndpointKey} {req : WireRequest} {timeout : Int}
    {dest : Option String} (h : (roundTrip key req timeout dest).Dialog log r) :
    (exchanges log = [] ∧ ∃ e, r = .error e) ∨
      ∃ answer, exchanges log = [⟨key, req, answer⟩] ∧ r = answer.map Prod.fst := by
  unfold roundTrip at h
  obtain ⟨idle, log₁, rfl, h₁⟩ := h.ask_bind_inv
  cases idle with
  | true =>
    obtain ⟨answer, hsent, hr⟩ := exchanges_exchangeOn h₁
    exact .inr ⟨answer, hsent, hr⟩
  | false =>
    obtain ⟨opened, log₂, rfl, h₂⟩ := h₁.ask_bind_inv
    cases opened with
    | error e =>
      obtain ⟨rfl, rfl⟩ := h₂.pure_inv
      exact .inl ⟨rfl, e, rfl⟩
    | ok _ =>
      obtain ⟨answer, hsent, hr⟩ := exchanges_exchangeOn h₂
      exact .inr ⟨answer, hsent, hr⟩

/-- One turn of the loop, with `left` hops to go after it. -/
inductive Turn (dest : Option String) (orig : ParsedUrl) (timeout : Int) (left : Nat) (s : Hop) :
    List Exchanged → Result HttpResponse → Prop
  | unsent (err : AppError) : Turn dest orig timeout left s [] (.error err)
  | lost {parsed : ParsedUrl} (err : AppError) (h : parseUrl s.url = some parsed) :
      Turn dest orig timeout left s [⟨parsed.key, (s.strip orig parsed).wire parsed, .error err⟩]
        (.error err)
  | answered {parsed : ParsedUrl} {resp : HttpResponse} (reusable : Bool)
      (h : parseUrl s.url = some parsed) (hstop : left = 0 ∨ isRedirect resp.statusCode = false ∨
        findLocation resp.headers = none) :
      Turn dest orig timeout left s
        [⟨parsed.key, (s.strip orig parsed).wire parsed, .ok (resp, reusable)⟩] (.ok resp)
  | malformed {parsed : ParsedUrl} {answer : HttpResponse × Bool} (err : AppError)
      (h : parseUrl s.url = some parsed) (hleft : left ≠ 0) :
      Turn dest orig timeout left s [⟨parsed.key, (s.strip orig parsed).wire parsed, .ok answer⟩]
        (.error err)
  | redirect {parsed : ParsedUrl} {resp : HttpResponse} {location next : String}
      {log : List (Σ c, NetCall.Answer c)} {r : Result HttpResponse} (reusable : Bool)
      (h : parseUrl s.url = some parsed) (hleft : left ≠ 0)
      (hcode : isRedirect resp.statusCode = true) (hloc : findLocation resp.headers = some location)
      (hnext : resolveRedirect parsed location = some next)
      (hrest : (hops dest orig timeout left
        ((s.strip orig parsed).follow dest resp.statusCode next)).Dialog log r) :
      Turn dest orig timeout left s
        (⟨parsed.key, (s.strip orig parsed).wire parsed, .ok (resp, reusable)⟩ :: exchanges log) r

theorem turn_of_hops {dest : Option String} {orig : ParsedUrl} {timeout : Int} {left : Nat} {s : Hop}
    (h : (hops dest orig timeout (left + 1) s).Dialog log r) :
    Turn dest orig timeout left s (exchanges log) r := by
  unfold hops at h
  split at h
  · obtain ⟨rfl, rfl⟩ := h.pure_inv
    exact .unsent _
  rename_i parsed hparsed
  obtain ⟨log₁, log₂, res, rfl, h₁, h₂⟩ := h.bind_inv
  rw [exchanges_append]
  rcases exchanges_roundTrip h₁ with ⟨hnone, e, rfl⟩ | ⟨answer, hsent, rfl⟩
  · obtain ⟨rfl, rfl⟩ := h₂.pure_inv
    rw [hnone]
    exact .unsent _
  rw [hsent]
  cases answer with
  | error e =>
    obtain ⟨rfl, rfl⟩ := h₂.pure_inv
    exact .lost e hparsed
  | ok answer =>
    obtain ⟨resp, reusable⟩ := answer
    dsimp only [Except.map] at h₂
    split at h₂
    · rename_i hcode
      split at h₂
      · rename_i hloc
        obtain ⟨rfl, rfl⟩ := h₂.pure_inv
        exact .answered reusable hparsed (.inr (.inr hloc))
      · rename_i location hloc
        split at h₂
        · obtain ⟨rfl, rfl⟩ := h₂.pure_inv
          exact .malformed _ hparsed hcode.2
        · rename_i next hnext
          exact .redirect reusable hparsed hcode.2 hcode.1 hloc hnext h₂
    · rename_i hcode
      obtain ⟨rfl, rfl⟩ := h₂.pure_inv
      refine .answered reusable hparsed ?_
      by_cases hleft : left = 0
      · exact .inl hleft
      · exact .inr (.inl (eq_false_of_ne_true fun hredirect => hcode ⟨hredirect, hleft⟩))

/-- Whatever the servers answer, the loop sends a chain. -/
theorem chain_hops {dest : Option String} {orig : ParsedUrl} {timeout : Int} {left : Nat} {s : Hop}
    (h : (hops dest orig timeout left s).Dialog log r) : Chain dest orig left s (exchanges log) := by
  induction left generalizing s log with
  | zero =>
    obtain ⟨rfl, -⟩ := h.pure_inv
    exact .stop 0 s
  | succ left ih =>
    have hturn := turn_of_hops h
    generalize exchanges log = sent at hturn ⊢
    cases hturn with
    | unsent err => exact .stop _ s
    | lost err hparsed => exact .last _ hparsed
    | answered reusable hparsed hstop => exact .last _ hparsed
    | malformed err hparsed hleft => exact .last _ hparsed
    | redirect reusable hparsed hleft hcode hloc hnext hrest =>
      exact .redirect reusable hparsed hcode hloc hnext (ih hrest)

/-- The requests of `request`, which all start from the URL's own origin. -/
theorem chain_request {req : HttpRequest} (h : (request req).Dialog log r) :
    exchanges log = [] ∨ ∃ orig, parseUrl req.url = some orig ∧
      Chain none orig (kMaxRedirects + 1) ⟨req.method, req.url, req.headers, req.body, false⟩
        (exchanges log) := by
  unfold request at h
  split at h
  · obtain ⟨rfl, -⟩ := h.pure_inv
    exact .inl rfl
  · rename_i orig horig
    exact .inr ⟨orig, horig, chain_hops h⟩

theorem chain_downloadToFile {url dest : String} {headers : List HttpHeader}
    (h : (downloadToFile url dest headers).Dialog log r) :
    exchanges log = [] ∨ ∃ orig, parseUrl url = some orig ∧
      Chain (some dest) orig (kMaxRedirects + 1) ⟨.get, url, headers, "", false⟩ (exchanges log) := by
  unfold downloadToFile at h
  split at h
  · obtain ⟨rfl, -⟩ := h.pure_inv
    exact .inl rfl
  · rename_i orig horig
    exact .inr ⟨orig, horig, chain_hops h⟩

end Exchanges

/-! ### Header fields -/

/-- The request has a field of this name, in any letter case. -/
def WireRequest.Carries (req : WireRequest) (name : String) : Prop :=
  ∃ f ∈ req.fields, iequals f.1 name = true

section Fields

variable {headers fields : List HttpHeader} {f : HttpHeader} {name value : String}

theorem mem_setField_iff : f ∈ setField fields name value ↔
    f ∈ fields ∧ iequals f.1 name = false ∨ f = (name, value) := by
  simp [setField]

/-- The names of the fields that the client sets itself. -/
def ownFields : List String := ["Host", "User-Agent", "Accept", "Connection", "Content-Length"]

/-- The fields are the caller's or the client's own. -/
def Within (headers fields : List HttpHeader) : Prop := ∀ f ∈ fields, f ∈ headers ∨ f.1 ∈ ownFields

theorem Within.setField (h : Within headers fields)
    (hf : (name, value) ∈ headers ∨ name ∈ ownFields) : Within headers (setField fields name value) := by
  intro f hmem
  rcases mem_setField_iff.1 hmem with ⟨hmem, -⟩ | rfl
  · exact h f hmem
  · exact hf

theorem Within.setDefault {given : List HttpHeader} (h : Within headers fields)
    (hname : name ∈ ownFields) : Within headers (setDefault given fields name value) := by
  unfold Http.setDefault
  split
  · exact h
  · exact h.setField (.inr hname)

theorem Within.foldl {given : List HttpHeader} (h : Within headers fields)
    (hgiven : ∀ f ∈ given, f ∈ headers) :
    Within headers (given.foldl (fun fields h => Http.setField fields h.1 h.2) fields) := by
  induction given generalizing fields with
  | nil => exact h
  | cons g given ih =>
    refine ih (h.setField (.inl (hgiven g List.mem_cons_self))) ?_
    exact fun f hf => hgiven f (List.mem_cons_of_mem g hf)

/-- A request has no other fields than its caller's and the client's own. -/
theorem within_applyHeaders (headers : List HttpHeader) (hostWithPort : String) (hasBody : Bool)
    (body : String) : Within headers (applyHeaders headers hostWithPort hasBody body) := by
  have hnil : Within headers [] := fun f hf => absurd hf List.not_mem_nil
  unfold applyHeaders
  extract_lets given caller fields₁ fields₂ fields₃ fields₄
  have hcaller : Within headers caller := hnil.foldl fun f hf => (List.mem_filter.1 hf).1
  have hhost : Within headers fields₁ := hcaller.setField (.inr (by decide))
  have hagent : Within headers fields₂ := hhost.setDefault (by decide)
  have haccept : Within headers fields₃ := hagent.setDefault (by decide)
  have hown : Within headers fields₄ := haccept.setDefault (by decide)
  split
  · exact hown.setField (.inr (by decide))
  · exact hown

theorem mem_setField_of_ne (h : f ∈ fields) (hname : iequals f.1 name = false) :
    f ∈ setField fields name value :=
  mem_setField_iff.2 (.inl ⟨h, hname⟩)

theorem mem_setDefault_of_ne {given : List HttpHeader} (h : f ∈ fields)
    (hname : iequals f.1 name = false) : f ∈ setDefault given fields name value := by
  unfold setDefault
  split
  · exact h
  · exact mem_setField_of_ne h hname

theorem iequals_congr {a b b' : String} (h : b.toList.map Char.toLower = b'.toList.map Char.toLower) :
    iequals a b = iequals a b' := by
  unfold iequals
  rw [h]

/-- The caller's last header is sent as it is, unless the client has a field of that name. -/
theorem mem_applyHeaders_concat (headers : List HttpHeader) (hostWithPort : String) (hasBody : Bool)
    (body : String) (hf : ∀ own ∈ ownFields, iequals f.1 own = false) :
    f ∈ applyHeaders (headers ++ [f]) hostWithPort hasBody body := by
  simp only [ownFields, List.forall_mem_cons] at hf
  obtain ⟨hhost, hagent, haccept, hconnection, hlength, -⟩ := hf
  have hhost' : iequals f.1 "host" = false := (iequals_congr (by decide)).trans hhost
  have hlength' : iequals f.1 "content-length" = false := (iequals_congr (by decide)).trans hlength
  unfold applyHeaders
  extract_lets given caller fields₁ fields₂ fields₃ fields₄
  have hcaller : f ∈ caller := by
    simp only [caller, given, List.filter_append, List.filter_cons, hhost', hlength', Bool.not_false,
      Bool.and_true, if_true, List.filter_nil, List.foldl_append, List.foldl_cons, List.foldl_nil]
    exact mem_setField_iff.2 (.inr rfl)
  have hown : f ∈ fields₄ :=
    mem_setDefault_of_ne (mem_setDefault_of_ne (mem_setDefault_of_ne
      (mem_setField_of_ne hcaller hhost) hagent) haccept) hconnection
  split
  · exact mem_setField_of_ne hown hlength
  · exact hown

end Fields

/-! ### From hop to hop -/

/-- The URL that the answer redirects to. -/
def Exchanged.target (e : Exchanged) : Option ParsedUrl :=
  match e.answer with
  | .error _ => none
  | .ok (resp, _) =>
    if isRedirect resp.statusCode then
      (findLocation resp.headers).bind fun location =>
        (resolveRedirect ⟨e.key.https, e.key.host, e.key.port, e.req.target⟩ location).bind parseUrl
    else none

/-- The endpoint is not at the scheme, host and port of the URL. -/
def Crosses (url : String) (key : EndpointKey) : Prop :=
  ∀ orig, parseUrl url = some orig →
    ¬(key.https = orig.https ∧ iequals key.host orig.host = true ∧ key.port = orig.port)

/-- After the first request, what is sent to another origin and from then on has no `Authorization`. -/
def AuthorizationStays (url : String) (sent : List Exchanged) : Prop :=
  ∀ first before e after, sent = first :: before ++ e :: after → Crosses url e.key →
    ∀ e' ∈ e :: after, ¬e'.req.Carries "authorization"

/-- The hop has no header of this name. -/
def Hop.Lacks (s : Hop) (name : String) : Prop := ∀ h ∈ s.headers, iequals h.1 name = false

section Hops

variable {dest : Option String} {orig parsed : ParsedUrl} {left : Nat} {s : Hop} {sent : List Exchanged}
  {name : String}

theorem iequals_comm (a b : String) : iequals a b = iequals b a := BEq.comm

@[simp] theorem Hop.follow_headers (code : Nat) (next : String) :
    (s.follow dest code next).headers = s.headers := by
  unfold Hop.follow
  split <;> rfl

@[simp] theorem Hop.follow_redirected (code : Nat) (next : String) :
    (s.follow dest code next).redirected = true := by
  unfold Hop.follow
  split <;> rfl

@[simp] theorem Hop.follow_url (code : Nat) (next : String) : (s.follow dest code next).url = next := by
  unfold Hop.follow
  split <;> rfl

/-- What holds of the hop at the start, and what each hop keeps for the next, shows in every request. -/
theorem Chain.forall_req {I : Hop → Prop} {P : WireRequest → Prop} (h : Chain dest orig left s sent)
    (hs : I s) (hstrip : ∀ s parsed, I s → I (s.strip orig parsed))
    (hfollow : ∀ s code next, I s → I (s.follow dest code next))
    (hwire : ∀ s parsed, I s → P (s.wire parsed)) : ∀ e ∈ sent, P e.req := by
  induction h with
  | stop left s => exact fun e he => absurd he List.not_mem_nil
  | last answer h =>
    intro e he
    rw [List.mem_singleton.1 he]
    exact hwire _ _ (hstrip _ _ hs)
  | redirect reusable h hcode hloc hnext hrest ih =>
    intro e he
    rcases List.mem_cons.1 he with rfl | he
    · exact hwire _ _ (hstrip _ _ hs)
    · exact ih (hfollow _ _ _ (hstrip _ _ hs)) e he

theorem Hop.Lacks.strip (h : s.Lacks name) : (s.strip orig parsed).Lacks name := by
  unfold Hop.strip
  split
  · exact fun g hg => h g (List.mem_filter.1 hg).1
  · exact h

theorem Hop.Lacks.follow (h : s.Lacks name) (code : Nat) (next : String) :
    (s.follow dest code next).Lacks name := by
  unfold Hop.Lacks
  rw [Hop.follow_headers]
  exact h

theorem Hop.Lacks.wire (h : s.Lacks name) (hown : ∀ own ∈ ownFields, iequals own name = false)
    (parsed : ParsedUrl) : ¬(s.wire parsed).Carries name := by
  rintro ⟨f, hf, hname⟩
  rcases within_applyHeaders _ _ _ _ f hf with hf | hf
  · rw [h f hf] at hname
    cases hname
  · rw [hown f.1 hf] at hname
    cases hname

/-- No hop makes up a field that is not the client's own. -/
theorem Chain.lacks (h : Chain dest orig left s sent) (hs : s.Lacks name)
    (hown : ∀ own ∈ ownFields, iequals own name = false) : ∀ e ∈ sent, ¬e.req.Carries name := by
  refine h.forall_req (I := fun s => s.Lacks name) (P := fun req => ¬req.Carries name) hs ?_ ?_ ?_
  · exact fun s parsed hs => hs.strip
  · exact fun s code next hs => hs.follow code next
  · exact fun s parsed hs => hs.wire hown parsed

/-- The hop's last header is `f`. -/
def Hop.Ends (s : Hop) (f : HttpHeader) : Prop := ∃ headers, s.headers = headers ++ [f]

theorem Hop.Ends.strip {f : HttpHeader} (h : s.Ends f) (hf : iequals f.1 "authorization" = false) :
    (s.strip orig parsed).Ends f := by
  obtain ⟨headers, hheaders⟩ := h
  unfold Hop.strip
  split
  · refine ⟨headers.filter fun h => !iequals h.1 "authorization", ?_⟩
    simp [hheaders, hf]
  · exact ⟨headers, hheaders⟩

theorem Hop.Ends.follow {f : HttpHeader} (h : s.Ends f) (code : Nat) (next : String) :
    (s.follow dest code next).Ends f := by
  unfold Hop.Ends
  rw [Hop.follow_headers]
  exact h

theorem Hop.Ends.wire {f : HttpHeader} (h : s.Ends f) (hf : ∀ own ∈ ownFields, iequals f.1 own = false)
    (parsed : ParsedUrl) : f ∈ (s.wire parsed).fields := by
  obtain ⟨headers, hheaders⟩ := h
  unfold Hop.wire
  rw [hheaders]
  exact mem_applyHeaders_concat _ _ _ _ hf

/-- A last header other than `Authorization` goes along on every hop. -/
theorem Chain.ends {f : HttpHeader} (h : Chain dest orig left s sent) (hs : s.Ends f)
    (hauth : iequals f.1 "authorization" = false) (hf : ∀ own ∈ ownFields, iequals f.1 own = false) :
    ∀ e ∈ sent, f ∈ e.req.fields := by
  refine h.forall_req (I := fun s => s.Ends f) (P := fun req => f ∈ req.fields) hs ?_ ?_ ?_
  · exact fun s parsed hs => hs.strip hauth
  · exact fun s code next hs => hs.follow code next
  · exact fun s parsed hs => hs.wire hf parsed

theorem Chain.first {e : Exchanged} {after : List Exchanged} (h : Chain dest orig left s (e :: after)) :
    ∃ parsed, parseUrl s.url = some parsed ∧ e.key = parsed.key := by
  cases h with
  | last answer h => exact ⟨_, h, rfl⟩
  | redirect reusable h => exact ⟨_, h, rfl⟩

/-- Every request but the first goes where the answer to the one before it points. -/
theorem Chain.next (h : Chain dest orig left s sent) :
    ∀ before e e' after, sent = before ++ e :: e' :: after →
      ∃ target, e.target = some target ∧ e'.key = target.key := by
  induction h with
  | stop left s =>
    intro before e e' after hsplit
    simp at hsplit
  | last answer h =>
    intro before e e' after hsplit
    cases before <;> simp at hsplit
  | redirect reusable h hcode hloc hnext hrest ih =>
    intro before e e' after hsplit
    cases before with
    | nil =>
      cases hsplit
      obtain ⟨target, htarget, hkey⟩ := hrest.first
      rw [Hop.follow_url] at htarget
      refine ⟨target, ?_, hkey⟩
      simp only [Exchanged.target, hcode, hloc, if_true, Option.bind_some]
      exact (congrArg (Option.bind · parseUrl) hnext).trans htarget
    | cons first before =>
      cases hsplit
      exact ih before e e' after rfl

/-! ### Authorization -/

theorem Hop.lacks_strip (hr : s.redirected = true) (hcross : sameOrigin orig parsed = false) :
    (s.strip orig parsed).Lacks "authorization" := by
  unfold Hop.strip
  rw [if_pos (by rw [hr, hcross]; rfl)]
  intro g hg
  simpa using (List.mem_filter.1 hg).2

theorem ownFields_authorization : ∀ own ∈ ownFields, iequals own "authorization" = false := by decide

theorem sameOrigin_of_crosses {url : String} (horig : parseUrl url = some orig)
    (h : Crosses url parsed.key) : sameOrigin orig parsed = false := by
  have hne := h orig horig
  simp only [ParsedUrl.key] at hne
  simp only [sameOrigin, Bool.and_eq_false_iff, beq_eq_false_iff_ne, iequals_comm orig.host]
  grind

/-- Once redirected, a chain that leaves the origin has no `Authorization` from there on. -/
theorem Chain.stays {url : String} (horig : parseUrl url = some orig)
    (h : Chain dest orig left s sent) (hr : s.redirected = true) :
    ∀ before e after, sent = before ++ e :: after → Crosses url e.key →
      ∀ e' ∈ e :: after, ¬e'.req.Carries "authorization" := by
  induction h with
  | stop left s =>
    intro before e after hsplit
    simp at hsplit
  | last answer h =>
    intro before e after hsplit hcross
    obtain ⟨rfl, hsplit⟩ | ⟨-, hnil⟩ := List.append_eq_singleton_iff.1 hsplit.symm
    · cases hsplit
      have hlacks := Hop.lacks_strip hr (sameOrigin_of_crosses horig hcross)
      intro e' he'
      rw [List.mem_singleton.1 he']
      exact hlacks.wire ownFields_authorization _
    · cases hnil
  | redirect reusable h hcode hloc hnext hrest ih =>
    intro before e after hsplit hcross
    cases before with
    | nil =>
      cases hsplit
      have hlacks := Hop.lacks_strip hr (sameOrigin_of_crosses horig hcross)
      intro e' he'
      rcases List.mem_cons.1 he' with rfl | he'
      · exact hlacks.wire ownFields_authorization _
      · exact hrest.lacks (hlacks.follow _ _) ownFields_authorization e' he'
    | cons first before =>
      cases hsplit
      exact ih (Hop.follow_redirected _ _) before e after rfl hcross

theorem Chain.authorizationStays {url : String} (horig : parseUrl url = some orig)
    (h : Chain dest orig left s sent) : AuthorizationStays url sent := by
  intro first before e after hsplit hcross
  cases h with
  | stop => simp at hsplit
  | last answer h => simp at hsplit
  | redirect reusable h hcode hloc hnext hrest =>
    obtain ⟨-, hsplit⟩ := List.cons.inj hsplit
    exact hrest.stays horig (Hop.follow_redirected _ _) before e after hsplit hcross

end Hops

/-- Whatever the servers answer, no request that leaves the origin of the URL, and none that follows
it, carries an `Authorization` field. -/
theorem authorization_stays :
    (∀ (req : HttpRequest) log r, (request req).Dialog log r →
      AuthorizationStays req.url (exchanges log)) ∧
    (∀ url dest headers log r, (downloadToFile url dest headers).Dialog log r →
      AuthorizationStays url (exchanges log)) := by
  have hnil (url : String) : AuthorizationStays url [] := by
    intro first before e after hsplit
    simp at hsplit
  refine ⟨fun req log r h => ?_, fun url dest headers log r h => ?_⟩
  · rcases chain_request h with hnone | ⟨orig, horig, hchain⟩
    · rw [hnone]
      exact hnil req.url
    · exact hchain.authorizationStays horig
  · rcases chain_downloadToFile h with hnone | ⟨orig, horig, hchain⟩
    · rw [hnone]
      exact hnil url
    · exact hchain.authorizationStays horig

/-- Servers that redirect every request at the host `source` to `target`, and answer the others. -/
def redirecting (source target : String) : (c : NetCall) → c.Answer
  | .takeIdle _ => false
  | .openSocket _ _ => .ok ()
  | .exchange key _ _ _ =>
    if key.host = source then .ok (⟨302, "", [("location", target)]⟩, true)
    else .ok (⟨200, "", []⟩, true)
  | .returnIdle _ | .shutdown _ => ()

def authorized : HttpRequest := { url := "https://a/x", headers := [("AUTHORIZATION", "Bearer t")] }

theorem authorization_stays_redirecting :
    ((exchanges ((request authorized).converse (redirecting "a" "https://b/")).1).map fun e =>
      (e.key.host, e.req.fields.map Prod.fst)) =
        [("a", ["AUTHORIZATION", "Host", "User-Agent", "Accept", "Connection"]),
          ("b", ["Host", "User-Agent", "Accept", "Connection"])] ∧
    AuthorizationStays authorized.url
      (exchanges ((request authorized).converse (redirecting "a" "https://b/")).1) :=
  ⟨by decide +kernel, authorization_stays.1 authorized _ _ (Prog.dialog_converse _ _)⟩

end Cmlb.Http
