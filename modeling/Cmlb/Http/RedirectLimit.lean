import Cmlb.Http.BeastClient

/-!
# The limit on redirects (`kMaxRedirects`)

The loop makes `kMaxRedirects + 1` rounds, and the branch that follows a redirect is taken in all but
the last. So the last round returns what it gets, a redirect like any other response, and the error
behind the loop is never reached: the limit is kept exactly if the response to the last request is not
a redirect with a `Location` header (`redirect_limit_iff`).
-/

namespace Cmlb.Http

/-- The `Location` of an answer that is a redirect. -/
def Exchanged.location (e : Exchanged) : Option String :=
  match e.answer with
  | .error _ => none
  | .ok (resp, _) => if isRedirect resp.statusCode then findLocation resp.headers else none

/-- A redirect that `resolve_redirect` has a target for. -/
def Exchanged.Resolvable (e : Exchanged) : Prop := ∃ location, e.location = some location ∧ location ≠ ""

/-- The error behind the loop. -/
def TooManyRedirects (r : Result HttpResponse) : Prop :=
  ∃ url, r = .error ⟨.network, "too many redirects (max " ++ toString kMaxRedirects ++ "): " ++ url⟩

/-- What a hard limit of `kMaxRedirects` hops promises of the requests `sent` and the result `r`. -/
structure LimitKept (sent : List Exchanged) (r : Result HttpResponse) : Prop where
  requests : sent.length ≤ kMaxRedirects + 1
  tooMany : kMaxRedirects < sent.length → (∀ e ∈ sent, e.Resolvable) → TooManyRedirects r
  value : ∀ resp, r = .ok resp → isRedirect resp.statusCode = true → findLocation resp.headers = none

/-- The response to the last request that the loop can send, if it comes to that, is not a redirect
with a `Location` header. -/
def LastAnswers (sent : List Exchanged) : Prop :=
  ∀ e, sent[kMaxRedirects]? = some e → e.location = none

/-- How the loop ends with `left` hops to go after this one: with an error, or with the response to its
last request, which it follows only where it may go on. -/
inductive HopsEnd (left : Nat) : List Exchanged → Result HttpResponse → Prop
  | failed {sent : List Exchanged} {err : AppError} (hlen : sent.length ≤ left + 1)
      (hlast : ∀ e, sent[left]? = some e → e.location = none) : HopsEnd left sent (.error err)
  | returned {before : List Exchanged} {key : EndpointKey} {req : WireRequest} {resp : HttpResponse}
      {reusable : Bool} (hlen : before.length ≤ left) (hstop : before.length = left ∨
        Exchanged.location ⟨key, req, .ok (resp, reusable)⟩ = none) :
      HopsEnd left (before ++ [⟨key, req, .ok (resp, reusable)⟩]) (.ok resp)

variable {dest : Option String} {orig : ParsedUrl} {timeout : Int} {left : Nat} {s : Hop}
  {log : List (Σ c, NetCall.Answer c)} {r : Result HttpResponse} {sent : List Exchanged}

theorem HopsEnd.unsent (err : AppError) : HopsEnd left [] (.error err) :=
  .failed (by simp) (by simp)

/-- A request whose answer the loop does not survive. -/
theorem HopsEnd.one {e : Exchanged} (err : AppError) (h : left ≠ 0 ∨ e.location = none) :
    HopsEnd left [e] (.error err) := by
  refine .failed (by simp) fun e' he' => ?_
  obtain ⟨hleft, rfl⟩ : left = 0 ∧ e = e' := by
    cases left with
    | zero => exact ⟨rfl, by simpa using he'⟩
    | succ left => simp at he'
  exact h.resolve_left (not_not.2 hleft)

theorem HopsEnd.cons (h : HopsEnd left sent r) (e : Exchanged) : HopsEnd (left + 1) (e :: sent) r := by
  cases h with
  | failed hlen hlast =>
    exact .failed (Nat.succ_le_succ hlen) fun e' he' => hlast e' (by simpa using he')
  | @returned before key req resp reusable hlen hstop =>
    have hlen' : (e :: before).length ≤ left + 1 := Nat.succ_le_succ hlen
    exact .returned hlen' (hstop.imp_left (congrArg (· + 1)))

/-- What one round of the loop can come to. -/
inductive Round (dest : Option String) (orig : ParsedUrl) (timeout : Int) (left : Nat) :
    List Exchanged → Result HttpResponse → Prop
  | unsent (err : AppError) : Round dest orig timeout left [] (.error err)
  | failed {e : Exchanged} (err : AppError) (h : left ≠ 0 ∨ e.location = none) :
      Round dest orig timeout left [e] (.error err)
  | returned {key : EndpointKey} {req : WireRequest} {resp : HttpResponse} {reusable : Bool}
      (h : left = 0 ∨ Exchanged.location ⟨key, req, .ok (resp, reusable)⟩ = none) :
      Round dest orig timeout left [⟨key, req, .ok (resp, reusable)⟩] (.ok resp)
  | follow (e : Exchanged) {s : Hop} {log : List (Σ c, NetCall.Answer c)} {r : Result HttpResponse}
      (hleft : left ≠ 0) (h : (hops dest orig timeout left s).Dialog log r) :
      Round dest orig timeout left (e :: exchanges log) r

theorem round_of_hops (h : (hops dest orig timeout (left + 1) s).Dialog log r) :
    Round dest orig timeout left (exchanges log) r := by
  have hturn := turn_of_hops h
  generalize exchanges log = sent at hturn ⊢
  cases hturn with
  | unsent err => exact .unsent err
  | lost err hparsed => exact .failed err (.inr rfl)
  | answered reusable hparsed hstop =>
    refine .returned (hstop.imp_right ?_)
    rintro (hother | hnone)
    · simp [Exchanged.location, hother]
    · simp [Exchanged.location, hnone]
  | malformed err hparsed hleft => exact .failed err (.inl hleft)
  | redirect reusable hparsed hleft hcode hloc hnext hrest => exact .follow _ hleft hrest

theorem Round.hopsEnd (h : Round dest orig timeout left sent r)
    (hfollow : left ≠ 0 → ∀ s log, (hops dest orig timeout left s).Dialog log r →
      ∀ e, HopsEnd left (e :: exchanges log) r) : HopsEnd left sent r := by
  cases h with
  | unsent err => exact .unsent err
  | failed err hlast => exact .one err hlast
  | returned hstop =>
    have hlen : ([] : List Exchanged).length ≤ left := Nat.zero_le _
    exact .returned hlen (hstop.imp_left Eq.symm)
  | follow e hleft h => exact hfollow hleft _ _ h e

theorem hops_end (h : (hops dest orig timeout (left + 1) s).Dialog log r) :
    HopsEnd left (exchanges log) r := by
  induction left generalizing s log with
  | zero => exact (round_of_hops h).hopsEnd fun hleft => absurd rfl hleft
  | succ left ih => exact (round_of_hops h).hopsEnd fun _ _ _ h e => (ih h).cons e

theorem Exchanged.location_ok {key : EndpointKey} {req : WireRequest} {resp : HttpResponse}
    {reusable : Bool} (h : Exchanged.location ⟨key, req, .ok (resp, reusable)⟩ = none) :
    isRedirect resp.statusCode = true → findLocation resp.headers = none := by
  intro hcode
  simpa [Exchanged.location, hcode] using h

theorem limitKept_iff (h : HopsEnd kMaxRedirects sent r) : LimitKept sent r ↔ LastAnswers sent := by
  cases h with
  | failed hlen hlast =>
    refine iff_of_true ⟨hlen, ?_, ?_⟩ hlast
    · intro hlt hall
      obtain ⟨e, he⟩ : ∃ e, sent[kMaxRedirects]? = some e := ⟨_, List.getElem?_eq_getElem hlt⟩
      obtain ⟨location, hloc, -⟩ := hall e (List.mem_of_getElem? he)
      rw [hlast e he] at hloc
      cases hloc
    · rintro resp ⟨⟩
  | @returned before key req resp reusable hlen hstop =>
    constructor
    · intro hkept e he
      have hend : before.length = kMaxRedirects := by
        have hlt := (List.getElem?_eq_some_iff.1 he).1
        rw [List.length_append, List.length_singleton] at hlt
        omega
      rw [List.getElem?_append_right (le_of_eq hend), hend, Nat.sub_self] at he
      cases he
      have hvalue := hkept.value resp rfl
      simpa [Exchanged.location] using hvalue
    · intro hlast
      have hloc : Exchanged.location ⟨key, req, .ok (resp, reusable)⟩ = none := by
        rcases hstop with hend | hloc
        · exact hlast _ (by simp [← hend])
        · exact hloc
      refine ⟨by simpa using hlen, ?_, ?_⟩
      · intro _ hall
        obtain ⟨location, hsome, -⟩ := hall ⟨key, req, .ok (resp, reusable)⟩ (by simp)
        rw [hloc] at hsome
        cases hsome
      · rintro _ ⟨⟩
        exact Exchanged.location_ok hloc

theorem limitKept_unsent (err : AppError) : LimitKept [] (.error err) ↔ LastAnswers [] :=
  limitKept_iff (.unsent err)

/-- Whatever the servers answer, `request` and `download_to_file` keep to the limit exactly if the
response to their last possible request is not a redirect with a `Location` header. -/
theorem redirect_limit_iff (req : HttpRequest) (url dest : String) (headers : List HttpHeader) :
    (∀ log r, (request req).Dialog log r →
      (LimitKept (exchanges log) r ↔ LastAnswers (exchanges log))) ∧
    (∀ log r, (downloadToFile url dest headers).Dialog log r →
      (LimitKept (exchanges log) r ↔ LastAnswers (exchanges log))) := by
  refine ⟨fun log r h => ?_, fun log r h => ?_⟩
  · unfold request at h
    split at h
    · obtain ⟨rfl, rfl⟩ := h.pure_inv
      exact limitKept_unsent _
    · exact limitKept_iff (hops_end h)
  · unfold downloadToFile at h
    split at h
    · obtain ⟨rfl, rfl⟩ := h.pure_inv
      exact limitKept_unsent _
    · exact limitKept_iff (hops_end h)

/-- A request that is redirected once. -/
theorem redirect_limit_redirecting :
    LimitKept (exchanges ((request authorized).converse (redirecting "a" "https://b/")).1)
      ((request authorized).converse (redirecting "a" "https://b/")).2 := by
  refine ((redirect_limit_iff authorized "" "" []).1 _ _ (Prog.dialog_converse _ _)).2 ?_
  have hlen : (exchanges ((request authorized).converse (redirecting "a" "https://b/")).1).length = 2 := by
    decide +kernel
  intro e he
  rw [List.getElem?_eq_none (by rw [hlen]; decide)] at he
  cases he

/-- A host that redirects to itself: the sixth redirect is returned as the response. -/
theorem sixth_redirect_returned : ∃ log r, (request authorized).Dialog log r ∧
    (exchanges log).length = 6 ∧ r = .ok ⟨302, "", [("location", "https://a/")]⟩ ∧
    ¬LimitKept (exchanges log) r := by
  have hrun : (exchanges ((request authorized).converse (redirecting "a" "https://a/")).1).length = 6 ∧
      ((request authorized).converse (redirecting "a" "https://a/")).2 =
        .ok ⟨302, "", [("location", "https://a/")]⟩ := by decide +kernel
  refine ⟨_, _, Prog.dialog_converse (redirecting "a" "https://a/") _, hrun.1, hrun.2, fun hkept => ?_⟩
  have hvalue := hkept.value _ hrun.2 (by decide)
  revert hvalue
  decide

end Cmlb.Http
