import Cmlb.Upload.ChunkRetry
import Cmlb.Upload.DriveFiles

/-!
# The tokens that Drive requests carry

`acquire_bearer` hands out the cached token while it is good for another 60 seconds, and a new one
otherwise. Here the uploader's coroutines run against a clock: a stretch between two suspensions takes
less than 60 seconds, and what is awaited takes any time. So a request whose token was acquired in the same
stretch carries a live one (`send_live`): the PUTs of the chunk workers, the opening and the abort of a session, and
the folders that `copy` creates. `copy` and `count` make all their other requests with the token of
their start, so these are live as long as that token is (`drive_requests_live`).

What other coroutines do to the cache meanwhile is in the steps (`Drifts`).
-/

namespace Cmlb.Upload.GoogleDrive

structure DriveAccessToken where
  value : String := ""
  expiresAt : Int := 0
deriving DecidableEq

/-- What `acquire_bearer` finds in the cache. -/
def cachedToken (tok : DriveAccessToken) (now : Int) : Option String :=
  if tok.value ≠ "" ∧ tok.expiresAt - 60 > now then some tok.value else none

/-- A request to Drive: its bearer, when it was issued, and the tokens that there were then. `files`
are the requests that only `copy` and `count` make. -/
structure Issued where
  bearer : Option String
  time : Int
  minted : List DriveAccessToken
  files : Bool

/-- The bearer expires later. -/
def Issued.Live (x : Issued) : Prop :=
  ∃ tok ∈ x.minted, x.bearer = some tok.value ∧ x.time < tok.expiresAt

/-- The clock, when the coroutine was last resumed, and the tokens: the cached one, all that have been
minted, and those that the coroutine has acquired. Times are in seconds. -/
structure TokenWorld where
  now : Int := 0
  resumed : Int := 0
  cache : DriveAccessToken := {}
  minted : List DriveAccessToken := []
  acquired : List DriveAccessToken := []
  issued : List Issued := []

/-- Time passes, and other coroutines mint tokens, cache them and invalidate the cache. -/
structure Drifts (w w' : TokenWorld) : Prop where
  later : w.now ≤ w'.now
  minted : w.minted ⊆ w'.minted
  cache : w'.cache.value ≠ "" → w'.cache ∈ w'.minted
  acquired : w'.acquired = w.acquired
  issued : w'.issued = w.issued

/-- The coroutine goes on without being suspended. -/
structure Computes (w w' : TokenWorld) : Prop extends Drifts w w' where
  resumed : w'.resumed = w.resumed
  brief : w'.now < w.resumed + 60

/-- The coroutine is suspended, and resumed. -/
structure Awaits (w w' : TokenWorld) : Prop extends Drifts w w' where
  resumed : w'.resumed = w'.now

namespace TokenWorld

def issue (w : TokenWorld) (bearer : Option String) (files : Bool) : TokenWorld :=
  { w with issued := w.issued ++ [⟨bearer, w.now, w.minted, files⟩] }

def acquire (w : TokenWorld) (tok : DriveAccessToken) : TokenWorld :=
  { w with acquired := w.acquired ++ [tok] }

end TokenWorld

/-- A request is issued and awaited. -/
def Sends (bearer : Option String) (files : Bool) (w w' : TokenWorld) : Prop :=
  ∃ w₁, Computes w w₁ ∧ Awaits (w₁.issue bearer files) w'

def DriveRequest.bearer : DriveRequest → Option String
  | .tokenExchange _ => none
  | .multipart bearer .. | .resumableInit bearer .. | .createFolder bearer .. => some bearer

def FilesRequest.bearer : FilesRequest → String
  | .metadata bearer _ | .listPage bearer .. | .copyFile bearer .. => bearer

/-- The calls but those that abort a session. Tokens are granted when they are asked for, with a
lifetime above 60 seconds, which begins when the answer is read. -/
def Minting (G : GoogleDriveUploader) (w : TokenWorld) :
    (c : DriveCall) → DriveCall.Answer c → TokenWorld → Prop
  | .cachedBearer, r, w' => ∃ w₁, Computes w w₁ ∧ r = cachedToken w₁.cache w₁.now ∧
    w' = if r.isSome then w₁.acquire w₁.cache else w₁
  | .signJwt, jwt, w' => (∃ text, jwt = .ok text) ∧ Computes w w'
  | .request (.tokenExchange _), res, w' =>
    (∃ resp token, res = .ok resp ∧ G.tokenOf resp = .ok token) ∧ Awaits w w'
  | .storeBearer value expires, _, w' => ∃ w₁ minting, Computes w w₁ ∧ w.now ≤ minting ∧ minting ≤ w₁.now ∧ 60 < expires ∧
    w' = ({ w₁ with
      cache := ⟨value, minting + expires⟩
      minted := ⟨value, minting + expires⟩ :: w₁.minted } : TokenWorld).acquire ⟨value, minting + expires⟩
  | .request q, _, w' => Sends q.bearer false w w'
  | .joinChunks _, _, w' => Awaits w w'
  | .abortSession _, _, _ => False
  | _, _, w' => Computes w w'

/-- The DELETE of a session. -/
structure DeleteSession where
  uri : String
  bearer : Option String

/-- `abort_resumable_session`; what is logged of the answer is left to the caller. -/
def GoogleDriveUploader.abortResumableSession (G : GoogleDriveUploader) (uri : String) :
    Prog (DriveCall ⊕ DeleteSession) (Sum.elim DriveCall.Answer fun _ => Result HttpResponse)
      (Result HttpResponse) := do
  let bearer ← G.acquireBearer.embed
  Prog.ask (Sum.inr ⟨uri, bearer.toOption⟩)

def AbortTimed (G : GoogleDriveUploader) (w : TokenWorld) : (c : DriveCall ⊕ DeleteSession) →
    Sum.elim DriveCall.Answer (fun _ => Result HttpResponse) c → TokenWorld → Prop
  | .inl c, r, w' => Minting G w c r w'
  | .inr d, _, w' => Sends d.bearer false w w'

/-- The calls of an upload. -/
def Timed (G : GoogleDriveUploader) (w : TokenWorld) :
    (c : DriveCall) → DriveCall.Answer c → TokenWorld → Prop
  | .abortSession uri, res, w' => (G.abortResumableSession uri).Served (AbortTimed G) w res w'
  | c, r, w' => Minting G w c r w'

/-- The calls of `copy` and `count`. -/
def FilesTimed (G : GoogleDriveUploader) (w : TokenWorld) :
    (c : DriveCall ⊕ FilesRequest) → FilesAnswer c → TokenWorld → Prop
  | .inl c, r, w' => Minting G w c r w'
  | .inr q, _, w' => Sends (some q.bearer) true w w'

/-- The calls of a chunk worker. -/
def ChunkTimed (G : GoogleDriveUploader) (w : TokenWorld) :
    (c : ChunkCall) → ChunkCall.Answer c → TokenWorld → Prop
  | .acquireBearer, r, w' => G.acquireBearer.Served (Minting G) w r w'
  | .put req, _, w' => Sends (req.headers.lookup "Authorization") false w w'
  | .backoff _, _, w' => Awaits w w'
  | .invalidateBearerCache, _, w' => ∃ w₁, Computes w w₁ ∧ w' = { w₁ with cache := {} }
  | _, _, w' => Computes w w'

/-- The chunks that a worker sends, one after the other, each with the number of bytes that were read. -/
def Resumable.sendChunks (R : Resumable) (sessionUri : String) : List (ChunkPlan × Nat) → ChunkAction Unit
  | [] => pure ()
  | (cp, got) :: rest => do
    let next ← putChunk R sessionUri cp got
    if next then R.sendChunks sessionUri rest else pure ()

/-! ### What a request carries -/

variable {G : GoogleDriveUploader} {w w' : TokenWorld} {tok : DriveAccessToken} {α : Type}

structure TokenWorld.Sound (w : TokenWorld) : Prop where
  cache : w.cache.value ≠ "" → w.cache ∈ w.minted
  resumed : w.resumed ≤ w.now

theorem Computes.sound (h : Computes w w') (hw : w.Sound) : w'.Sound :=
  ⟨h.cache, by rw [h.resumed]; exact hw.resumed.trans h.later⟩

theorem Awaits.sound (h : Awaits w w') : w'.Sound :=
  ⟨h.cache, h.resumed.le⟩

/-- `tok` has been acquired, and is good until the end of the stretch. -/
structure Acquires (w : TokenWorld) (tok : DriveAccessToken) (w' : TokenWorld) : Prop where
  sound : w'.Sound
  mem : tok ∈ w'.minted
  live : w'.resumed + 60 ≤ tok.expiresAt
  minted : w.minted ⊆ w'.minted
  acquired : w'.acquired = w.acquired ++ [tok]
  issued : w'.issued = w.issued

theorem cachedToken_eq_some {now : Int} {value : String} (h : cachedToken tok now = some value) :
    value = tok.value ∧ tok.value ≠ "" ∧ now < tok.expiresAt - 60 := by
  unfold cachedToken at h
  split at h
  · rename_i hgood
    cases h
    exact ⟨rfl, hgood⟩
  · cases h

theorem acquireBearer_timed {r : Result String} (h : G.acquireBearer.Served (Minting G) w r w')
    (hw : w.Sound) : ∃ tok, r = .ok tok.value ∧ Acquires w tok w' := by
  obtain ⟨cached, w₀, ⟨w₁, hcomputes, hcached, rfl⟩, h₁⟩ := h.ask_bind_inv
  have hsound := hcomputes.sound hw
  cases cached with
  | some value =>
    obtain ⟨rfl, rfl⟩ := h₁.pure_inv
    obtain ⟨rfl, hne, hgood⟩ := cachedToken_eq_some hcached.symm
    have hresumed := hsound.resumed
    refine ⟨w₁.cache, rfl, ⟨hsound.cache, hsound.resumed⟩, hsound.cache hne, ?_, hcomputes.minted, ?_,
      hcomputes.issued⟩
    · show w₁.resumed + 60 ≤ w₁.cache.expiresAt
      omega
    · show w₁.acquired ++ [w₁.cache] = _
      rw [hcomputes.acquired]
  | none =>
    obtain ⟨fresh, w₂, h₂, h₃⟩ := h₁.bind_inv
    obtain ⟨jwt, w₃, ⟨⟨text, rfl⟩, hsigns⟩, h₄⟩ := h₂.ask_bind_inv
    obtain ⟨res, w₄, ⟨⟨resp, token, rfl, htoken⟩, hawaits⟩, h₅⟩ := h₄.ask_bind_inv
    obtain ⟨rfl, rfl⟩ := h₅.pure_inv
    rw [htoken] at h₃
    obtain ⟨_, w₅, ⟨w₆, minting, hstores, hlater, -, hlifetime, rfl⟩, h₆⟩ := h₃.ask_bind_inv
    obtain ⟨rfl, rfl⟩ := h₆.pure_inv
    have hsound₆ := hstores.sound hawaits.sound
    have hresumed := hstores.resumed
    have hat := hawaits.resumed
    refine ⟨⟨token.1, minting + token.2⟩, rfl, ⟨fun _ => List.mem_cons_self, hsound₆.resumed⟩,
      List.mem_cons_self, ?_, ?_, ?_, ?_⟩
    · show w₆.resumed + 60 ≤ minting + token.2
      omega
    · exact fun t ht => List.mem_cons_of_mem _ (hstores.minted (hawaits.minted (hsigns.minted (hcomputes.minted ht))))
    · show w₆.acquired ++ _ = _
      rw [hstores.acquired, hawaits.acquired, hsigns.acquired]
      exact congrArg (· ++ _) hcomputes.acquired
    · show w₆.issued = _
      rw [hstores.issued, hawaits.issued, hsigns.issued]
      exact hcomputes.issued

/-- What a run of a coroutine keeps: it goes on from the tokens `base`, and its requests are in `Q`. -/
structure Good (base : List DriveAccessToken) (Q : Issued → Prop) (w : TokenWorld) : Prop where
  sound : w.Sound
  known : base ⊆ w.minted
  acquired : base <+: w.acquired
  issued : ∀ x ∈ w.issued, Q x

variable {base : List DriveAccessToken} {Q : Issued → Prop}

theorem Drifts.good (h : Drifts w w') (hw : Good base Q w) (hsound : w'.Sound) : Good base Q w' := by
  refine ⟨hsound, fun t ht => h.minted (hw.known ht), ?_, ?_⟩
  · rw [h.acquired]
    exact hw.acquired
  · rw [h.issued]
    exact hw.issued

theorem Computes.good (h : Computes w w') (hw : Good base Q w) : Good base Q w' :=
  h.toDrifts.good hw (h.sound hw.sound)

theorem Awaits.good (h : Awaits w w') (hw : Good base Q w) : Good base Q w' :=
  h.toDrifts.good hw h.sound

theorem Acquires.good (h : Acquires w tok w') (hw : Good base Q w) : Good base Q w' := by
  refine ⟨h.sound, fun t ht => h.minted (hw.known ht), ?_, ?_⟩
  · rw [h.acquired]
    exact hw.acquired.trans (List.prefix_append _ _)
  · rw [h.issued]
    exact hw.issued

/-- A request keeps `Good` if it is itself in `Q`, whenever in the stretch it is issued. -/
theorem Sends.good {bearer : Option String} {files : Bool} (h : Sends bearer files w w')
    (hw : Good base Q w)
    (hQ : ∀ time minted, w.minted ⊆ minted → time < w.resumed + 60 → Q ⟨bearer, time, minted, files⟩) :
    Good base Q w' := by
  obtain ⟨w₁, hcomputes, hawaits⟩ := h
  have hw₁ := hcomputes.good hw
  refine hawaits.good ⟨⟨hw₁.sound.cache, hw₁.sound.resumed⟩, hw₁.known, hw₁.acquired, ?_⟩
  intro x hx
  rcases List.mem_append.1 hx with hx | hx
  · exact hw₁.issued x hx
  · rw [List.mem_singleton.1 hx]
    exact hQ _ _ hcomputes.minted hcomputes.brief

/-- A request with a token that was acquired in the same stretch. -/
theorem send_live {files : Bool} (h : Sends (some tok.value) files w w') (hw : Good base Q w)
    (hmem : tok ∈ w.minted) (hlive : w.resumed + 60 ≤ tok.expiresAt)
    (hQ : ∀ x : Issued, x.files = files → x.Live → Q x) : Good base Q w' := by
  refine h.good hw fun time minted hminted htime => hQ _ rfl ⟨tok, hminted hmem, rfl, ?_⟩
  show time < tok.expiresAt
  omega

/-! ### Uploads -/

theorem acquireBearer_upload {r : Result String} (h : G.acquireBearer.Served (Timed G) w r w')
    (hw : w.Sound) : ∃ tok, r = .ok tok.value ∧ Acquires w tok w' := by
  refine acquireBearer_timed (h.mono (only_acquireBearer G) fun w c r w' hc hstep => ?_) hw
  cases c with
  | abortSession uri => exact hc.elim
  | _ => exact hstep

/-- The call of `abort_resumable_session`. -/
theorem abortSession_good {uri : String} {res : Result HttpResponse}
    (h : Timed G w (.abortSession uri) res w') (hw : Good base Issued.Live w) :
    Good base Issued.Live w' := by
  obtain ⟨bearer, w₁, h₁, h₂⟩ := Prog.Served.bind_inv h
  obtain ⟨tok, rfl, hacquires⟩ := acquireBearer_timed h₁.embed_inv hw.sound
  exact send_live h₂.ask_inv (hacquires.good hw) hacquires.mem hacquires.live fun _ _ hx => hx

theorem keeps_uploadChunks (path : Path) (total : Nat) (uri : String) :
    (G.uploadChunks path total uri).Keeps (Timed G) (Good base Issued.Live) := by
  refine .ask_bind (fun _ _ _ h => Computes.good h) fun file => ?_
  cases file with
  | none => exact .ask_bind (fun _ _ _ h => abortSession_good h) fun _ => .pure _
  | some file =>
    refine .ask_bind (fun _ _ _ h => Awaits.good h) fun j => ?_
    split
    · exact .ask_bind (fun _ _ _ h => abortSession_good h) fun _ => .pure _
    · exact .pure _

theorem keeps_uploadResumable (path : Path) (parent : String) :
    (G.uploadResumable path parent).Keeps (Timed G) (Good base Issued.Live) := by
  refine .ask_bind (fun _ _ _ h => Computes.good h) fun size => ?_
  cases size with
  | error what => exact .pure _
  | ok total =>
    intro w r w' h hw
    obtain ⟨bearer, w₁, h₁, h₂⟩ := Prog.Served.bind_inv h
    obtain ⟨tok, rfl, hacquires⟩ := acquireBearer_upload h₁ hw.sound
    obtain ⟨res, w₂, hsends, h₃⟩ := Prog.Served.ask_bind_inv h₂
    have hw₂ := send_live hsends (hacquires.good hw) hacquires.mem hacquires.live fun _ _ hx => hx
    have hrest : (orReturn res fun resp => orReturn (GoogleDriveUploader.sessionOf resp) fun uri =>
        G.uploadChunks path total uri).Keeps (Timed G) (Good base Issued.Live) := by
      cases res with
      | error err => exact .pure _
      | ok resp =>
        show (orReturn (GoogleDriveUploader.sessionOf resp) fun uri => _).Keeps _ _
        cases GoogleDriveUploader.sessionOf resp with
        | error err => exact .pure _
        | ok uri => exact keeps_uploadChunks path total uri
    exact hrest h₃ hw₂

/-! ### The chunk workers -/

theorem invalidateBearerCache_good {r : Unit} (h : ChunkTimed G w .invalidateBearerCache r w')
    (hw : Good base Issued.Live w) : Good base Issued.Live w' := by
  obtain ⟨w₁, hcomputes, rfl⟩ := h
  have hw₁ := hcomputes.good hw
  exact ⟨⟨fun hne => absurd rfl hne, hw₁.sound.resumed⟩, hw₁.known, hw₁.acquired, hw₁.issued⟩

section Chunks

variable (R : Resumable) (sessionUri : String) (cp : ChunkPlan) (got : Nat)

theorem keeps_putRound (refreshed : Bool) (v : ChunkLocals) (chunkRes : Option (Result HttpResponse))
    {again : ChunkLocals → Option (Result HttpResponse) →
      ChunkAction (ChunkLocals × Option (Result HttpResponse))}
    (hagain : ∀ v res, (again v res).Keeps (ChunkTimed G) (Good base Issued.Live)) :
    (putRound R sessionUri cp got refreshed v chunkRes again).Keeps (ChunkTimed G) (Good base Issued.Live) := by
  intro w x w' h hw
  obtain ⟨bearer, w₁, h₁, h₂⟩ := h.ask_bind_inv
  obtain ⟨tok, rfl, hacquires⟩ := acquireBearer_timed h₁ hw.sound
  obtain ⟨res, w₂, hsends, h₃⟩ := Prog.Served.ask_bind_inv h₂
  have hw₂ := send_live hsends (hacquires.good hw) hacquires.mem hacquires.live fun _ _ hx => hx
  cases res with
  | error err =>
    obtain ⟨-, rfl⟩ := h₃.pure_inv
    exact hw₂
  | ok resp =>
    dsimp only at h₃
    split at h₃
    · obtain ⟨-, rfl⟩ := h₃.pure_inv
      exact hw₂
    · obtain ⟨_, w₃, hinvalidates, h₄⟩ := h₃.ask_bind_inv
      exact hagain _ _ h₄ (invalidateBearerCache_good hinvalidates hw₂)

theorem keeps_attempts (left attempt : Nat) (v : ChunkLocals) :
    (attempts R sessionUri cp got left attempt v).Keeps (ChunkTimed G) (Good base Issued.Live) := by
  induction left generalizing attempt v with
  | zero => exact .pure _
  | succ left ih =>
    unfold attempts
    split
    · exact .pure _
    · refine .bind ?_ fun stop => ?_
      · unfold backoffWait
        split
        · exact .ask_bind (fun _ _ _ h => Awaits.good h) fun _ => .ask_bind (fun _ _ _ h => Computes.good h) .pure
        · exact .pure _
      · split
        · exact .pure _
        · refine .bind (keeps_putRound R sessionUri cp got _ _ _ fun _ _ =>
            keeps_putRound R sessionUri cp got _ _ _ fun _ _ => .pure _) fun x => ?_
          dsimp only
          repeat' split
          all_goals first | exact .pure _ | exact ih _ _

theorem keeps_settle (v : ChunkLocals) :
    (settle R got v).Keeps (ChunkTimed G) (Good base Issued.Live) := by
  unfold settle
  split
  · exact .ask_bind (fun _ _ _ h => Computes.good h) fun _ => .pure _
  · refine .ask_bind (fun _ _ _ h => Computes.good h) fun abort => ?_
    split
    · exact .pure _
    · split
      · split
        · exact .ask_bind (fun _ _ _ h => Computes.good h) fun _ => .pure _
        · exact .ask_bind (fun _ _ _ h => Computes.good h) fun _ =>
            .ask_bind (fun _ _ _ h => Computes.good h) fun _ => .pure _
      · split
        · exact .ask_bind (fun _ _ _ h => Computes.good h) fun _ => .pure _
        · exact .ask_bind (fun _ _ _ h => Computes.good h) fun _ => .pure _

theorem keeps_sendChunks (chunks : List (ChunkPlan × Nat)) :
    (R.sendChunks sessionUri chunks).Keeps (ChunkTimed G) (Good base Issued.Live) := by
  induction chunks with
  | nil => exact .pure _
  | cons chunk rest ih =>
    obtain ⟨cp, got⟩ := chunk
    refine .bind (.bind (keeps_attempts R sessionUri cp got _ _ _) (keeps_settle R got)) fun next => ?_
    split
    · exact ih
    · exact .pure _

end Chunks

/-! ### `copy` and `count` -/

/-- A request of `copy` or `count`: it carries the token `first` if it is one of theirs, and a live one
otherwise. -/
def WithFirst (first : DriveAccessToken) (x : Issued) : Prop :=
  if x.files then x.bearer = some first.value ∧ first ∈ x.minted else x.Live

variable {first : DriveAccessToken}

/-- The requests that are made with the token of the start. -/
theorem files_good {q : FilesRequest} {res : Result HttpResponse} (hq : q.bearer = first.value)
    (h : FilesTimed G w (.inr q) res w') (hw : Good [first] (WithFirst first) w) :
    Good [first] (WithFirst first) w' := by
  refine Sends.good h hw fun time minted hminted _ => ?_
  show some q.bearer = some first.value ∧ first ∈ minted
  exact ⟨congrArg some hq, hminted (hw.known List.mem_cons_self)⟩

theorem keeps_createFolder (name parent : String) :
    (G.createFolder name parent).Keeps (Minting G) (Good [first] (WithFirst first)) := by
  intro w r w' h hw
  obtain ⟨bearer, w₁, h₁, h₂⟩ := h.bind_inv
  obtain ⟨tok, rfl, hacquires⟩ := acquireBearer_timed h₁ hw.sound
  obtain ⟨res, w₂, hsends, h₃⟩ := Prog.Served.ask_bind_inv h₂
  have hlive : ∀ x : Issued, x.files = false → x.Live → WithFirst first x := by
    intro x hfiles hx
    rw [WithFirst, hfiles]
    exact hx
  have hw₂ := send_live hsends (hacquires.good hw) hacquires.mem hacquires.live hlive
  cases res with
  | error err =>
    obtain ⟨-, rfl⟩ := h₃.pure_inv
    exact hw₂
  | ok resp =>
    obtain ⟨-, rfl⟩ := Prog.Served.pure_inv h₃
    exact hw₂

/-- What is passed on by `andThen`. -/
theorem keeps_andThen {α β : Type} {I : TokenWorld → Prop} {o : Outcome α} {f : α → FilesAction (Outcome β)}
    (hf : ∀ a, (f a).Keeps (FilesTimed G) I) : (o.andThen f).Keeps (FilesTimed G) I := by
  unfold Outcome.andThen
  split
  · exact hf _
  all_goals exact .pure _

theorem keeps_listPages (parent : String) (fuel : Nat) (pageToken : String) (out : List Json) :
    (G.listPages first.value parent fuel pageToken out).Keeps (FilesTimed G) (Good [first] (WithFirst first)) := by
  induction fuel generalizing pageToken out with
  | zero => exact .pure _
  | succ fuel ih =>
    refine .ask_bind (fun _ _ _ h => files_good rfl h) fun res => ?_
    cases res with
    | error err => exact .pure _
    | ok resp =>
      dsimp only
      repeat' split
      all_goals first | exact .pure _ | exact ih _ _

theorem keeps_countLoop (pages fuel : Nat) (totals : CountResult) (queue : List String) :
    (G.countLoop pages first.value fuel totals queue).Keeps (FilesTimed G)
      (Good [first] (WithFirst first)) := by
  induction fuel generalizing totals queue with
  | zero =>
    cases queue with
    | nil => exact .pure _
    | cons here queue => exact .pure _
  | succ fuel ih =>
    cases queue with
    | nil => exact .pure _
    | cons here queue =>
      refine .ask_bind (fun _ _ _ h => Computes.good h) fun stopped => ?_
      split
      · exact .pure _
      · refine .bind (keeps_listPages here pages "" []) fun children => ?_
        exact keeps_andThen fun children => keeps_andThen fun next => ih _ _

theorem keeps_copyChildren (destination : String) (children : List Json) (stack : List Frame) :
    (G.copyChildren first.value destination children stack).Keeps (FilesTimed G)
      (Good [first] (WithFirst first)) := by
  induction children generalizing stack with
  | nil => exact .pure _
  | cons child rest ih =>
    unfold GoogleDriveUploader.copyChildren
    refine keeps_andThen fun cid => ?_
    split
    · exact ih _
    · refine keeps_andThen fun cmime => keeps_andThen fun cname => ?_
      split
      · exact .bind (keeps_createFolder cname destination).embed fun created => keeps_andThen fun id => ih _
      · refine .ask_bind (fun _ _ _ h => files_good rfl h) fun res => keeps_andThen fun resp => ?_
        split
        · exact ih _
        · exact .pure _

theorem keeps_copyLoop (pages fuel : Nat) (rootId : String) (stack : List Frame) :
    (G.copyLoop pages first.value rootId fuel stack).Keeps (FilesTimed G)
      (Good [first] (WithFirst first)) := by
  induction fuel generalizing stack with
  | zero =>
    cases stack with
    | nil => exact .pure _
    | cons frame stack => exact .pure _
  | succ fuel ih =>
    cases stack with
    | nil => exact .pure _
    | cons frame stack =>
      refine .ask_bind (fun _ _ _ h => Computes.good h) fun stopped => ?_
      split
      · exact .pure _
      · refine .bind (keeps_listPages frame.source pages "" []) fun children => keeps_andThen fun children => ?_
        exact .bind (keeps_copyChildren frame.destination children stack) fun frames => keeps_andThen fun next => ih _

theorem keeps_fetchMetadata (id : String) :
    (G.fetchMetadata first.value id).Keeps (FilesTimed G) (Good [first] (WithFirst first)) := by
  refine .ask_bind (fun _ _ _ h => files_good rfl h) fun res => ?_
  cases res with
  | error err => exact .pure _
  | ok resp =>
    dsimp only
    repeat' split
    all_goals exact .pure _

theorem keeps_copyOne (sourceId target : String) :
    (G.copyOne first.value sourceId target).Keeps (FilesTimed G) (Good [first] (WithFirst first)) :=
  .ask_bind (fun _ _ _ h => files_good rfl h) fun _ => keeps_andThen fun _ => .pure _

/-! ### Whole runs -/

namespace TokenWorld

/-- A coroutine starts. -/
structure Start (w : TokenWorld) : Prop where
  sound : w.Sound
  acquired : w.acquired = []
  issued : w.issued = []

def AllLive (w : TokenWorld) : Prop := ∀ x ∈ w.issued, x.Live

/-- No request of `copy` or `count` other than those for a folder comes after the first token that the
call has acquired expires. -/
def OnTime (w : TokenWorld) : Prop :=
  ∀ x ∈ w.issued, x.files = true → ∀ tok, w.acquired.head? = some tok → x.time < tok.expiresAt

/-- No two tokens have the same value. -/
def Unambiguous (w : TokenWorld) : Prop :=
  ∀ x ∈ w.issued, ∀ tok ∈ x.minted, ∀ tok' ∈ x.minted, tok.value = tok'.value → tok = tok'

end TokenWorld

theorem TokenWorld.Start.good (h : w.Start) : Good [] Issued.Live w :=
  ⟨h.sound, List.nil_subset _, List.nil_prefix, by simp [h.issued]⟩

/-- The run goes on from its first token. -/
theorem Acquires.first_good (h : Acquires w first w') (hw : w.Start) : Good [first] (WithFirst first) w' := by
  refine ⟨h.sound, by simpa using h.mem, ?_, ?_⟩
  · rw [h.acquired, hw.acquired]
    exact List.prefix_rfl
  · rw [h.issued, hw.issued]
    simp

/-- A call that starts with `acquire_bearer` and makes its other requests with that token. -/
theorem first_good {ready : Bool} {body : String → FilesAction (Outcome α)} {r : Outcome α}
    (h : ((if ready then do
      let bearer ← G.acquireBearer.embed
      (Outcome.returned bearer).andThen body
    else pure notReadyYet : FilesAction (Outcome α))).Served (FilesTimed G) w r w')
    (hw : w.Start) (hbody : ∀ first : DriveAccessToken,
      (body first.value).Keeps (FilesTimed G) (Good [first] (WithFirst first))) :
    w'.issued = [] ∨ ∃ first, Good [first] (WithFirst first) w' := by
  cases ready with
  | false =>
    obtain ⟨-, rfl⟩ := Prog.Served.pure_inv h
    exact .inl hw.issued
  | true =>
    obtain ⟨bearer, w₁, h₁, h₂⟩ := Prog.Served.bind_inv h
    obtain ⟨first, rfl, hacquires⟩ := acquireBearer_timed h₁.embed_inv hw.sound
    exact .inr ⟨first, hbody first h₂ (hacquires.first_good hw)⟩

theorem count_good {fuel : Nat} {folderId : String} {r : Outcome CountResult}
    (h : (G.count fuel folderId).Served (FilesTimed G) w r w') (hw : w.Start) :
    w'.issued = [] ∨ ∃ first, Good [first] (WithFirst first) w' :=
  first_good h hw fun _ => keeps_countLoop fuel fuel {} [folderId]

theorem copy_good {fuel : Nat} {sourceId target : String} {r : Outcome String}
    (h : (G.copy fuel sourceId target).Served (FilesTimed G) w r w') (hw : w.Start) :
    w'.issued = [] ∨ ∃ first, Good [first] (WithFirst first) w' := by
  refine first_good h hw fun first => .bind (keeps_fetchMetadata sourceId) fun doc => ?_
  refine keeps_andThen fun doc => keeps_andThen fun mime => keeps_andThen fun name => ?_
  split
  · refine .bind (keeps_createFolder name target).embed fun root => keeps_andThen fun rootId => ?_
    exact keeps_copyLoop fuel fuel rootId _
  · exact keeps_copyOne sourceId target

/-- Where all other requests carry live tokens, those with the first token decide. -/
theorem allLive_iff (h : w.issued = [] ∨ ∃ first, Good [first] (WithFirst first) w) :
    (w.OnTime → w.AllLive) ∧ (w.Unambiguous → w.AllLive → w.OnTime) := by
  rcases h with hnil | ⟨first, hgood⟩
  · refine ⟨fun _ x hx => ?_, fun _ _ x hx => ?_⟩ <;> rw [hnil] at hx <;> cases hx
  · have hhead : w.acquired.head? = some first := by
      obtain ⟨rest, hrest⟩ := hgood.acquired
      rw [← hrest]
      rfl
    constructor
    · intro hontime x hx
      have hwith := hgood.issued x hx
      unfold WithFirst at hwith
      split at hwith
      · rename_i hfiles
        exact ⟨first, hwith.2, hwith.1, hontime x hx hfiles first hhead⟩
      · exact hwith
    · intro hunambiguous hlive x hx hfiles tok htok
      obtain rfl : first = tok := by
        rw [hhead] at htok
        cases htok
        rfl
      have hwith := hgood.issued x hx
      rw [WithFirst, if_pos hfiles] at hwith
      obtain ⟨tok, hmem, hbearer, htime⟩ := hlive x hx
      have hvalue : tok.value = first.value := Option.some.inj (hbearer.symm.trans hwith.1)
      rw [← hunambiguous x hx tok hmem first hwith.2 hvalue]
      exact htime

/-- Every request of an upload, of its chunk workers and of the abort of its session carries a live
token. Every request of `copy` and of `count` does, if those with the token of the start are issued
before it expires; and, where tokens are not confused, only then. -/
theorem drive_requests_live (hw : w.Start) :
    (∀ path parent r, (G.uploadResumable path parent).Served (Timed G) w r w' → w'.AllLive) ∧
    (∀ R uri chunks r, (Resumable.sendChunks R uri chunks).Served (ChunkTimed G) w r w' → w'.AllLive) ∧
    (∀ fuel sourceId target r, (G.copy fuel sourceId target).Served (FilesTimed G) w r w' →
      (w'.OnTime → w'.AllLive) ∧ (w'.Unambiguous → w'.AllLive → w'.OnTime)) ∧
    ∀ fuel folderId r, (G.count fuel folderId).Served (FilesTimed G) w r w' →
      (w'.OnTime → w'.AllLive) ∧ (w'.Unambiguous → w'.AllLive → w'.OnTime) := by
  refine ⟨fun path parent r h => ?_, fun R uri chunks r h => ?_, fun fuel sourceId target r h => ?_,
    fun fuel folderId r h => ?_⟩
  · exact (keeps_uploadResumable path parent h hw.good).issued
  · exact (keeps_sendChunks R uri chunks h hw.good).issued
  · exact allLive_iff (copy_good h hw)
  · exact allLive_iff (count_good h hw)

/-! ### An empty folder in several pages -/

theorem Drifts.refl (hw : w.Sound) : Drifts w w :=
  ⟨le_refl _, fun _ h => h, hw.cache, rfl, rfl⟩

theorem computes_refl (hw : w.Sound) (h : w.now < w.resumed + 60) : Computes w w :=
  ⟨.refl hw, rfl, h⟩

/-- Nothing but time passes. -/
theorem awaits_until (hw : w.Sound) {t : Int} (h : w.now ≤ t) : Awaits w { w with now := t, resumed := t } :=
  ⟨⟨h, fun _ h => h, hw.cache, rfl, rfl⟩, rfl⟩

def tokenText : String := "\x7b\"access_token\":\"t\",\"expires_in\":3600\x7d"

/-- A page without children, and with a token of the next page. -/
def nextText : String := "\x7b\"files\":[],\"nextPageToken\":\"p\"\x7d"

def lastText : String := "\x7b\"files\":[]\x7d"

/-- Reads the three texts. -/
def pagingUploader : GoogleDriveUploader :=
  ⟨true, ⟨fun body =>
    if body = tokenText then .ok (.object [("access_token", .string "t"), ("expires_in", .number 3600)])
    else if body = nextText then .ok (.object [("files", .array []), ("nextPageToken", .string "p")])
    else if body = lastText then .ok (.object [("files", .array [])])
    else .error "parse error", fun _ => 0⟩, "", 0, 1, 1, 0⟩

theorem pageOf_nextText : pageOf pagingUploader.json nextText = .ok ([], some "p") := by
  have hne : nextText ≠ tokenText := by decide
  simp only [pageOf, pagingUploader, if_neg hne, if_true]
  rfl

theorem pageOf_lastText : pageOf pagingUploader.json lastText = .ok ([], none) := by
  have hne : lastText ≠ tokenText ∧ lastText ≠ nextText := by decide
  simp only [pageOf, pagingUploader, if_neg hne.1, if_neg hne.2, if_true]
  rfl

def hourToken : DriveAccessToken := ⟨"Bearer t", 3600⟩

/-- A token has been minted at time 0. -/
def mintedWorld : TokenWorld := ⟨0, 0, hourToken, [hourToken], [hourToken], []⟩

theorem start_sound : ({} : TokenWorld).Sound := ⟨fun h => absurd rfl h, le_refl _⟩

theorem start_start : ({} : TokenWorld).Start := ⟨start_sound, rfl, rfl⟩

theorem mintedWorld_sound : mintedWorld.Sound := ⟨fun _ => List.mem_cons_self, le_refl _⟩

theorem tokenOf_tokenText : pagingUploader.tokenOf ⟨200, tokenText, []⟩ = .ok ("Bearer t", 3600) := by
  simp only [GoogleDriveUploader.tokenOf, parseToken, pagingUploader, if_true]
  rfl

theorem acquire_minted : pagingUploader.acquireBearer.Served (Minting pagingUploader) {} (.ok "Bearer t")
    mintedWorld := by
  have hstay : Computes {} {} := computes_refl start_sound (by decide)
  have hmint : pagingUploader.mintBearer.Served (Minting pagingUploader) {} (.ok ("Bearer t", 3600)) {} := by
    refine .call (r := .ok "jwt") ⟨⟨"jwt", rfl⟩, hstay⟩ ?_
    refine .call (r := .ok ⟨200, tokenText, []⟩) ⟨⟨_, _, rfl, tokenOf_tokenText⟩, .refl start_sound, rfl⟩ ?_
    show (pure (pagingUploader.tokenOf ⟨200, tokenText, []⟩) : Action (Result (String × Int))).Served _ _ _ _
    rw [tokenOf_tokenText]
    exact .pure _ _
  refine .call (r := none) ⟨{}, hstay, rfl, rfl⟩ (hmint.bind ?_)
  refine .call (r := ()) ⟨{}, 0, hstay, le_refl _, le_refl _, by decide, rfl⟩ ?_
  exact .pure _ _

theorem isSuccess_ok (body : String) : isSuccess ⟨200, body, []⟩ = true := by
  simp [isSuccess]

/-- The world after a page that took until `t`. -/
def TokenWorld.page (w : TokenWorld) (t : Int) : TokenWorld :=
  { w.issue (some "Bearer t") true with now := t, resumed := t }

theorem sends_page (hw : w.Sound) (hbrief : w.now < w.resumed + 60) {t : Int} (h : w.now ≤ t) :
    Sends (some "Bearer t") true w (w.page t) := by
  have hissued : (w.issue (some "Bearer t") true).Sound := ⟨hw.cache, hw.resumed⟩
  exact ⟨w, computes_refl hw hbrief, awaits_until hissued h⟩

/-- A run of `count` from a run of its first listing. -/
theorem count_listed {fuel : Nat}
    (h : (pagingUploader.listChildren (fuel + 1) "Bearer t" "root").Served (FilesTimed pagingUploader)
      mintedWorld (.returned (.ok [])) w') :
    (pagingUploader.count (fuel + 1) "root").Served (FilesTimed pagingUploader) {} (.returned (.ok {})) w' := by
  have hstay : Computes mintedWorld mintedWorld := computes_refl mintedWorld_sound (by decide)
  have hloop : (pagingUploader.countLoop (fuel + 1) "Bearer t" (fuel + 1) {} ["root"]).Served
      (FilesTimed pagingUploader) mintedWorld (.returned (.ok {})) w' := by
    refine .call (r := false) hstay (h.bind ?_)
    cases fuel <;> exact .pure _ _
  refine acquire_minted.embed.bind ?_
  exact hloop

theorem TokenWorld.Sound.page (hw : w.Sound) (t : Int) : (w.page t).Sound := ⟨hw.cache, le_refl _⟩

/-- The pages of a listing from one on: those before the last take until the times `ts`, the last until `t`. -/
theorem listed_pages (pageToken : String) (ts : List Int) (t : Int) (hw : w.Sound)
    (hbrief : w.now < w.resumed + 60) (hts : List.IsChain (· ≤ ·) (w.now :: (ts ++ [t]))) :
    (pagingUploader.listPages "Bearer t" "root" (ts.length + 1) pageToken []).Served (FilesTimed pagingUploader)
      w (.returned (.ok [])) ((ts.foldl TokenWorld.page w).page t) := by
  induction ts generalizing w pageToken with
  | nil =>
    obtain ⟨hle, -⟩ := List.isChain_cons_cons.1 hts
    unfold GoogleDriveUploader.listPages
    refine .ask_bind (r := .ok ⟨200, lastText, []⟩) (sends_page hw hbrief hle) ?_
    simp only [isSuccess_ok, if_true, pageOf_lastText]
    exact .pure _ _
  | cons u ts ih =>
    obtain ⟨hle, hrest⟩ := List.isChain_cons_cons.1 hts
    have hnow : (w.page u).now < (w.page u).resumed + 60 := Int.lt_add_of_pos_right u (by decide)
    unfold GoogleDriveUploader.listPages
    refine .ask_bind (r := .ok ⟨200, nextText, []⟩) (sends_page hw hbrief hle) ?_
    simp only [isSuccess_ok, if_true, pageOf_nextText]
    exact ih "p" (hw.page u) hnow hrest

/-- `count` of an empty folder in three pages of 1000 seconds each. -/
theorem drive_requests_live_hour : ∃ r w', (pagingUploader.count 3 "root").Served (FilesTimed pagingUploader) {} r w' ∧
    w'.issued.map Issued.time = [0, 1000, 2000] ∧ w'.AllLive := by
  have hrun := count_listed (listed_pages "" [1000, 2000] 3000 mintedWorld_sound (by decide) (by decide))
  have hontime : TokenWorld.OnTime ((List.foldl TokenWorld.page mintedWorld [1000, 2000]).page 3000) := by
    intro x hx _ tok htok
    cases htok
    have htime : x.time ∈ [0, 1000, 2000] := List.mem_map_of_mem hx
    have hlate : ∀ time ∈ [(0 : Int), 1000, 2000], time < hourToken.expiresAt := by decide
    exact hlate _ htime
  have hcount := (drive_requests_live start_start).2.2.2 3 "root" _ hrun
  exact ⟨_, _, hrun, rfl, hcount.1 hontime⟩

/-- `count` of an empty folder whose listing comes in two pages, the first after 4000 seconds: the second
request carries a token that expired 400 seconds before. -/
theorem count_with_expired_token : ({} : TokenWorld).Start ∧
    ∃ w', (pagingUploader.count 2 "root").Served (FilesTimed pagingUploader) {} (.returned (.ok {})) w' ∧
      ∃ x ∈ w'.issued, x.bearer = some "Bearer t" ∧ x.time = 4000 ∧ x.minted = [⟨"Bearer t", 3600⟩] ∧ ¬ x.Live := by
  have hlisted := listed_pages "" [4000] 4000 mintedWorld_sound (by decide) (by decide)
  refine ⟨start_start, _, count_listed hlisted, ⟨some "Bearer t", 4000, [hourToken], true⟩, ?_, rfl, rfl, rfl, ?_⟩
  · exact List.mem_append_right _ List.mem_cons_self
  · rintro ⟨tok, hmem, -, htime⟩
    rw [List.mem_singleton.1 hmem] at htime
    exact absurd htime (by decide)

end Cmlb.Upload.GoogleDrive
