import Mathlib.Data.Finset.Basic
import Cmlb.Lib.Interleave
import Cmlb.Download.Qbittorrent

/-!
# Adding torrents to qBittorrent (`QbittorrentDownloader::Impl::add_common`)

`torrents/add` does not tell the hash of the new torrent, so `add_common` lists the torrents before
and after and takes the first hash that is new. Several calls run against one server, which lists the
torrents added so far. A call that is between its two listings while another call's torrent lands can
take that torrent's hash; when no torrent lands there, each call returns its own (`own_hash`).

The requests themselves are not modelled: `add_uri` and `add_torrent` are the torrent whose hash the
server will list.
-/

namespace Cmlb.Qbittorrent

/-- The hashes of a `torrents/info` document; one that is not an array has none. -/
def hashes (j : Json) : Finset String :=
  ((j.asArray.getD []).filterMap (Json.stringMember "hash")).toFinset

/-- `snapshot_hashes`, on the answer of `authed_request`. -/
def snapshotHashes (L : JsonLib) (resp : Result HttpResponse) : Result (Finset String) :=
  match resp with
  | .error err => .error err
  | .ok resp =>
    if resp.statusCode ≠ 200 then
      .error ⟨.qbittorrentApi, "torrents/info HTTP " ++ toString resp.statusCode⟩
    else
      match L.parse resp.body with
      | .error what => .error ⟨.jsonParse, what⟩
      | .ok j => .ok (hashes j)

/-- What `add_common` makes of the answer to `torrents/add`. -/
def addAccepted (resp : Result HttpResponse) : Result Unit :=
  match resp with
  | .error err => .error err
  | .ok resp =>
    if resp.statusCode ≠ 200 then
      .error ⟨.qbittorrentApi, "torrents/add HTTP " ++ toString resp.statusCode ++ ": " ++ resp.body⟩
    else if "Fails".toList <:+: resp.body.toList then
      .error ⟨.qbittorrentApi, "torrents/add rejected: " ++ resp.body⟩
    else .ok ()

/-- The loop over the second listing, in the iteration order of the `unordered_set`. -/
def newHash (before : Finset String) (order : List String) : Result Gid :=
  match order.find? (· ∉ before) with
  | some h => .ok ⟨h⟩
  | none => .error ⟨.qbittorrentApi, "torrents/add accepted but no new hash visible (duplicate?)"⟩

inductive AddPc
  | snapshotting
  | posting (before : Finset String)
  | listing (before : Finset String)
  | returned (r : Result Gid)

/-- Past the first listing, before the second. -/
def AddPc.between : AddPc → Bool
  | .posting _ | .listing _ => true
  | _ => false

/-- A request of `add_common` is answered. `landed`: the server has added the torrent, which it may
have done even if its answer is lost. -/
inductive AddEvent
  | snapshot (resp : Result HttpResponse)
  | post (resp : Result HttpResponse) (landed : Bool)
  | resnapshot (resp : Result HttpResponse) (order : List String)

/-- One request of a call that adds `torrent`, at a server that lists `listed`. -/
def addCommon (L : JsonLib) (torrent : String) (listed : Finset String) (pc : AddPc) (e : AddEvent) :
    Option (Finset String × AddPc) :=
  match pc, e with
  | .snapshotting, .snapshot resp =>
    match snapshotHashes L resp with
    | .error err => some (listed, .returned (.error err))
    | .ok before => if before = listed then some (listed, .posting before) else none
  | .posting before, .post resp landed =>
    let listed := if landed then insert torrent listed else listed
    match addAccepted resp with
    | .error err => some (listed, .returned (.error err))
    | .ok _ => if landed then some (listed, .listing before) else none
  | .listing before, .resnapshot resp order =>
    match snapshotHashes L resp with
    | .error err => some (listed, .returned (.error err))
    | .ok after =>
      if after = listed ∧ order.toFinset = after then some (listed, .returned (newHash before order))
      else none
  | _, _ => none

variable {ι : Type}

/-- Calls `c : ι` adding the torrents `torrent c`. -/
def adding (L : JsonLib) (torrent : ι → String) :
    Interleaving ι (Finset String) AddPc Empty AddEvent where
  env _ e := e.elim
  act c := addCommon L (torrent c)

/-- A torrent lands while no other call is between its two listings. -/
def LandsAlone (s : Sys ι (Finset String) AddPc) : SysEvent ι Empty AddEvent → Prop
  | .act c (.post _ true) => ∀ d, d ≠ c → (s.locals d).between = false
  | _ => True

/-- What is known of a call that adds `torrent`. -/
def AddOk (torrent : String) (listed : Finset String) : AddPc → Prop
  | .snapshotting => torrent ∉ listed
  | .posting before => torrent ∉ listed ∧ listed = before
  | .listing before => torrent ∉ before ∧ listed = insert torrent before
  | .returned r => ∀ g, r = .ok g → g.value = torrent

variable {L : JsonLib} {torrent : String} {listed listed' : Finset String} {pc pc' : AddPc} {e : AddEvent}

theorem newHash_eq_ok {before : Finset String} {order : List String} {g : Gid}
    (h : newHash before order = .ok g) : g.value ∈ order ∧ g.value ∉ before := by
  unfold newHash at h
  split at h
  · rename_i x hx
    cases h
    exact ⟨List.mem_of_find?_eq_some hx, by simpa using List.find?_some hx⟩
  · cases h

/-- What a request of a call can do. -/
inductive AddStep (torrent : String) (listed : Finset String) :
    AddPc → AddEvent → Finset String → AddPc → Prop
  | failed (pc e err) : AddStep torrent listed pc e listed (.returned (.error err))
  | lost (before resp err) : AddStep torrent listed (.posting before) (.post resp true)
      (insert torrent listed) (.returned (.error err))
  | snapshot (resp) : AddStep torrent listed .snapshotting (.snapshot resp) listed (.posting listed)
  | post (before resp) : AddStep torrent listed (.posting before) (.post resp true)
      (insert torrent listed) (.listing before)
  | resnapshot (before resp) {order} (h : order.toFinset = listed) : AddStep torrent listed
      (.listing before) (.resnapshot resp order) listed (.returned (newHash before order))

theorem addCommon_inv (hs : addCommon L torrent listed pc e = some (listed', pc')) :
    AddStep torrent listed pc e listed' pc' := by
  unfold addCommon at hs
  split at hs
  · split at hs
    · cases hs
      exact .failed _ _ _
    · split at hs <;> cases hs
      rename_i heq
      rw [heq]
      exact .snapshot _
  · rename_i before resp landed
    cases landed with
    | false =>
      dsimp only at hs
      split at hs <;> cases hs
      exact .failed _ _ _
    | true =>
      dsimp only at hs
      split at hs <;> cases hs
      · exact .lost _ _ _
      · exact .post _ _
  · split at hs
    · cases hs
      exact .failed _ _ _
    · split at hs <;> cases hs
      rename_i hafter
      exact .resnapshot _ _ (hafter.2.trans hafter.1)
  · cases hs

theorem AddOk.own (h : AddOk torrent listed pc) (hs : AddStep torrent listed pc e listed' pc') :
    AddOk torrent listed' pc' := by
  cases hs with
  | failed pc e err => exact fun g hg => by cases hg
  | lost before resp err => exact fun g hg => by cases hg
  | snapshot resp => exact ⟨h, rfl⟩
  | post before resp =>
    obtain ⟨hnew, rfl⟩ := h
    exact ⟨hnew, rfl⟩
  | resnapshot before resp horder =>
    obtain ⟨hnew, rfl⟩ := h
    intro g hg
    -- the only hash that is listed now and was not before is the call's own
    obtain ⟨hmem, hnot⟩ := newHash_eq_ok hg
    have hmem' := List.mem_toFinset.2 hmem
    rw [horder] at hmem'
    exact (Finset.mem_insert.1 hmem').resolve_right hnot

/-- A torrent of another call leaves a call alone that is not between its listings. -/
theorem AddOk.insert {other : String} (h : AddOk torrent listed pc) (hne : torrent ≠ other)
    (hpc : pc.between = false) : AddOk torrent (insert other listed) pc := by
  cases pc with
  | snapshotting => exact fun hmem => (Finset.mem_insert.1 hmem).elim hne h
  | posting before => cases hpc
  | listing before => cases hpc
  | returned r => exact h

variable [DecidableEq ι]

/-- When every torrent lands alone, each call that returns a gid returns the hash of its torrent. -/
theorem own_hash (L : JsonLib) (torrent : ι → String) (htorrent : Function.Injective torrent)
    (listed : Finset String) (hnew : ∀ c, torrent c ∉ listed) {t : List (SysEvent ι Empty AddEvent)}
    {s : Sys ι (Finset String) AddPc}
    (h : (adding L torrent).machine.Steps LandsAlone ⟨listed, fun _ => .snapshotting⟩ t s) :
    (∀ c g, s.locals c = .returned (.ok g) → g.value = torrent c) ∧
      ∀ c d g g', c ≠ d → s.locals c = .returned (.ok g) → s.locals d = .returned (.ok g') → g ≠ g' := by
  have hok : ∀ c, AddOk (torrent c) s.shared (s.locals c) := by
    refine Interleaving.each (A := fun c => AddOk (torrent c)) ?_ ?_ ?_ ?_ h
    · exact hnew
    · intro s c e listed' pc' _ hA hs
      exact (hA c).own (addCommon_inv hs)
    · intro s c e listed' pc' halone hA hs d hd
      have hne : torrent d ≠ torrent c := fun heq => hd (htorrent heq)
      have hstep := addCommon_inv hs
      generalize s.locals c = pc at hstep
      cases hstep with
      | lost before resp err => exact (hA d).insert hne (halone d hd)
      | post before resp => exact (hA d).insert hne (halone d hd)
      | _ => exact hA d
    · intro s e
      exact e.elim
  have hown : ∀ c g, s.locals c = .returned (.ok g) → g.value = torrent c := by
    intro c g hc
    have hA := hok c
    rw [hc] at hA
    exact hA g rfl
  refine ⟨hown, fun c d g g' hne hc hd heq => hne (htorrent ?_)⟩
  rw [← hown c g hc, ← hown d g' hd, heq]

/-! Two calls, for the torrents `a` and `b` -/

def twoTorrents : Bool → String
  | false => "a"
  | true => "b"

def listingBody : List String → String
  | [] => "[]"
  | ["a"] => "[\x7b\"hash\":\"a\"\x7d]"
  | _ => "[\x7b\"hash\":\"a\"\x7d,\x7b\"hash\":\"b\"\x7d]"

def listingJson (hs : List String) : Json := .array (hs.map fun h => .object [("hash", .string h)])

/-- A parser that knows the listings of `a` and `b`. -/
def listingLib : JsonLib where
  parse body :=
    if body = listingBody [] then .ok (listingJson [])
    else if body = listingBody ["a"] then .ok (listingJson ["a"])
    else if body = listingBody ["a", "b"] then .ok (listingJson ["a", "b"])
    else .error "parse error"
  trunc _ := 0

def lists (hs : List String) : Result HttpResponse := .ok ⟨200, listingBody hs, []⟩

def posted : AddEvent := .post (.ok ⟨200, "Ok.", []⟩) true

/-- One call after the other. -/
def addInTurn : List (SysEvent Bool Empty AddEvent) :=
  [.act false (.snapshot (lists [])), .act false posted, .act false (.resnapshot (lists ["a"]) ["a"]),
    .act true (.snapshot (lists ["a"])), .act true posted,
    .act true (.resnapshot (lists ["a", "b"]) ["a", "b"])]

/-- Both calls list before either torrent lands, and each then meets the other's hash first. -/
def addCrossed : List (SysEvent Bool Empty AddEvent) :=
  [.act false (.snapshot (lists [])), .act true (.snapshot (lists [])), .act false posted,
    .act true posted, .act false (.resnapshot (lists ["a", "b"]) ["b", "a"]),
    .act true (.resnapshot (lists ["a", "b"]) ["a", "b"])]

def returnedGid : AddPc → Option Gid
  | .returned (.ok g) => some g
  | _ => none

instance (s : Sys Bool (Finset String) AddPc) (e : SysEvent Bool Empty AddEvent) :
    Decidable (LandsAlone s e) :=
  match e with
  | .act c (.post _ true) => inferInstanceAs (Decidable (∀ d, d ≠ c → (s.locals d).between = false))
  | .act _ (.post _ false) | .act _ (.snapshot _) | .act _ (.resnapshot _ _) | .env _ =>
    inferInstanceAs (Decidable True)

theorem eq_of_returnedGid {g : Gid} (h : returnedGid pc = some g) : pc = .returned (.ok g) := by
  unfold returnedGid at h
  split at h <;> cases h
  rfl

theorem twoTorrents_injective : Function.Injective twoTorrents := by
  intro c d
  revert c d
  decide

set_option maxRecDepth 4000 in
theorem own_hash_in_turn : ∃ s, (adding listingLib twoTorrents).machine.Runs
    ⟨∅, fun _ => .snapshotting⟩ addInTurn s ∧
    s.locals false = .returned (.ok ⟨"a"⟩) ∧ s.locals true = .returned (.ok ⟨"b"⟩) ∧
      (⟨"a"⟩ : Gid).value = twoTorrents false ∧ (⟨"b"⟩ : Gid).value = twoTorrents true := by
  have hobs : ((adding listingLib twoTorrents).machine.runIf (fun s e => decide (LandsAlone s e))
      ⟨∅, fun _ => .snapshotting⟩ addInTurn).map
        (fun s => (returnedGid (s.locals false), returnedGid (s.locals true))) =
      some (some ⟨"a"⟩, some ⟨"b"⟩) := by decide
  obtain ⟨s, hs, ho⟩ := Machine.exists_steps hobs
  simp only [Prod.mk.injEq] at ho
  have ha := eq_of_returnedGid ho.1
  have hb := eq_of_returnedGid ho.2
  obtain ⟨hown, -⟩ := own_hash listingLib twoTorrents twoTorrents_injective ∅
    (fun c => Finset.notMem_empty _) (hs.mono fun s e he => of_decide_eq_true he)
  exact ⟨s, hs.runs, ha, hb, hown false _ ha, hown true _ hb⟩

set_option maxRecDepth 4000 in
/-- Two concurrent calls return each other's hash. -/
theorem crossed_hashes : ¬ ∀ (L : JsonLib) (torrent : Bool → String) (listed : Finset String)
    (t : List (SysEvent Bool Empty AddEvent)) (s : Sys Bool (Finset String) AddPc),
    Function.Injective torrent → (∀ c, torrent c ∉ listed) →
    (adding L torrent).machine.Runs ⟨listed, fun _ => .snapshotting⟩ t s →
    ∀ g g', s.locals false = .returned (.ok g) → s.locals true = .returned (.ok g') →
      g.value = torrent false ∧ g'.value = torrent true := by
  intro hall
  have hobs : ((adding listingLib twoTorrents).machine.run ⟨∅, fun _ => .snapshotting⟩ addCrossed).map
      (fun s => (returnedGid (s.locals false), returnedGid (s.locals true))) =
      some (some ⟨"b"⟩, some ⟨"a"⟩) := by decide
  obtain ⟨s, hs, ho⟩ := Machine.exists_runs hobs
  simp only [Prod.mk.injEq] at ho
  obtain ⟨ha, -⟩ := hall listingLib twoTorrents ∅ _ s twoTorrents_injective
    (fun c => Finset.notMem_empty _) hs _ _ (eq_of_returnedGid ho.1) (eq_of_returnedGid ho.2)
  revert ha
  decide

end Cmlb.Qbittorrent
