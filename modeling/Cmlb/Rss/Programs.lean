import Cmlb.Lib.Parallel
import Cmlb.Persistence.RssFeedQueries
import Cmlb.Rss.FeedPoller

/-!
# The programs on the RSS feeds (`rss_subscription.cpp`, `rss_feed_poller.cpp`)

`RssSubscription` and `RssFeedPoller` as programs over the calls they make, which other coroutines can
come between. `serves` is the repository on its table; whatever the clock, the network, the handler of
new entries and the cancellation answer is possible. `run rounds` is the poller's endless loop up to its
round `rounds`.

`pass_is_polls` connects a pass of the poller to the pure `Poller.scan`: it polls the feeds that are
due, each on its own, in the order of the list.
-/

namespace Cmlb.Rss

open Persistence
open Prog (ask)

inductive RssCall
  | save (feed : RssFeed)
  | listEnabled
  | find (feedId : Int)
  | updateState (feedId : Int) (lastGuid : String) (lastCheckedAt : Time)
  | remove (feedId : Int)
  | get (url : String)
  | onNewEntry (feed : RssFeed) (entry : RssEntry)
  | now
  -- `cancel_state.cancelled() != none`, and `operation_aborted` of the timer
  | cancelled
  | sleep

/-- `on_new_entry_` answers the `what()` of the exception it leaves with. -/
abbrev RssCall.Answer : RssCall → Type
  | save _ => Result RssFeed
  | listEnabled => Result (List RssFeed)
  | find _ => Result (Option RssFeed)
  | updateState .. | remove _ => Result Unit
  | get _ => Fetch
  | onNewEntry .. => Option String
  | now => Time
  | cancelled | sleep => Bool

abbrev RssProg (α : Type) := Prog RssCall RssCall.Answer α

/-! ### `RssSubscription` -/

def add (feed : RssFeed) : RssProg (Result Int) :=
  if feed.url.isEmpty then pure (.error ⟨.invalidArgument, "rss add: empty URL"⟩)
  else if !("http://".toList.isPrefixOf feed.url.toList || "https://".toList.isPrefixOf feed.url.toList) then
    pure (.error ⟨.invalidArgument, "rss add: URL must start with http:// or https://"⟩)
  else do
    let saved : Result RssFeed ← ask (RssCall.save { feed with feedId := 0 })
    return saved.map (·.feedId)

def listForChat (chat : ChatId) : RssProg (Result (List RssFeed)) := do
  let all : Result (List RssFeed) ← ask RssCall.listEnabled
  return all.map fun feeds => feeds.filter fun feed => feed.chat = chat

def removeFeed (feedId : Int) (requesterChat : ChatId) : RssProg (Result Unit) := do
  let loaded : Result (Option RssFeed) ← ask (RssCall.find feedId)
  match loaded with
  | .error err => return .error err
  | .ok none => return .error ⟨.notFound, "rss remove: feed not found"⟩
  | .ok (some feed) =>
    if feed.chat ≠ requesterChat then
      return .error ⟨.permissionDenied, "rss remove: requester does not own feed"⟩
    else ask (RssCall.remove feedId)

/-! ### `RssFeedPoller` -/

/-- `kDefaultInterval`, in ticks. -/
def kDefaultInterval : Int := 5 * 60 * 1000 * ticksPerMs

def tooSoon (now : Time) (feed : RssFeed) : Bool :=
  match feed.lastCheckedAt with
  | some checked => now - checked < kDefaultInterval
  | none => false

/-- The loop over `parsed->entries`, with `newest_guid`. -/
def visitEntries (p : Poller) (feed : RssFeed) : List RssEntry → String → RssProg String
  | [], newest => pure newest
  | entry :: entries, newest =>
    let isNew := feed.lastGuid.isEmpty || decide (entry.guid > feed.lastGuid)
    if !isNew then visitEntries p feed entries newest
    else
      let newest := if entry.guid > newest then entry.guid else newest
      if !p.entryPassesFilters feed entry then visitEntries p feed entries newest
      else do
        let _ ← ask (RssCall.onNewEntry feed entry)
        visitEntries p feed entries newest

def processFeed (p : Poller) (feed : RssFeed) : RssProg Unit := do
  let fetch ← ask (RssCall.get feed.url)
  match ({ fetch := fetch } : Poll).document with
  | none => return
  | some doc =>
    let newest ← visitEntries p feed doc.entries feed.lastGuid
    let now ← ask RssCall.now
    let _ ← ask (RssCall.updateState feed.feedId newest now)

def pollFeeds (p : Poller) (now : Time) : List RssFeed → RssProg Unit
  | [] => pure ()
  | feed :: feeds =>
    if tooSoon now feed then pollFeeds p now feeds
    else do
      if ← ask RssCall.cancelled then return
      processFeed p feed
      pollFeeds p now feeds

def pollOnce (p : Poller) : RssProg Unit := do
  let listed : Result (List RssFeed) ← ask RssCall.listEnabled
  match listed with
  | .error _ => return
  | .ok feeds =>
    let now ← ask RssCall.now
    pollFeeds p now feeds

def run (p : Poller) : Nat → RssProg Unit
  | 0 => pure ()
  | rounds + 1 => do
    if ← ask RssCall.cancelled then return
    pollOnce p
    if ← ask RssCall.sleep then return
    run p rounds

/-! ### What answers them -/

/-- The clock shows a `time_point`. -/
inductive Serves : FeedTable → (c : RssCall) → c.Answer → FeedTable → Prop
  | save (t : FeedTable) (env : SaveEnv) (feed : RssFeed) :
      Serves t (.save feed) (t.save env feed).1 (t.save env feed).2
  | listEnabled (t : FeedTable) (env : CallEnv) : Serves t .listEnabled (t.listEnabled env) t
  | find (t : FeedTable) (env : CallEnv) (feedId : Int) : Serves t (.find feedId) (t.find env feedId) t
  | updateState (t : FeedTable) (env : CallEnv) (feedId : Int) (lastGuid : String) (at_ : Time) :
      Serves t (.updateState feedId lastGuid at_) (t.updateState env feedId lastGuid at_).1
        (t.updateState env feedId lastGuid at_).2
  | remove (t : FeedTable) (env : CallEnv) (feedId : Int) :
      Serves t (.remove feedId) (t.remove env feedId).1 (t.remove env feedId).2
  | get (t : FeedTable) (url : String) (fetch : Fetch) : Serves t (.get url) fetch t
  | onNewEntry (t : FeedTable) (feed : RssFeed) (entry : RssEntry) (what : Option String) :
      Serves t (.onNewEntry feed entry) what t
  | now (t : FeedTable) (time : Time) (h : Time.Fits time) : Serves t .now time t
  | cancelled (t : FeedTable) (b : Bool) : Serves t .cancelled b t
  | sleep (t : FeedTable) (b : Bool) : Serves t .sleep b t

inductive RssRequest
  | add (feed : RssFeed)
  | listForChat (chat : ChatId)
  | remove (feedId : Int) (requester : UserId) (requesterChat : ChatId)
  | poll (rounds : Nat)

inductive RssOutcome
  | added (r : Result Int)
  | listed (r : Result (List RssFeed))
  | removed (r : Result Unit)
  | polled

def RssRequest.prog (p : Poller) : RssRequest → RssProg RssOutcome
  | add feed => do return .added (← Rss.add feed)
  | listForChat chat => do return .listed (← Rss.listForChat chat)
  | remove feedId _ requesterChat => do return .removed (← removeFeed feedId requesterChat)
  | poll rounds => do
    run p rounds
    return .polled

/-- The requests are served side by side, from the table `t` to `t'`, by the calls of `log`. -/
def Interleaved {ι : Type} [DecidableEq ι] (p : Poller) (requests : ι → RssRequest) (t : FeedTable)
    (log : List (ι × Σ c : RssCall, c.Answer)) (t' : FeedTable) : Prop :=
  ∃ left, Prog.Parallel (fun _ => Serves) t (fun i => (requests i).prog p) log t' left

/-! ### A pass is a sequence of polls -/

/-- The calls of one poll, as the pure poller says. -/
def Poller.calls (p : Poller) (feed : RssFeed) (q : Poll) : List RssCall :=
  .get feed.url :: match q.document with
    | none => []
    | some doc =>
      let s := p.scan feed q.throws doc.entries
      s.handed.map (.onNewEntry feed) ++ [.now, .updateState feed.feedId s.newestGuid q.now]

variable {p : Poller} {feed : RssFeed} {log : List (Σ c : RssCall, c.Answer)}

theorem visitEntries_dialog {entries : List RssEntry} {newest newest' : String}
    (h : (visitEntries p feed entries newest).Dialog log newest') (throws : RssEntry → Option String)
    (acc : Scan) (hacc : acc.newestGuid = newest) :
    (entries.foldl (p.visit feed throws) acc).newestGuid = newest' ∧
      (entries.foldl (p.visit feed throws) acc).handed.map (RssCall.onNewEntry feed) =
        acc.handed.map (RssCall.onNewEntry feed) ++ log.map Sigma.fst := by
  induction entries generalizing newest acc log with
  | nil =>
    obtain ⟨rfl, rfl⟩ := h.pure_inv
    exact ⟨hacc, (List.append_nil _).symm⟩
  | cons entry entries ih =>
    rw [List.foldl_cons]
    unfold visitEntries at h
    extract_lets isNew at h
    split at h
    · rename_i hold
      have hvisit : p.visit feed throws acc entry = acc := if_pos hold
      rw [hvisit]
      exact ih h acc hacc
    · rename_i raised hnew
      have hraise : (acc.raise entry.guid).newestGuid = raised := by
        rw [Scan.raise_newestGuid, hacc]
        unfold raised
        split_ifs with hgt
        · exact max_eq_right (le_of_lt hgt)
        · exact max_eq_left (not_lt.1 hgt)
      split at h
      · rename_i hfilter
        have hvisit : p.visit feed throws acc entry = acc.raise entry.guid :=
          (if_neg hnew).trans (if_pos hfilter)
        rw [hvisit, ← acc.raise_handed entry.guid]
        exact ih h _ hraise
      · rename_i hfilter
        have hvisit : p.visit feed throws acc entry = (acc.raise entry.guid).hand entry (throws entry) :=
          (if_neg hnew).trans (if_neg hfilter)
        obtain ⟨what, log', rfl, hrest⟩ := h.ask_bind_inv
        obtain ⟨hnewest, hhanded⟩ := ih hrest ((acc.raise entry.guid).hand entry (throws entry)) hraise
        rw [hvisit]
        refine ⟨hnewest, hhanded.trans ?_⟩
        simp [Scan.hand]

theorem processFeed_dialog (h : (processFeed p feed).Dialog log ()) :
    ∃ q : Poll, log.map Sigma.fst = p.calls feed q := by
  obtain ⟨fetch, log₁, rfl, h₁⟩ := h.ask_bind_inv
  cases hdoc : ({ fetch := fetch } : Poll).document with
  | none =>
    rw [hdoc] at h₁
    obtain ⟨rfl, -⟩ := h₁.pure_inv
    refine ⟨{ fetch := fetch }, ?_⟩
    simp [Poller.calls, hdoc]
  | some doc =>
    rw [hdoc] at h₁
    obtain ⟨log₂, log₃, newest, rfl, hvisit, h₃⟩ := h₁.bind_inv
    obtain ⟨now, log₄, rfl, h₄⟩ := h₃.ask_bind_inv
    obtain ⟨r, log₅, rfl, h₅⟩ := h₄.ask_bind_inv
    obtain ⟨rfl, -⟩ := h₅.pure_inv
    obtain ⟨hnewest, hhanded⟩ := visitEntries_dialog hvisit (fun _ => none) { newestGuid := feed.lastGuid } rfl
    have hdoc' : ({ fetch := fetch, now := now } : Poll).document = some doc := hdoc
    refine ⟨{ fetch := fetch, now := now }, ?_⟩
    unfold Poller.calls
    rw [hdoc']
    dsimp only [Poller.scan]
    rw [hnewest, hhanded]
    simp

theorem pollFeeds_dialog {now : Time} {feeds : List RssFeed} (h : (pollFeeds p now feeds).Dialog log ())
    (hgo : ∀ b, (⟨.cancelled, b⟩ : Σ c : RssCall, c.Answer) ∈ log → b = false) :
    ∃ polls : List (RssFeed × Poll), polls.map Prod.fst = feeds.filter (fun feed => !tooSoon now feed) ∧
      log.map Sigma.fst = polls.flatMap fun x => .cancelled :: p.calls x.1 x.2 := by
  induction feeds generalizing log with
  | nil =>
    obtain ⟨rfl, -⟩ := h.pure_inv
    exact ⟨[], rfl, rfl⟩
  | cons feed feeds ih =>
    unfold pollFeeds at h
    split at h
    · rename_i hsoon
      rw [List.filter_cons_of_neg (by simp [hsoon])]
      exact ih h hgo
    · rename_i hdue
      obtain ⟨b, log₁, rfl, h₁⟩ := h.ask_bind_inv
      cases hgo b List.mem_cons_self
      obtain ⟨log₂, log₃, ⟨⟩, rfl, hfeed, h₃⟩ := Prog.Dialog.bind_inv (p := processFeed p feed) h₁
      obtain ⟨q, hq⟩ := processFeed_dialog hfeed
      obtain ⟨polls, hpolls, hrest⟩ := ih h₃ fun b hb =>
        hgo b (List.mem_cons_of_mem _ (List.mem_append_right _ hb))
      refine ⟨(feed, q) :: polls, ?_, ?_⟩
      · rw [List.filter_cons_of_pos (by simp [hdue]), List.map_cons, hpolls]
      · simp [hq, hrest]

/-- A pass that is not cancelled polls exactly the feeds that are due, once each and in the order of the
list, and nothing that happens to one of them keeps it from the next. -/
theorem pass_is_polls (p : Poller) (log : List (Σ c : RssCall, c.Answer)) (h : (pollOnce p).Dialog log ())
    (hgo : ∀ b, (⟨.cancelled, b⟩ : Σ c : RssCall, c.Answer) ∈ log → b = false) :
    (∃ err, log = [⟨.listEnabled, .error err⟩]) ∨
      ∃ feeds now rest, ∃ polls : List (RssFeed × Poll),
        log = ⟨.listEnabled, .ok feeds⟩ :: ⟨.now, now⟩ :: rest ∧
        polls.map Prod.fst = feeds.filter (fun feed => !tooSoon now feed) ∧
        rest.map Sigma.fst = polls.flatMap fun x => .cancelled :: p.calls x.1 x.2 := by
  obtain ⟨listed, log₁, rfl, h₁⟩ := h.ask_bind_inv
  cases listed with
  | error err =>
    obtain ⟨rfl, -⟩ := h₁.pure_inv
    exact .inl ⟨err, rfl⟩
  | ok feeds =>
    obtain ⟨now, log₂, rfl, h₂⟩ := Prog.Dialog.ask_bind_inv (c := RssCall.now) h₁
    obtain ⟨polls, hpolls, hrest⟩ := pollFeeds_dialog h₂ fun b hb =>
      hgo b (List.mem_cons_of_mem _ (List.mem_cons_of_mem _ hb))
    exact .inr ⟨feeds, now, log₂, polls, rfl, hpolls, hrest⟩

/-- Of three feeds two are due. The first of them cannot be fetched, and the handler throws on the entry
of the other. -/
theorem due_feeds_polled : let p : Poller := ⟨fun _ _ => none⟩
    let due : RssFeed := { feedId := 3, title := "c", url := "w", chat := ⟨1⟩ }
    let feeds : List RssFeed := [{ feedId := 1, title := "a", url := "u", chat := ⟨1⟩, lastCheckedAt := some 0 },
      { feedId := 2, title := "b", url := "v", chat := ⟨1⟩ }, due]
    ∃ polls : List (RssFeed × Poll), polls.map Prod.fst = feeds.filter (fun feed => !tooSoon 1 feed) ∧
      [.cancelled, .get "v", .cancelled, .get "w", .onNewEntry due ⟨"g", "t", "", none, none, none, none⟩, .now,
        .updateState 3 "g" 2] = polls.flatMap fun x => .cancelled :: p.calls x.1 x.2 := by
  intro p due feeds
  have h : (pollOnce p).Dialog [⟨.listEnabled, Except.ok feeds⟩, ⟨.now, (1 : Int)⟩, ⟨.cancelled, false⟩,
      ⟨.get "v", Fetch.failed ⟨.network, ""⟩⟩, ⟨.cancelled, false⟩,
      ⟨.get "w", Fetch.response 200 (.ok { entries := [⟨"g", "t", "", none, none, none, none⟩] })⟩,
      ⟨.onNewEntry due ⟨"g", "t", "", none, none, none, none⟩, some "what"⟩, ⟨.now, (2 : Int)⟩,
      ⟨.updateState 3 "g" 2, Except.ok ()⟩] () := by
    exact Prog.Dialog.call _ (.call _ (.call _ (.call _ (.call _ (.call _ (.call _ (.call _ (.call _
      (.pure ())))))))))
  rcases pass_is_polls p _ h (by simp) with ⟨_, herr⟩ | ⟨feeds', now, rest, polls, hlog, hpolls, hrest⟩
  · cases herr
  · cases hlog
    exact ⟨polls, hpolls, hrest⟩

end Cmlb.Rss
