import Mathlib.Data.String.Basic
import Cmlb.Presentation.Ports

/-!
# The RSS feed poller (`rss_feed_poller.cpp`)

`process_feed` over one feed's row, poll after poll. The stored `last_guid` is a high-water mark:
an entry is new when it is greater than the mark in the order of `std::string`, and a poll raises the
mark to the greatest new GUID. A `std::string` is a `String` whose characters are its bytes, so that
`<` is the byte order. `std::regex` and the answers of the network, the handler and the repository
are parameters.

`lastGuid_after` says what the mark is after any polls, and with it `handed_iff_above_all_earlier`
decides from the documents alone which entries a poll hands over. `handed_at_most_once` says that no
two polls hand over the same GUID.
-/

namespace Cmlb.Rss

structure RssEntry where
  guid : String
  title : String
  link : String := ""
  magnet : Option String := none
  torrentUrl : Option String := none
  description : Option String := none
  publishedAt : Option Time := none
deriving DecidableEq

structure RssDocument where
  title : String := ""
  link : String := ""
  description : Option String := none
  entries : List RssEntry

/-- `http_client_->get` and, of a response, its status and what `RssDocumentParser::parse` says. -/
inductive Fetch
  | failed (err : AppError)
  | response (statusCode : Nat) (parsed : Result RssDocument)

/-- What one `process_feed` gets from outside. -/
structure Poll where
  fetch : Fetch
  /-- The `what()` of the exception `on_new_entry_` leaves with. -/
  throws : RssEntry → Option String := fun _ => none
  now : Time := 0
  updateState : Result Unit := .ok ()

/-- The document that the loop over the entries sees. -/
def Poll.document (q : Poll) : Option RssDocument :=
  match q.fetch with
  | .failed _ => none
  | .response statusCode parsed =>
    if statusCode < 200 ∨ statusCode ≥ 300 then none
    else match parsed with
      | .error _ => none
      | .ok doc => some doc

structure Poller where
  /-- `std::regex_search` under `icase`; `none` when the pattern is a `regex_error`. -/
  regexSearch : String → String → Option Bool

/-- What the loop over the entries has done so far. -/
structure Scan where
  newestGuid : String
  handed : List RssEntry := []
  -- The handed entries whose handler threw: logged, and the loop goes on
  failed : List (RssEntry × String) := []

namespace Scan

/-- `if (entry.guid > newest_guid) newest_guid = entry.guid`. -/
def raise (acc : Scan) (guid : String) : Scan :=
  if guid > acc.newestGuid then { acc with newestGuid := guid } else acc

/-- `co_await on_new_entry_(feed, entry)`, where `thrown` is the exception it leaves with. -/
def hand (acc : Scan) (entry : RssEntry) (thrown : Option String) : Scan :=
  { acc with
    handed := acc.handed ++ [entry]
    failed := acc.failed ++ (thrown.map fun what => (entry, what)).toList }

@[simp] theorem raise_newestGuid (acc : Scan) (guid : String) :
    (acc.raise guid).newestGuid = max acc.newestGuid guid := by
  unfold raise
  split_ifs with h
  · exact (max_eq_right (le_of_lt h)).symm
  · exact (max_eq_left (not_lt.1 h)).symm

@[simp] theorem raise_handed (acc : Scan) (guid : String) : (acc.raise guid).handed = acc.handed := by
  unfold raise
  split_ifs <;> rfl

end Scan

namespace Poller

variable (p : Poller)

def matchesOptionalRegex (pattern : Option String) (text : String) (defaultWhenUnset : Bool) : Bool :=
  match pattern with
  | none => defaultWhenUnset
  | some pattern =>
    if pattern.isEmpty then defaultWhenUnset else (p.regexSearch pattern text).getD false

def entryPassesFilters (feed : RssFeed) (entry : RssEntry) : Bool :=
  if !p.matchesOptionalRegex (some feed.includeRegex) entry.title true then false
  else if p.matchesOptionalRegex (some feed.excludeRegex) entry.title false then false
  else true

/-- One turn of the loop over `parsed->entries`. -/
def visit (feed : RssFeed) (throws : RssEntry → Option String) (acc : Scan) (entry : RssEntry) :
    Scan :=
  let isNew := feed.lastGuid.isEmpty || decide (entry.guid > feed.lastGuid)
  if !isNew then acc
  else if !p.entryPassesFilters feed entry then acc.raise entry.guid
  else (acc.raise entry.guid).hand entry (throws entry)

def scan (feed : RssFeed) (throws : RssEntry → Option String) (entries : List RssEntry) : Scan :=
  entries.foldl (p.visit feed throws) { newestGuid := feed.lastGuid }

/-- `SqliteRssFeedRepository::update_state` on the feed's row. -/
def updateState (feed : RssFeed) (lastGuid : String) (lastCheckedAt : Time) : Result Unit → RssFeed
  | .ok _ => { feed with lastGuid := lastGuid, lastCheckedAt := some lastCheckedAt }
  | .error _ => feed

/-- `process_feed` on the stored row: the row it leaves and the entries given to `on_new_entry_`. -/
def processFeed (feed : RssFeed) (q : Poll) : RssFeed × List RssEntry :=
  match q.document with
  | none => (feed, [])
  | some doc =>
    let s := p.scan feed q.throws doc.entries
    (updateState feed s.newestGuid q.now q.updateState, s.handed)

/-- The row after a sequence of polls. -/
def after (feed : RssFeed) (polls : List Poll) : RssFeed :=
  polls.foldl (fun feed q => (p.processFeed feed q).1) feed

/-- The entries that the poll `q` hands over when it comes after the polls `earlier`. -/
def handedIn (feed : RssFeed) (earlier : List Poll) (q : Poll) : List RssEntry :=
  (p.processFeed (p.after feed earlier) q).2

end Poller

/-- Fetch, parse and `update_state` of the poll succeed. -/
def Poll.Succeeds (q : Poll) : Prop := q.document.isSome = true ∧ q.updateState = .ok ()

/-- The entry `e` is in the document of the poll `q`. -/
def Poll.Lists (q : Poll) (e : RssEntry) : Prop := ∃ doc, q.document = some doc ∧ e ∈ doc.entries

theorem empty_lt_of_ne {s : String} (h : s ≠ "") : "" < s := by
  rw [String.lt_iff_toList_lt]
  cases hs : s.toList with
  | nil => exact absurd (String.toList_eq_nil_iff.1 hs) h
  | cons c cs => exact List.nil_lt_cons c cs

namespace Poller

variable {p : Poller} {feed : RssFeed} {throws : RssEntry → Option String} {acc : Scan}
  {entry e : RssEntry} {entries : List RssEntry}

/-! ### One document -/

/-- The entry is new against the stored mark. -/
def IsNew (feed : RssFeed) (e : RssEntry) : Prop := feed.lastGuid = "" ∨ feed.lastGuid < e.guid

theorem isNew_iff : (feed.lastGuid.isEmpty || decide (e.guid > feed.lastGuid)) = true ↔
    IsNew feed e := by
  rw [Bool.or_eq_true, String.isEmpty_iff, decide_eq_true_iff]
  rfl

theorem visit_of_not_new (h : ¬ IsNew feed entry) : p.visit feed throws acc entry = acc := by
  unfold visit
  rw [Bool.eq_false_iff.2 fun h' => h (isNew_iff.1 h')]
  rfl

theorem visit_of_new (h : IsNew feed entry) : p.visit feed throws acc entry =
    if p.entryPassesFilters feed entry then (acc.raise entry.guid).hand entry (throws entry)
    else acc.raise entry.guid := by
  unfold visit
  rw [isNew_iff.2 h]
  cases p.entryPassesFilters feed entry <;> rfl

theorem visit_newestGuid (h : IsNew feed entry) :
    (p.visit feed throws acc entry).newestGuid = max acc.newestGuid entry.guid := by
  rw [visit_of_new h]
  split_ifs
  · exact acc.raise_newestGuid entry.guid
  · exact acc.raise_newestGuid entry.guid

theorem visit_handed (h : IsNew feed entry) : (p.visit feed throws acc entry).handed =
    if p.entryPassesFilters feed entry then acc.handed ++ [entry] else acc.handed := by
  rw [visit_of_new h]
  split_ifs
  · rw [← acc.raise_handed entry.guid]
    rfl
  · exact acc.raise_handed entry.guid

theorem mem_foldl_visit : e ∈ (entries.foldl (p.visit feed throws) acc).handed ↔
    e ∈ acc.handed ∨ e ∈ entries ∧ IsNew feed e ∧ p.entryPassesFilters feed e = true := by
  induction entries generalizing acc with
  | nil => simp
  | cons x entries ih =>
    rw [List.foldl_cons, ih]
    by_cases hx : IsNew feed x
    · rw [visit_handed hx]
      by_cases hpass : p.entryPassesFilters feed x = true
      · rw [if_pos hpass, List.mem_append, List.mem_singleton, List.mem_cons]
        constructor
        · rintro ((h | rfl) | ⟨h, h'⟩)
          exacts [.inl h, .inr ⟨.inl rfl, hx, hpass⟩, .inr ⟨.inr h, h'⟩]
        · rintro (h | ⟨rfl | h, h'⟩)
          exacts [.inl (.inl h), .inl (.inr rfl), .inr ⟨h, h'⟩]
      · rw [if_neg hpass, List.mem_cons]
        constructor
        · rintro (h | ⟨h, h'⟩)
          exacts [.inl h, .inr ⟨.inr h, h'⟩]
        · rintro (h | ⟨rfl | h, h', h''⟩)
          exacts [.inl h, absurd h'' hpass, .inr ⟨h, h', h''⟩]
    · rw [visit_of_not_new hx, List.mem_cons]
      constructor
      · rintro (h | ⟨h, h'⟩)
        exacts [.inl h, .inr ⟨.inr h, h'⟩]
      · rintro (h | ⟨rfl | h, h', h''⟩)
        exacts [.inl h, absurd h' hx, .inr ⟨h, h', h''⟩]

theorem mem_scan : e ∈ (p.scan feed throws entries).handed ↔
    e ∈ entries ∧ IsNew feed e ∧ p.entryPassesFilters feed e = true := by
  unfold scan
  rw [mem_foldl_visit]
  simp

theorem foldl_visit_newestGuid_lt {g : String} (hacc : feed.lastGuid ≤ acc.newestGuid) :
    (entries.foldl (p.visit feed throws) acc).newestGuid < g ↔
      acc.newestGuid < g ∧ ∀ e ∈ entries, e.guid < g := by
  induction entries generalizing acc with
  | nil => simp
  | cons x entries ih =>
    rw [List.foldl_cons, List.forall_mem_cons]
    by_cases hx : IsNew feed x
    · rw [ih (by rw [visit_newestGuid hx]; exact le_max_of_le_left hacc), visit_newestGuid hx,
        max_lt_iff, and_assoc]
    · -- an entry that is not new is at or below the mark
      have hle : x.guid ≤ feed.lastGuid := not_lt.1 fun h => hx (.inr h)
      rw [visit_of_not_new hx, ih hacc]
      constructor
      · rintro ⟨h, h'⟩
        exact ⟨h, lt_of_le_of_lt (hle.trans hacc) h, h'⟩
      · rintro ⟨h, -, h'⟩
        exact ⟨h, h'⟩

/-! ### A sequence of polls -/

theorem mem_processFeed {q : Poll} : e ∈ (p.processFeed feed q).2 ↔
    q.Lists e ∧ IsNew feed e ∧ p.entryPassesFilters feed e = true := by
  unfold processFeed Poll.Lists
  cases hdoc : q.document with
  | none => simp
  | some doc => simp [mem_scan]

theorem processFeed_filters (q : Poll) : (p.processFeed feed q).1.includeRegex = feed.includeRegex ∧
    (p.processFeed feed q).1.excludeRegex = feed.excludeRegex := by
  unfold processFeed
  cases q.document with
  | none => exact ⟨rfl, rfl⟩
  | some doc =>
    cases hupd : q.updateState with
    | ok => simp [updateState]
    | error => simp [updateState]

theorem processFeed_lastGuid_lt {q : Poll} (hq : q.Succeeds) {g : String} :
    (p.processFeed feed q).1.lastGuid < g ↔
      feed.lastGuid < g ∧ ∀ e, q.Lists e → e.guid < g := by
  obtain ⟨hdoc, hupd⟩ := hq
  obtain ⟨doc, hdoc⟩ := Option.isSome_iff_exists.1 hdoc
  have hrow : (p.processFeed feed q).1.lastGuid = (p.scan feed q.throws doc.entries).newestGuid := by
    simp [processFeed, hdoc, hupd, updateState]
  have hlists : (∀ e, q.Lists e → e.guid < g) ↔ ∀ e ∈ doc.entries, e.guid < g := by
    simp [Poll.Lists, hdoc]
  rw [hrow, hlists]
  exact foldl_visit_newestGuid_lt le_rfl

theorem after_filters (polls : List Poll) : p.entryPassesFilters (p.after feed polls) e =
    p.entryPassesFilters feed e := by
  induction polls generalizing feed with
  | nil => rfl
  | cons q polls ih =>
    change p.entryPassesFilters (p.after (p.processFeed feed q).1 polls) e = _
    rw [ih]
    unfold entryPassesFilters
    rw [(processFeed_filters q).1, (processFeed_filters q).2]

/-- The mark after successful polls is the greatest of the first mark and the GUIDs listed. -/
theorem lastGuid_after {polls : List Poll} (hok : ∀ q ∈ polls, q.Succeeds) {g : String} :
    (p.after feed polls).lastGuid < g ↔
      feed.lastGuid < g ∧ ∀ q ∈ polls, ∀ e, q.Lists e → e.guid < g := by
  induction polls generalizing feed with
  | nil => simp [after]
  | cons q polls ih =>
    change (p.after (p.processFeed feed q).1 polls).lastGuid < g ↔ _
    rw [ih fun q' hq' => hok q' (.tail _ hq'), processFeed_lastGuid_lt (hok q (.head _)),
      List.forall_mem_cons, and_assoc]

/-- An entry that passes the filters is handed over exactly when its GUID is above the first mark and
above every GUID of the earlier documents. -/
theorem handed_iff_above_all_earlier (p : Poller) (feed : RssFeed) (earlier : List Poll) (q : Poll)
    (hok : ∀ q' ∈ q :: earlier, q'.Succeeds) (e : RssEntry) (hlists : q.Lists e)
    (hguid : e.guid ≠ "") (hpass : p.entryPassesFilters feed e = true) :
    e ∈ p.handedIn feed earlier q ↔
      feed.lastGuid < e.guid ∧ ∀ q' ∈ earlier, ∀ e', q'.Lists e' → e'.guid < e.guid := by
  have hnew : IsNew (p.after feed earlier) e ↔ (p.after feed earlier).lastGuid < e.guid := by
    refine ⟨?_, .inr⟩
    rintro (h | h)
    · rw [h]
      exact empty_lt_of_ne hguid
    · exact h
  unfold handedIn
  rw [mem_processFeed, after_filters, hnew, lastGuid_after fun q' hq' => hok q' (.tail _ hq')]
  constructor
  · exact fun h => h.2.1
  · exact fun h => ⟨hlists, h, hpass⟩

/-! ### At most once -/

theorem processFeed_of_update_failed {q : Poll} {doc : RssDocument} (hdoc : q.document = some doc)
    (hupd : q.updateState ≠ .ok ()) : (p.processFeed feed q).1 = feed := by
  unfold processFeed
  rw [hdoc]
  cases hq : q.updateState with
  | ok u => exact absurd hq hupd
  | error err => rfl

/-- Whatever a poll gets from outside, it does not lower the mark. -/
theorem lastGuid_le_processFeed (q : Poll) : feed.lastGuid ≤ (p.processFeed feed q).1.lastGuid := by
  cases hdoc : q.document with
  | none =>
    have hrow : (p.processFeed feed q).1 = feed := by
      unfold processFeed
      rw [hdoc]
    rw [hrow]
  | some doc =>
    by_cases hupd : q.updateState = .ok ()
    · refine not_lt.1 fun hlt => ?_
      exact lt_irrefl _ ((processFeed_lastGuid_lt ⟨by rw [hdoc]; rfl, hupd⟩).1 hlt).1
    · rw [processFeed_of_update_failed hdoc hupd]

/-- The mark that a poll stores covers the entries it handed over, thrown handlers or not. -/
theorem guid_le_processFeed {q : Poll} (hupd : q.updateState = .ok ())
    (he : e ∈ (p.processFeed feed q).2) : e.guid ≤ (p.processFeed feed q).1.lastGuid := by
  have hlists := (mem_processFeed.1 he).1
  obtain ⟨doc, hdoc, -⟩ := hlists
  refine not_lt.1 fun hlt => ?_
  exact lt_irrefl _ (((processFeed_lastGuid_lt ⟨by rw [hdoc]; rfl, hupd⟩).1 hlt).2 e
    (mem_processFeed.1 he).1)

theorem lastGuid_le_after (polls : List Poll) : feed.lastGuid ≤ (p.after feed polls).lastGuid := by
  induction polls generalizing feed with
  | nil => exact le_rfl
  | cons q polls ih => exact (lastGuid_le_processFeed q).trans ih

theorem after_append (earlier later : List Poll) :
    p.after feed (earlier ++ later) = p.after (p.after feed earlier) later :=
  List.foldl_append

/-- The stored mark never decreases, and what two polls of a feed hand over has no GUID in common but
the empty one, where the earlier of them stores its mark. -/
theorem handed_at_most_once (p : Poller) (feed : RssFeed) (earlier between : List Poll) (q₁ q₂ : Poll)
    (hupd : q₁.updateState = .ok ()) :
    (∀ polls later, (p.after feed polls).lastGuid ≤ (p.after feed (polls ++ later)).lastGuid) ∧
    ∀ e₁ ∈ p.handedIn feed earlier q₁, ∀ e₂ ∈ p.handedIn feed (earlier ++ q₁ :: between) q₂,
      e₁.guid ≠ "" → e₁.guid ≠ e₂.guid := by
  refine ⟨fun polls later => ?_, fun e₁ h₁ e₂ h₂ hguid heq => ?_⟩
  · rw [after_append]
    exact lastGuid_le_after later
  · -- the mark is at or above the first GUID when the second poll reads it
    have hmark : e₁.guid ≤ (p.after feed (earlier ++ q₁ :: between)).lastGuid := by
      rw [after_append]
      exact (guid_le_processFeed hupd h₁).trans (lastGuid_le_after between)
    have hnew := (mem_processFeed.1 h₂).2.1
    rcases hnew with hempty | hlt
    · rw [hempty] at hmark
      exact absurd (empty_lt_of_ne hguid) (not_lt.2 hmark)
    · rw [← heq] at hlt
      exact absurd hlt (not_lt.2 hmark)

/-- A feed without filters that has not been polled yet. -/
def freshFeed : RssFeed := { title := "t", url := "u", chat := ⟨1⟩ }

/-- A successful poll of a document with these GUIDs. -/
def listing (guids : List String) : Poll where
  fetch := .response 200 (.ok { entries := guids.map fun g => { guid := g, title := g } })

theorem lists_listing {guids : List String} {e : RssEntry} :
    (listing guids).Lists e ↔ ∃ g ∈ guids, e = { guid := g, title := g } := by
  have hdoc : (listing guids).document =
      some { entries := guids.map fun g => { guid := g, title := g } } := rfl
  simp [Poll.Lists, hdoc, eq_comm]

theorem handed_above_mark : let p : Poller := ⟨fun _ _ => some true⟩
    ({ guid := "b", title := "b" } : RssEntry) ∈ p.handedIn freshFeed [listing ["a"]] (listing ["b"]) := by
  intro p
  refine (handed_iff_above_all_earlier p freshFeed [listing ["a"]] (listing ["b"]) ?_ _
    (lists_listing.2 ⟨"b", by simp, rfl⟩) (by decide) rfl).2 ⟨by decide, ?_⟩
  · intro q hq
    simp only [List.mem_cons, List.not_mem_nil, or_false] at hq
    rcases hq with rfl | rfl
    exacts [⟨rfl, rfl⟩, ⟨rfl, rfl⟩]
  · intro q hq e he
    rw [List.mem_singleton] at hq
    subst hq
    obtain ⟨g, hg, rfl⟩ := lists_listing.1 he
    rw [List.mem_singleton] at hg
    subst hg
    decide

/-- The handler throws on `"a"`, and the next poll still lists it. -/
theorem handed_once_thrown : let p : Poller := ⟨fun _ _ => some true⟩
    let q : Poll := { listing ["a"] with throws := fun _ => some "handler" }
    p.handedIn freshFeed [] q = [{ guid := "a", title := "a" }] ∧
    ({ guid := "a", title := "a" } : RssEntry) ∉ p.handedIn freshFeed [q] (listing ["a", "b"]) := by
  intro p q
  refine ⟨rfl, fun h => ?_⟩
  exact (handed_at_most_once p freshFeed [] [] q (listing ["a", "b"]) rfl).2
    { guid := "a", title := "a" } (List.mem_singleton.2 rfl) _ h (by decide) rfl

/-- `"10"` is published after `"9"` but is below it as a string. -/
theorem lost_below_mark : ¬ ∀ (p : Poller) (feed : RssFeed) (earlier : List Poll) (q : Poll),
    (∀ q' ∈ q :: earlier, q'.Succeeds) → ∀ e, q.Lists e → e.guid ≠ "" →
    (∀ q' ∈ earlier, ∀ e', q'.Lists e' → e'.guid ≠ e.guid) →
    p.entryPassesFilters feed e = true → e ∈ p.handedIn feed earlier q := by
  intro hall
  have hin := hall ⟨fun _ _ => some true⟩ freshFeed [listing ["9"]] (listing ["10"])
    ?_ { guid := "10", title := "10" } (lists_listing.2 ⟨"10", by simp, rfl⟩) (by decide) ?_ rfl
  · revert hin
    decide
  · intro q hq
    simp only [List.mem_cons, List.not_mem_nil, or_false] at hq
    rcases hq with rfl | rfl
    exacts [⟨rfl, rfl⟩, ⟨rfl, rfl⟩]
  · intro q hq e he
    rw [List.mem_singleton] at hq
    subst hq
    obtain ⟨g, hg, rfl⟩ := lists_listing.1 he
    rw [List.mem_singleton] at hg
    subst hg
    decide

end Poller

end Cmlb.Rss
