import Cmlb.Lib.UniqueKeys
import Cmlb.Persistence.TimeCodec
import Cmlb.Presentation.Ports

/-!
# The RSS feed repository (`SqliteRssFeedRepository::save`)

The table `rss_feeds` has two unique keys, its primary key and the URL. A new feed is inserted, so a
URL that is there already is refused; a feed with an id is written with `INSERT OR REPLACE`, which
removes every row that clashes on either key. So `save` touches one row only and refuses a URL that
another row has exactly if no other row has the URL, or if the feed is new
(`save_touchesOnly_iff`).
-/

namespace Cmlb.Persistence

open TimeCodec UniqueKeys

/-- A row of `rss_feeds`. Only `last_checked_at` may be `NULL`. -/
structure FeedRow where
  feedId : Int
  title : String
  url : String
  chatId : Int
  includeRegex : String
  excludeRegex : String
  lastGuid : String
  lastCheckedAt : Option String
  enabled : Int
  createdAt : String
deriving DecidableEq

/-- The rows have `feed_id` or `url` in common. -/
def FeedRow.Clash (r s : FeedRow) : Prop := r.feedId = s.feedId ∨ r.url = s.url

instance : DecidableRel FeedRow.Clash := fun _ _ => inferInstanceAs (Decidable (_ ∨ _))

/-- `rss_feeds`, with the largest id ever given, which `AUTOINCREMENT` keeps in `sqlite_sequence`. -/
structure FeedTable where
  rows : List FeedRow
  seq : Nat
  unique : Unique FeedRow.Clash rows
  below : ∀ row ∈ rows, row.feedId ≤ seq

/-- The values that both statements bind. -/
def feedRow (feed : RssFeed) : FeedRow where
  feedId := feed.feedId
  title := feed.title
  url := feed.url
  chatId := feed.chat.value
  includeRegex := feed.includeRegex
  excludeRegex := feed.excludeRegex
  lastGuid := feed.lastGuid
  lastCheckedAt := feed.lastCheckedAt.map toIso8601
  enabled := if feed.enabled then 1 else 0
  createdAt := toIso8601 feed.createdAt

/-- A statement that fails without having come to the keys, and has no effect: a `sqlite_exception` or
another exception, with its `what()`. -/
inductive SqlFault
  | sqlite (what : String)
  | std (what : String)

inductive SqlException
  /-- `SQLITE_CONSTRAINT`, the primary code of `SQLITE_CONSTRAINT_UNIQUE`. -/
  | constraint
  | fault (f : SqlFault)

def kMaxRowid : Nat := 2 ^ 63 - 1

namespace FeedTable

/-- `INSERT`: the id is one more than any before, and there is none after the last. -/
def insert (t : FeedTable) (feed : RssFeed) : Except SqlException (Int × FeedTable) :=
  let id := t.seq + 1
  let row := feedRow { feed with feedId := id }
  if kMaxRowid ≤ t.seq then .error (.fault (.sqlite "database or disk is full"))
  else match h : UniqueKeys.insert FeedRow.Clash row t.rows with
    | none => .error .constraint
    | some rows => .ok (id, {
        rows := rows
        seq := id
        unique := t.unique.insert h
        below := by
          intro r hr
          rw [insert_eq_some h, mem_replace] at hr
          rcases hr with ⟨hr, -⟩ | rfl
          · exact (t.below r hr).trans (by omega)
          · exact le_rfl })

/-- `INSERT OR REPLACE`. -/
def replace (t : FeedTable) (feed : RssFeed) : FeedTable where
  rows := UniqueKeys.replace FeedRow.Clash (feedRow feed) t.rows
  seq := max t.seq feed.feedId.toNat
  unique := t.unique.replace
  below := by
    intro r hr
    rcases mem_replace.1 hr with ⟨hr, -⟩ | rfl
    · have hle := t.below r hr
      omega
    · show feed.feedId ≤ _
      omega

/-- The two statements, with the feed that is returned. -/
def write (t : FeedTable) (feed : RssFeed) : Except SqlException (RssFeed × FeedTable) :=
  if feed.feedId = 0 then (t.insert feed).map fun inserted => ({ feed with feedId := inserted.1 }, inserted.2)
  else .ok (feed, t.replace feed)

end FeedTable

/-- What `save` gets from outside. -/
structure SaveEnv where
  now : Time
  /-- The message of the channel's error when no connection is had. -/
  acquireFailed : Option String := none
  fault : Option SqlFault := none

def SaveEnv.Works (env : SaveEnv) : Prop := env.acquireFailed = none ∧ env.fault = none

/-- The handlers of the two kinds of exceptions. -/
def caught (feed : RssFeed) : SqlException → AppError
  | .constraint => ⟨.alreadyExists, "rss_feeds.save: URL already exists: " ++ feed.url⟩
  | .fault (.sqlite what) => ⟨.database, "rss_feeds.save failed: " ++ what⟩
  | .fault (.std what) => ⟨.database, "rss_feeds.save threw: " ++ what⟩

/-- A feed without a time of creation gets one. -/
def stamp (now : Time) (feed : RssFeed) : RssFeed :=
  if feed.createdAt = 0 then { feed with createdAt := now } else feed

/-- The result and the table after the call. -/
def FeedTable.save (t : FeedTable) (env : SaveEnv) (feed : RssFeed) : Result RssFeed × FeedTable :=
  match env.acquireFailed with
  | some message => (.error ⟨.resourceExhausted, "SqliteConnectionPool::acquire failed: " ++ message⟩, t)
  | none =>
    let feed := stamp env.now feed
    let written : Except SqlException (RssFeed × FeedTable) := match env.fault with
      | some f => .error (.fault f)
      | none => t.write feed
    match written with
    | .error e => (.error (caught feed e), t)
    | .ok (saved, t') => (.ok saved, t')

/-- A different row has the feed's URL. -/
def Taken (t : FeedTable) (feed : RssFeed) : Prop :=
  ∃ row ∈ t.rows, row.url = feed.url ∧ (feed.feedId = 0 ∨ row.feedId ≠ feed.feedId)

/-- The rows with other ids than the saved one stay, and a URL that a different row has is refused. -/
structure TouchesOnly (t : FeedTable) (feed : RssFeed) (after : Result RssFeed × FeedTable) : Prop where
  others : ∀ row ∈ t.rows, (∀ saved, after.1 = .ok saved → row.feedId ≠ saved.feedId) → row ∈ after.2.rows
  refused : Taken t feed → (∃ message, after.1 = .error ⟨.alreadyExists, message⟩) ∧ after.2 = t

variable {t : FeedTable} {feed : RssFeed} {env : SaveEnv} {row : FeedRow}

namespace FeedTable

/-- The row that an insertion adds. -/
def newRow (t : FeedTable) (feed : RssFeed) : FeedRow := feedRow { feed with feedId := (t.seq + 1 : Nat) }

/-- A new id clashes with none. -/
theorem clash_newRow_iff (hrow : row ∈ t.rows) :
    FeedRow.Clash row (t.newRow feed) ↔ row.url = feed.url := by
  have hle := t.below row hrow
  have hid : row.feedId ≠ (t.newRow feed).feedId := by
    show row.feedId ≠ (t.seq + 1 : Nat)
    omega
  rw [FeedRow.Clash, or_iff_right hid]
  rfl

theorem insert_of_taken (hleft : t.seq < kMaxRowid) (h : ∃ r ∈ t.rows, r.url = feed.url) :
    t.insert feed = .error .constraint := by
  obtain ⟨r, hr, hurl⟩ := h
  have hnone := insert_eq_none.2 ⟨r, hr, (clash_newRow_iff hr).2 hurl⟩
  unfold newRow at hnone
  unfold insert
  rw [if_neg (not_le.2 hleft)]
  split
  · rfl
  · rename_i rows hins
    rw [hnone] at hins
    cases hins

theorem insert_of_full (hfull : kMaxRowid ≤ t.seq) :
    t.insert feed = .error (.fault (.sqlite "database or disk is full")) := by
  unfold insert
  rw [if_pos hfull]

/-- An insertion that succeeds only adds a row. -/
theorem insert_ok {id : Int} {t' : FeedTable} (h : t.insert feed = .ok (id, t')) :
    t'.rows = t.rows ++ [t.newRow feed] ∧ ∀ r ∈ t.rows, r.url ≠ feed.url := by
  unfold insert at h
  dsimp only at h
  split at h
  · cases h
  · split at h
    · cases h
    · rename_i rows hins
      cases h
      have hfree : ∀ r ∈ t.rows, ¬FeedRow.Clash r (t.newRow feed) := by
        intro r hr hclash
        have hnone := insert_eq_none.2 ⟨r, hr, hclash⟩
        unfold newRow at hnone
        rw [hins] at hnone
        cases hnone
      refine ⟨?_, fun r hr hurl => hfree r hr ((clash_newRow_iff hr).2 hurl)⟩
      exact (insert_eq_some hins).trans (replace_eq_append hfree)

end FeedTable

@[simp] theorem stamp_feedId (now : Time) : (stamp now feed).feedId = feed.feedId := by
  unfold stamp
  split <;> rfl

@[simp] theorem stamp_url (now : Time) : (stamp now feed).url = feed.url := by
  unfold stamp
  split <;> rfl

/-- What a call comes to. -/
theorem save_cases (env : SaveEnv) (t : FeedTable) (feed : RssFeed) :
    (¬env.Works ∧ ∃ err : AppError, err.code ≠ .alreadyExists ∧ t.save env feed = (.error err, t)) ∨
      (env.Works ∧ ∃ e, t.write (stamp env.now feed) = .error e ∧
        t.save env feed = (.error (caught (stamp env.now feed) e), t)) ∨
      (env.Works ∧ ∃ saved t', t.write (stamp env.now feed) = .ok (saved, t') ∧
        t.save env feed = (.ok saved, t')) := by
  obtain ⟨now, acquireFailed, fault⟩ := env
  cases acquireFailed with
  | some message => exact .inl ⟨(fun h => by cases h.1), _, by simp, rfl⟩
  | none =>
    cases fault with
    | some f =>
      refine .inl ⟨(fun h => by cases h.2), _, ?_, rfl⟩
      cases f <;> simp [caught]
    | none =>
      right
      cases hwrite : t.write (stamp now feed) with
      | error e =>
        refine .inl ⟨⟨rfl, rfl⟩, e, rfl, ?_⟩
        simp only [FeedTable.save, hwrite]
      | ok written =>
        refine .inr ⟨⟨rfl, rfl⟩, written.1, written.2, rfl, ?_⟩
        simp only [FeedTable.save, hwrite]

theorem write_new (h : feed.feedId = 0) : t.write feed =
    (t.insert feed).map fun inserted => ({ feed with feedId := inserted.1 }, inserted.2) := by
  unfold FeedTable.write
  rw [if_pos h]

theorem write_known (h : feed.feedId ≠ 0) : t.write feed = .ok (feed, t.replace feed) := by
  unfold FeedTable.write
  rw [if_neg h]

/-- The other rows stay when the feed is new, and when no other row has its URL. -/
theorem others_stay (h : feed.feedId = 0 ∨ ¬Taken t feed) (hrow : row ∈ t.rows)
    (hother : ∀ saved, (t.save env feed).1 = .ok saved → row.feedId ≠ saved.feedId) :
    row ∈ (t.save env feed).2.rows := by
  obtain ⟨-, err, -, hsave⟩ | ⟨-, e, -, hsave⟩ | ⟨-, saved, t', hwrite, hsave⟩ := save_cases env t feed
  · rwa [hsave]
  · rwa [hsave]
  · rw [hsave] at hother ⊢
    have hne := hother saved rfl
    by_cases hid : feed.feedId = 0
    · rw [write_new (by simpa using hid)] at hwrite
      cases hins : t.insert (stamp env.now feed) with
      | error e =>
        rw [hins] at hwrite
        cases hwrite
      | ok inserted =>
        rw [hins] at hwrite
        cases hwrite
        show row ∈ inserted.2.rows
        rw [(FeedTable.insert_ok hins).1]
        exact List.mem_append_left _ hrow
    · rw [write_known (by simpa using hid)] at hwrite
      cases hwrite
      refine mem_of_mem_replace hrow ?_
      rintro (hclash | hclash)
      · exact hne hclash
      · refine h.resolve_left hid ⟨row, hrow, ?_, .inr ?_⟩
        · simpa [feedRow] using hclash
        · simpa using hne

theorem refused_of_new (hid : feed.feedId = 0) (hworks : env.Works) (hleft : t.seq < kMaxRowid)
    (htaken : Taken t feed) :
    (∃ message, (t.save env feed).1 = .error ⟨.alreadyExists, message⟩) ∧ (t.save env feed).2 = t := by
  obtain ⟨r, hr, hurl, -⟩ := htaken
  have hins : t.insert (stamp env.now feed) = .error .constraint :=
    FeedTable.insert_of_taken hleft ⟨r, hr, by simpa using hurl⟩
  have hwrite : t.write (stamp env.now feed) = _ := write_new (by simpa using hid)
  rw [hins] at hwrite
  obtain ⟨hno, -⟩ | ⟨-, e, hwrite', hsave⟩ | ⟨-, saved, t', hwrite', -⟩ := save_cases env t feed
  · exact absurd hworks hno
  · rw [hwrite] at hwrite'
    cases hwrite'
    rw [hsave]
    exact ⟨⟨_, rfl⟩, rfl⟩
  · rw [hwrite] at hwrite'
    cases hwrite'

/-- A URL is only refused to a new feed. -/
theorem new_of_refused {message : String} (h : (t.save env feed).1 = .error ⟨.alreadyExists, message⟩) :
    feed.feedId = 0 ∧ env.Works ∧ t.seq < kMaxRowid := by
  obtain ⟨-, err, hcode, hsave⟩ | ⟨hworks, e, hwrite, hsave⟩ | ⟨-, saved, t', -, hsave⟩ :=
    save_cases env t feed
  · rw [hsave] at h
    cases h
    exact absurd rfl hcode
  · by_cases hid : feed.feedId = 0
    · refine ⟨hid, hworks, not_le.1 fun hfull => ?_⟩
      rw [write_new (by simpa using hid), FeedTable.insert_of_full hfull] at hwrite
      cases hwrite
      rw [hsave] at h
      cases h
    · rw [write_known (by simpa using hid)] at hwrite
      cases hwrite
  · rw [hsave] at h
    cases h

/-- A call touches the saved row alone, and refuses a URL that a different row has, exactly if no
different row has the URL, or if the feed is new and its insertion gets as far as the keys. -/
theorem save_touchesOnly_iff (env : SaveEnv) (t : FeedTable) (feed : RssFeed) :
    TouchesOnly t feed (t.save env feed) ↔
      ¬Taken t feed ∨ (feed.feedId = 0 ∧ env.Works ∧ t.seq < kMaxRowid) := by
  constructor
  · intro h
    by_cases htaken : Taken t feed
    · obtain ⟨⟨message, herr⟩, -⟩ := h.refused htaken
      exact .inr (new_of_refused herr)
    · exact .inl htaken
  · rintro (hfree | ⟨hid, hworks, hleft⟩)
    · exact ⟨fun row hrow hother => others_stay (.inr hfree) hrow hother, fun h => absurd h hfree⟩
    · refine ⟨fun row hrow hother => others_stay (.inl hid) hrow hother, fun h => ?_⟩
      exact refused_of_new hid hworks hleft h

/-- Two feeds with the URLs `u` and `v`. -/
def twoFeeds : FeedTable where
  rows := [feedRow { feedId := 1, title := "a", url := "u", chat := ⟨1⟩ },
    feedRow { feedId := 2, title := "b", url := "v", chat := ⟨1⟩ }]
  seq := 2
  unique := by
    unfold UniqueKeys.Unique
    decide
  below := by decide

/-- The feed `1` is given the URL of the feed `2`, which is removed. -/
theorem other_feed_removed :
    let feed : RssFeed := { feedId := 1, title := "a", url := "v", chat := ⟨1⟩, createdAt := 1 }
    let after := twoFeeds.save ⟨1, none, none⟩ feed
    after.1 = .ok feed ∧ after.2.rows = [feedRow feed] ∧ ¬TouchesOnly twoFeeds feed after := by
  intro feed after
  have hsaved : after.1 = .ok feed := rfl
  have hrows : after.2.rows = [feedRow feed] := by
    show UniqueKeys.replace FeedRow.Clash (feedRow feed) twoFeeds.rows = [feedRow feed]
    decide
  refine ⟨hsaved, hrows, fun h => ?_⟩
  have hmem := h.others (feedRow { feedId := 2, title := "b", url := "v", chat := ⟨1⟩ })
    (List.mem_cons_of_mem _ List.mem_cons_self) (fun saved hok => by cases hok; decide)
  rw [hrows] at hmem
  exact absurd hmem (by decide)

end Cmlb.Persistence
