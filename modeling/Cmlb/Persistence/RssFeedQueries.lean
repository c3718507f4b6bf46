import Mathlib.Data.List.Pairwise
import Cmlb.Persistence.RepositoryCall

/-!
# The other calls of the RSS feed repository (`sqlite_rss_feed_repository.cpp`)

`list_enabled`, `find`, `update_state` and `remove` on the table of `RssFeedRepository`. A row names
its feed for good: what the calls leave of it is the `SameFeed`, with another state of polling at most.
A row that was written by `save` is read back as it was, up to the milliseconds of its times
(`mapRow_feedRow`).
-/

namespace Cmlb.Persistence

open TimeCodec UniqueKeys

def mapRow (row : FeedRow) : Result RssFeed :=
  match parseIso8601 row.createdAt with
  | .error err => .error err
  | .ok createdAt =>
    let feed : RssFeed := {
      feedId := row.feedId
      title := row.title
      url := row.url
      chat := ⟨row.chatId⟩
      includeRegex := row.includeRegex
      excludeRegex := row.excludeRegex
      lastGuid := row.lastGuid
      enabled := row.enabled != 0
      createdAt := createdAt }
    match row.lastCheckedAt with
    | none => .ok feed
    | some text =>
      match parseIso8601 text with
      | .error err => .error err
      | .ok checked => .ok { feed with lastCheckedAt := some checked }

namespace FeedTable

/-- `WHERE enabled = 1 ORDER BY feed_id ASC`. -/
def enabledRows (t : FeedTable) : List FeedRow :=
  (t.rows.filter fun row => row.enabled = 1).mergeSort fun r s => r.feedId ≤ s.feedId

/-- The first row that is not read decides. -/
def listEnabled (t : FeedTable) (env : CallEnv) : Result (List RssFeed) :=
  (env.call "rss_feeds.list_enabled" t (t.enabledRows.mapM mapRow, t)).1

def find (t : FeedTable) (env : CallEnv) (feedId : Int) : Result (Option RssFeed) :=
  (env.call "rss_feeds.find" t (match t.rows.find? fun row => row.feedId = feedId with
    | none => .ok none
    | some row => (mapRow row).map some, t)).1

/-- `UPDATE` of one row. -/
def setState (feedId : Int) (lastGuid : String) (lastCheckedAt : Time) (row : FeedRow) : FeedRow :=
  if row.feedId = feedId then
    { row with lastGuid := lastGuid, lastCheckedAt := some (toIso8601 lastCheckedAt) }
  else row

variable {feedId : Int} {lastGuid : String} {lastCheckedAt : Time}

@[simp] theorem setState_feedId (row : FeedRow) :
    (setState feedId lastGuid lastCheckedAt row).feedId = row.feedId := by
  unfold setState
  split <;> rfl

@[simp] theorem setState_url (row : FeedRow) :
    (setState feedId lastGuid lastCheckedAt row).url = row.url := by
  unfold setState
  split <;> rfl

/-- No row has the id, and `sqlite3_changes` is zero. -/
def lacks (t : FeedTable) (feedId : Int) : Bool := t.rows.all fun row => row.feedId ≠ feedId

def updateState (t : FeedTable) (env : CallEnv) (feedId : Int) (lastGuid : String) (lastCheckedAt : Time) :
    Result Unit × FeedTable :=
  env.call "rss_feeds.update_state" t
    (if t.lacks feedId then .error ⟨.notFound, s!"rss_feeds.update_state: no row for feed_id {feedId}"⟩
      else .ok (),
    { rows := t.rows.map (setState feedId lastGuid lastCheckedAt)
      seq := t.seq
      unique := t.unique.map fun r s h => by simpa [FeedRow.Clash] using h
      below := by
        intro row hrow
        obtain ⟨old, hold, rfl⟩ := List.mem_map.1 hrow
        rw [setState_feedId]
        exact t.below old hold })

def remove (t : FeedTable) (env : CallEnv) (feedId : Int) : Result Unit × FeedTable :=
  env.call "rss_feeds.remove" t
    (if t.lacks feedId then .error ⟨.notFound, s!"rss_feeds.remove: no row for feed_id {feedId}"⟩
      else .ok (),
    { rows := t.rows.filter fun row => row.feedId ≠ feedId
      seq := t.seq
      unique := t.unique.filter _
      below := fun row hrow => t.below row (List.mem_filter.1 hrow).1 })

end FeedTable

variable {t : FeedTable} {env : CallEnv} {row : FeedRow} {feed : RssFeed}

/-! ### What is changed -/

namespace FeedTable

variable {feedId : Int} {lastGuid : String} {lastCheckedAt : Time}

theorem insert_seq {id : Int} {t' : FeedTable} (h : t.insert feed = .ok (id, t')) :
    id = (t.seq + 1 : Nat) ∧ t'.seq = t.seq + 1 := by
  unfold insert at h
  dsimp only at h
  split at h
  · cases h
  · split at h
    · cases h
    · cases h
      exact ⟨rfl, rfl⟩

theorem row_unique {row row' : FeedRow} (hrow : row ∈ t.rows) (hrow' : row' ∈ t.rows)
    (hid : row.feedId = row'.feedId) : row = row' := by
  by_contra hne
  have hsymm : Std.Symm fun r s : FeedRow => ¬FeedRow.Clash r s := ⟨fun r s h hclash =>
    h (hclash.imp Eq.symm Eq.symm)⟩
  exact t.unique.forall hrow hrow' hne (.inl hid)

theorem lacks_iff : t.lacks feedId = true ↔ ∀ row ∈ t.rows, row.feedId ≠ feedId := by
  simp [lacks]

/-- An error leaves the rows, and otherwise there is a row with the id. -/
theorem updateState_cases (t : FeedTable) (env : CallEnv) (feedId : Int) (lastGuid : String) (at_ : Time) :
    (t.updateState env feedId lastGuid at_).2.seq = t.seq ∧
      ((∃ err, (t.updateState env feedId lastGuid at_).1 = .error err) ∧
          (t.updateState env feedId lastGuid at_).2.rows = t.rows ∨
        (t.updateState env feedId lastGuid at_).1 = .ok () ∧ (∃ row ∈ t.rows, row.feedId = feedId) ∧
          (t.updateState env feedId lastGuid at_).2.rows = t.rows.map (setState feedId lastGuid at_)) := by
  unfold updateState
  rcases env.call_cases "rss_feeds.update_state" t _ with h | ⟨err, h⟩
  · rw [h]
    refine ⟨rfl, ?_⟩
    by_cases hlacks : t.lacks feedId = true
    · refine .inl ⟨⟨_, if_pos hlacks⟩, ?_⟩
      refine (List.map_congr_left fun row hrow => ?_).trans (List.map_id _)
      exact if_neg (lacks_iff.1 hlacks row hrow)
    · refine .inr ⟨if_neg hlacks, ?_, rfl⟩
      rw [lacks_iff] at hlacks
      push Not at hlacks
      exact hlacks
  · rw [h]
    exact ⟨rfl, .inl ⟨⟨err, rfl⟩, rfl⟩⟩

theorem remove_cases (t : FeedTable) (env : CallEnv) (feedId : Int) :
    (t.remove env feedId).2.seq = t.seq ∧
      ((∃ err, (t.remove env feedId).1 = .error err) ∧ (t.remove env feedId).2.rows = t.rows ∨
        (t.remove env feedId).1 = .ok () ∧
          (t.remove env feedId).2.rows = t.rows.filter fun row => row.feedId ≠ feedId) := by
  unfold remove
  rcases env.call_cases "rss_feeds.remove" t _ with h | ⟨err, h⟩
  · rw [h]
    refine ⟨rfl, ?_⟩
    by_cases hlacks : t.lacks feedId = true
    · refine .inl ⟨⟨_, if_pos hlacks⟩, List.filter_eq_self.2 fun row hrow => ?_⟩
      exact decide_eq_true (lacks_iff.1 hlacks row hrow)
    · exact .inr ⟨if_neg hlacks, rfl⟩
  · rw [h]
    exact ⟨rfl, .inl ⟨⟨err, rfl⟩, rfl⟩⟩

end FeedTable

/-! ### What is read -/

/-- The feed of a row. -/
structure Reads (row : FeedRow) (feed : RssFeed) : Prop where
  feedId : feed.feedId = row.feedId
  url : feed.url = row.url
  chat : feed.chat = ⟨row.chatId⟩
  lastGuid : feed.lastGuid = row.lastGuid
  checked : ∀ text, row.lastCheckedAt = some text →
    ∃ checked, feed.lastCheckedAt = some checked ∧ parseIso8601 text = .ok checked

theorem reads_of_mapRow (h : mapRow row = .ok feed) : Reads row feed := by
  unfold mapRow at h
  split at h
  · cases h
  · dsimp only at h
    split at h
    · rename_i hnone
      cases h
      exact ⟨rfl, rfl, rfl, rfl, fun text htext => by rw [hnone] at htext; cases htext⟩
    · rename_i text hsome
      split at h
      · cases h
      · rename_i checked hparse
        cases h
        refine ⟨rfl, rfl, rfl, rfl, fun text' htext => ?_⟩
        rw [hsome] at htext
        cases htext
        exact ⟨checked, rfl, hparse⟩

theorem mapRow_feedRow (hcreated : Time.Fits feed.createdAt)
    (hchecked : ∀ checked, feed.lastCheckedAt = some checked → Time.Fits checked) :
    mapRow (feedRow feed) = .ok { feed with
      lastCheckedAt := feed.lastCheckedAt.map Time.floorMs
      createdAt := Time.floorMs feed.createdAt } := by
  obtain ⟨feedId, title, url, chat, includeRegex, excludeRegex, lastGuid, lastCheckedAt, enabled, createdAt⟩ := feed
  have henabled : ((if enabled = true then (1 : Int) else 0) != 0) = enabled := by
    cases enabled <;> rfl
  cases lastCheckedAt with
  | none => simp [mapRow, feedRow, parseIso8601_toIso8601 hcreated, henabled]
  | some checked =>
    simp [mapRow, feedRow, parseIso8601_toIso8601 hcreated,
      parseIso8601_toIso8601 (hchecked checked rfl), henabled]

theorem mapM_ok {rows : List FeedRow} {feeds : List RssFeed} (h : rows.mapM mapRow = .ok feeds) :
    List.Forall₂ (fun row feed => mapRow row = .ok feed) rows feeds := by
  induction rows generalizing feeds with
  | nil =>
    cases h
    exact .nil
  | cons row rows ih =>
    rw [List.mapM_cons] at h
    cases hrow : mapRow row with
    | error err =>
      rw [hrow] at h
      cases h
    | ok feed =>
      cases hrows : rows.mapM mapRow with
      | error err =>
        rw [hrow, hrows] at h
        cases h
      | ok feeds' =>
        rw [hrow, hrows] at h
        cases h
        exact .cons hrow (ih hrows)

theorem exists_of_forall₂ {rows : List FeedRow} {feeds : List RssFeed}
    (h : List.Forall₂ (fun row feed => mapRow row = .ok feed) rows feeds) :
    ∀ feed ∈ feeds, ∃ row ∈ rows, Reads row feed := by
  induction h with
  | nil => exact fun feed hfeed => absurd hfeed List.not_mem_nil
  | @cons row feed rows feeds hrow _ ih =>
    intro f hf
    rcases List.mem_cons.1 hf with rfl | hf
    · exact ⟨row, List.mem_cons_self, reads_of_mapRow hrow⟩
    · obtain ⟨r, hr, hread⟩ := ih f hf
      exact ⟨r, List.mem_cons_of_mem _ hr, hread⟩

theorem ascend_of_forall₂ {rows : List FeedRow} {feeds : List RssFeed}
    (h : List.Forall₂ (fun row feed => mapRow row = .ok feed) rows feeds)
    (hrows : rows.Pairwise fun r s => r.feedId < s.feedId) :
    feeds.Pairwise fun f g => f.feedId < g.feedId := by
  induction h with
  | nil => exact .nil
  | @cons row feed rows feeds hrow h ih =>
    obtain ⟨hlt, hrows⟩ := List.pairwise_cons.1 hrows
    refine List.pairwise_cons.2 ⟨fun g hg => ?_, ih hrows⟩
    obtain ⟨s, hs, hread⟩ := exists_of_forall₂ h g hg
    rw [(reads_of_mapRow hrow).feedId, hread.feedId]
    exact hlt s hs

namespace FeedTable

theorem mem_enabledRows : row ∈ t.enabledRows ↔ row ∈ t.rows ∧ row.enabled = 1 := by
  simp [enabledRows]

/-- The ids ascend, and no two rows have the same. -/
theorem enabledRows_ascend (t : FeedTable) : t.enabledRows.Pairwise fun r s => r.feedId < s.feedId := by
  have hsorted := @List.pairwise_mergeSort FeedRow (fun r s => decide (r.feedId ≤ s.feedId))
    (by simpa using fun r s u : FeedRow => Int.le_trans) (by simpa using fun r s => Int.le_total _ _)
    (t.rows.filter fun row => row.enabled = 1)
  have hperm := List.mergeSort_perm (t.rows.filter fun row => row.enabled = 1)
    fun r s => decide (r.feedId ≤ s.feedId)
  have hunique : t.enabledRows.Pairwise fun r s => r.feedId ≠ s.feedId := by
    refine (hperm.pairwise_iff fun h => Ne.symm h).2 ?_
    exact (t.unique.filter _).imp fun hne hid => hne (.inl hid)
  exact (hsorted.and hunique).imp fun h => lt_of_le_of_ne (of_decide_eq_true h.1) h.2

theorem listEnabled_ok {feeds : List RssFeed} (h : t.listEnabled env = .ok feeds) :
    List.Forall₂ (fun row feed => mapRow row = .ok feed) t.enabledRows feeds := by
  unfold listEnabled CallEnv.call at h
  split at h
  · cases h
  · split at h
    · cases h
    · cases h
    · exact mapM_ok h

/-- What `list_enabled` returns has been read from the rows. -/
theorem listEnabled_reads {feeds : List RssFeed} (h : t.listEnabled env = .ok feeds) :
    ∀ feed ∈ feeds, ∃ row ∈ t.rows, Reads row feed := by
  intro feed hfeed
  obtain ⟨row, hrow, hread⟩ := exists_of_forall₂ (listEnabled_ok h) feed hfeed
  exact ⟨row, (mem_enabledRows.1 hrow).1, hread⟩

theorem listEnabled_ascend {feeds : List RssFeed} (h : t.listEnabled env = .ok feeds) :
    feeds.Pairwise fun f g => f.feedId < g.feedId :=
  ascend_of_forall₂ (listEnabled_ok h) t.enabledRows_ascend

theorem find_ok {feedId : Int} (h : t.find env feedId = .ok (some feed)) :
    ∃ row ∈ t.rows, row.feedId = feedId ∧ Reads row feed := by
  unfold find CallEnv.call at h
  split at h
  · cases h
  · split at h
    · cases h
    · cases h
    · cases hrow : t.rows.find? fun row => row.feedId = feedId with
      | none =>
        rw [hrow] at h
        cases h
      | some row =>
        rw [hrow] at h
        dsimp only at h
        cases hmap : mapRow row with
        | error err =>
          rw [hmap] at h
          cases h
        | ok feed' =>
          rw [hmap] at h
          cases h
          exact ⟨row, List.mem_of_find?_eq_some hrow, by simpa using List.find?_some hrow,
            reads_of_mapRow hmap⟩

end FeedTable

end Cmlb.Persistence
