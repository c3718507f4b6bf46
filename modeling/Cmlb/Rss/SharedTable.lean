import Cmlb.Rss.Programs

/-!
# The feeds that the subscriptions and the poller share

What any interleaving of requests does to the table of feeds. `remove` checks the chat of a feed in one
call and deletes the row in another, and others can come between; but an id names one feed for good
(`Later`), so what was checked still holds. `kept_or_removed` says that a feed is only ever deleted for
its own chat, and `ids_never_reused` that no id comes back.
-/

namespace Cmlb.Rss

open Persistence

/-- What the poller does not change of a row. -/
def subscription (row : FeedRow) : FeedRow := { row with lastGuid := "", lastCheckedAt := none }

/-- Every row of `t'` under an id that `t` had given is a row of `t`, as far as the subscription. -/
structure Later (t t' : FeedTable) : Prop where
  seq : t.seq ≤ t'.seq
  old : ∀ row' ∈ t'.rows, row'.feedId ≤ t.seq → ∃ row ∈ t.rows, subscription row' = subscription row

variable {t t' t'' : FeedTable} {row row' : FeedRow} {c : RssCall} {r : c.Answer}

theorem feedId_eq (h : subscription row' = subscription row) : row'.feedId = row.feedId := by
  have heq := congrArg FeedRow.feedId h
  exact heq

theorem chatId_eq (h : subscription row' = subscription row) : row'.chatId = row.chatId := by
  have heq := congrArg FeedRow.chatId h
  exact heq

theorem Later.refl (t : FeedTable) : Later t t := ⟨le_rfl, fun row hrow _ => ⟨row, hrow, rfl⟩⟩

theorem Later.trans (h : Later t t') (h' : Later t' t'') : Later t t'' := by
  refine ⟨h.seq.trans h'.seq, fun row'' hrow'' hle => ?_⟩
  have hseq : (t.seq : Int) ≤ t'.seq := by exact_mod_cast h.seq
  obtain ⟨row', hrow', heq'⟩ := h'.old row'' hrow'' (hle.trans hseq)
  rw [feedId_eq heq'] at hle
  obtain ⟨row, hrow, heq⟩ := h.old row' hrow' hle
  exact ⟨row, hrow, heq'.trans heq⟩

/-! ### What a call does -/

/-- The calls that the programs make: `save` only of new feeds. -/
def RssCall.Proper : RssCall → Prop
  | .save feed => feed.feedId = 0
  | _ => True

/-- A new feed is refused, or it gets the next id. -/
theorem save_new (env : SaveEnv) (t : FeedTable) {feed : RssFeed} (hnew : feed.feedId = 0) :
    (∃ err, (t.save env feed).1 = .error err) ∧ (t.save env feed).2 = t ∨
      ∃ (saved : RssFeed) (row : FeedRow), (t.save env feed).1 = .ok saved ∧ saved.feedId = row.feedId ∧
        row.feedId = t.seq + 1 ∧ (t.save env feed).2.seq = t.seq + 1 ∧
        (t.save env feed).2.rows = t.rows ++ [row] := by
  obtain ⟨-, err, -, hsave⟩ | ⟨-, e, -, hsave⟩ | ⟨-, saved, t', hwrite, hsave⟩ := save_cases env t feed
  · exact .inl ⟨⟨err, by rw [hsave]⟩, by rw [hsave]⟩
  · exact .inl ⟨⟨_, by rw [hsave]⟩, by rw [hsave]⟩
  · rw [write_new (by simpa using hnew)] at hwrite
    cases hins : t.insert (stamp env.now feed) with
    | error e =>
      rw [hins] at hwrite
      cases hwrite
    | ok inserted =>
      obtain ⟨id, t₁⟩ := inserted
      rw [hins] at hwrite
      cases hwrite
      obtain ⟨hid, hseq⟩ := FeedTable.insert_seq hins
      refine .inr ⟨_, t.newRow (stamp env.now feed), by rw [hsave], hid, rfl, ?_, ?_⟩
      · rw [hsave]
        exact hseq
      · rw [hsave]
        exact (FeedTable.insert_ok hins).1

theorem subscription_setState (feedId : Int) (lastGuid : String) (at_ : Time) (row : FeedRow) :
    subscription (FeedTable.setState feedId lastGuid at_ row) = subscription row := by
  unfold FeedTable.setState
  split <;> rfl

/-- What a call of the programs leaves, save that it deletes. -/
theorem later_of_serves (hc : c.Proper) (h : Serves t c r t') : Later t t' := by
  cases h with
  | save env feed =>
    rcases save_new env t hc with ⟨-, hsame⟩ | ⟨saved, row, -, -, hid, hseq, hrows⟩
    · rw [hsame]
      exact .refl t
    · refine ⟨by omega, fun row' hrow' hle => ?_⟩
      rw [hrows, List.mem_append, List.mem_singleton] at hrow'
      rcases hrow' with hrow' | rfl
      · exact ⟨row', hrow', rfl⟩
      · omega
  | updateState env feedId lastGuid at_ =>
    obtain ⟨hseq, ⟨-, hrows⟩ | ⟨-, -, hrows⟩⟩ := t.updateState_cases env feedId lastGuid at_
    · refine ⟨hseq.ge, fun row' hrow' _ => ⟨row', ?_, rfl⟩⟩
      rwa [hrows] at hrow'
    · refine ⟨hseq.ge, fun row' hrow' _ => ?_⟩
      rw [hrows] at hrow'
      obtain ⟨row, hrow, rfl⟩ := List.mem_map.1 hrow'
      exact ⟨row, hrow, subscription_setState ..⟩
  | remove env feedId =>
    obtain ⟨hseq, ⟨-, hrows⟩ | ⟨-, hrows⟩⟩ := t.remove_cases env feedId
    · refine ⟨hseq.ge, fun row' hrow' _ => ⟨row', ?_, rfl⟩⟩
      rwa [hrows] at hrow'
    · refine ⟨hseq.ge, fun row' hrow' _ => ⟨row', ?_, rfl⟩⟩
      rw [hrows] at hrow'
      exact (List.mem_filter.1 hrow').1
  | listEnabled | find | get | onNewEntry | now | cancelled | sleep => exact .refl t

/-- Only a deletion of the feed takes a row away. -/
theorem row_kept (h : Serves t c r t') (hc : c.Proper) (hrow : row ∈ t.rows) :
    (∃ row' ∈ t'.rows, subscription row' = subscription row) ∨
      (⟨c, r⟩ : Σ c : RssCall, c.Answer) = ⟨.remove row.feedId, .ok ()⟩ := by
  cases h with
  | save env feed =>
    rcases save_new env t hc with ⟨-, hsame⟩ | ⟨saved, new, -, -, -, -, hrows⟩
    · rw [hsame]
      exact .inl ⟨row, hrow, rfl⟩
    · rw [hrows]
      exact .inl ⟨row, List.mem_append_left _ hrow, rfl⟩
  | updateState env feedId lastGuid at_ =>
    obtain ⟨-, ⟨-, hrows⟩ | ⟨-, -, hrows⟩⟩ := t.updateState_cases env feedId lastGuid at_
    · rw [hrows]
      exact .inl ⟨row, hrow, rfl⟩
    · rw [hrows]
      exact .inl ⟨_, List.mem_map_of_mem hrow, subscription_setState ..⟩
  | remove env feedId =>
    obtain ⟨-, ⟨-, hrows⟩ | ⟨hok, hrows⟩⟩ := t.remove_cases env feedId
    · rw [hrows]
      exact .inl ⟨row, hrow, rfl⟩
    · by_cases hid : row.feedId = feedId
      · subst hid
        rw [hok]
        exact .inr rfl
      · rw [hrows]
        exact .inl ⟨row, List.mem_filter.2 ⟨hrow, decide_eq_true hid⟩, rfl⟩
  | listEnabled | find | get | onNewEntry | now | cancelled | sleep => exact .inl ⟨row, hrow, rfl⟩

/-! ### What the programs call -/

/-- A proper call that deletes nothing. -/
def RssCall.Harmless (c : RssCall) : Prop := c.Proper ∧ ∀ feedId, c ≠ .remove feedId

theorem visitEntries_harmless (p : Poller) (feed : RssFeed) (entries : List RssEntry) (newest : String) :
    (visitEntries p feed entries newest).Only RssCall.Harmless := by
  induction entries generalizing newest with
  | nil => exact .pure _
  | cons entry entries ih =>
    unfold visitEntries
    extract_lets isNew
    split
    · exact ih _
    · split
      · exact ih _
      · exact Prog.Only.ask_bind ⟨trivial, by simp⟩ fun _ => ih _

theorem processFeed_harmless (p : Poller) (feed : RssFeed) :
    (processFeed p feed).Only RssCall.Harmless := by
  refine .ask_bind ⟨trivial, by simp⟩ fun fetch => ?_
  split
  · exact .pure _
  · refine (visitEntries_harmless ..).bind fun newest => ?_
    refine .ask_bind ⟨trivial, by simp⟩ fun now => ?_
    exact .ask_bind ⟨trivial, by simp⟩ fun _ => .pure _

theorem pollFeeds_harmless (p : Poller) (now : Time) (feeds : List RssFeed) :
    (pollFeeds p now feeds).Only RssCall.Harmless := by
  induction feeds with
  | nil => exact .pure _
  | cons feed feeds ih =>
    unfold pollFeeds
    split
    · exact ih
    · refine .ask_bind ⟨trivial, by simp⟩ fun b => ?_
      cases b
      · exact (processFeed_harmless p feed).bind fun _ => ih
      · exact .pure _

theorem run_harmless (p : Poller) (rounds : Nat) : (run p rounds).Only RssCall.Harmless := by
  induction rounds with
  | zero => exact .pure _
  | succ rounds ih =>
    refine .ask_bind ⟨trivial, by simp⟩ fun b => ?_
    cases b
    · refine Prog.Only.bind (.ask_bind ⟨trivial, by simp⟩ fun listed => ?_) fun _ =>
        .ask_bind ⟨trivial, by simp⟩ fun b => ?_
      · cases listed with
        | error err => exact .pure _
        | ok feeds => exact .ask_bind ⟨trivial, by simp⟩ fun now => pollFeeds_harmless p now feeds
      · cases b
        · exact ih
        · exact .pure _
    · exact .pure _

/-! ### Deletions -/

/-- A call that the request is entitled to: what it deletes is of the chat that asks. -/
structure Entitled (request : RssRequest) (t : FeedTable) (c : RssCall) (r : c.Answer) (t' : FeedTable) :
    Prop where
  proper : c.Proper
  later : Later t t'
  kept : ∀ row ∈ t.rows, (∃ row' ∈ t'.rows, subscription row' = subscription row) ∨
    (∃ user, request = .remove row.feedId user ⟨row.chatId⟩) ∧
      (⟨c, r⟩ : Σ c : RssCall, c.Answer) = ⟨.remove row.feedId, .ok ()⟩

theorem entitled_of_harmless (request : RssRequest) (hc : c.Harmless) (h : Serves t c r t') :
    Entitled request t c r t' := by
  refine ⟨hc.1, later_of_serves hc.1 h, fun row hrow => (row_kept h hc.1 hrow).imp_right fun hdel => ?_⟩
  exact absurd (congrArg Sigma.fst hdel) (hc.2 row.feedId)

/-- After the check of the chat the deletion is entitled to, whatever comes between. -/
theorem removeFeed_guards (feedId : Int) (user : UserId) (chat : ChatId) :
    (removeFeed feedId chat).Guards Serves Later (Entitled (.remove feedId user chat))
      (fun _ _ => True) t := by
  refine Prog.Guards.ask_bind fun t₁ loaded t₂ _ hfind => ⟨entitled_of_harmless _ ⟨trivial, by simp⟩ hfind, ?_⟩
  cases hfind with
  | find env =>
    cases hloaded : t₁.find env feedId with
    | error err => exact fun _ _ => trivial
    | ok found =>
      cases found with
      | none => exact fun _ _ => trivial
      | some feed =>
        obtain ⟨row, hrow, hid, hread⟩ := FeedTable.find_ok hloaded
        show (if feed.chat ≠ chat then _ else _ : RssProg (Result Unit)).Guards _ _ _ _ _
        split_ifs with hchat
        · exact fun _ _ => trivial
        · rw [ne_eq, not_not, hread.chat] at hchat
          subst hchat
          -- a row with the id is that row, until the call and at it
          intro t₃ r t₄ hlater hremove
          have hproper : (RssCall.remove feedId).Proper := trivial
          refine ⟨⟨hproper, later_of_serves hproper hremove, fun row' hrow' => ?_⟩, fun _ _ => trivial⟩
          refine (row_kept hremove hproper hrow').imp_right fun hdel => ⟨⟨user, ?_⟩, hdel⟩
          cases hdel
          have hle : row'.feedId ≤ t₁.seq := by
            rw [← hid]
            exact t₁.below row hrow
          obtain ⟨row₁, hrow₁, heq⟩ := hlater.old row' hrow' hle
          have hsame : row₁ = row := FeedTable.row_unique hrow₁ hrow ((feedId_eq heq).symm.trans hid.symm)
          rw [chatId_eq heq, hsame]

theorem serve_guards (p : Poller) (request : RssRequest) :
    (request.prog p).Guards Serves Later (Entitled request) (fun _ _ => True) t := by
  have hall : ∀ s c r s', RssCall.Harmless c → Serves s c r s' → Entitled request s c r s' :=
    fun s c r s' hc h => entitled_of_harmless request hc h
  cases request with
  | add feed =>
    refine Prog.Only.guards (Prog.Only.bind ?_ fun _ => .pure _) hall
    unfold add
    split_ifs
    · exact .pure _
    · exact .pure _
    · exact .ask_bind ⟨rfl, by simp⟩ fun _ => .pure _
  | listForChat chat =>
    refine Prog.Only.guards (Prog.Only.bind ?_ fun _ => .pure _) hall
    exact .ask_bind ⟨trivial, by simp⟩ fun _ => .pure _
  | remove feedId user chat =>
    exact (removeFeed_guards feedId user chat).bind Later.refl fun _ _ _ => fun _ _ => trivial
  | poll rounds => exact Prog.Only.guards ((run_harmless p rounds).bind fun _ => .pure _) hall

variable {ι : Type} [DecidableEq ι] {p : Poller} {requests : ι → RssRequest}
  {log : List (ι × Σ c : RssCall, c.Answer)}

/-- The calls that are made, with what the threads keep to. -/
def Lawful (requests : ι → RssRequest) (i : ι) (t : FeedTable) (c : RssCall) (r : c.Answer)
    (t' : FeedTable) : Prop :=
  Serves t c r t' ∧ Entitled (requests i) t c r t'

/-- In every interleaving each thread keeps to what it is entitled to. -/
theorem Interleaved.lawful (h : Interleaved p requests t log t') :
    ∃ left, Prog.Parallel (Lawful requests) t (fun i => (requests i).prog p) log t' left := by
  obtain ⟨left, h⟩ := h
  exact ⟨left, (h.guaranteed (R := fun _ => Later) (fun _ => Later.refl) (fun _ _ _ _ => Later.trans)
    (fun _ _ _ _ _ _ _ _ hG => hG.later) fun i => serve_guards p (requests i)).1⟩

/-- A feed stays in the table, whatever runs side by side, unless a request to remove it has come from
its own chat and its deletion has succeeded. -/
theorem kept_or_removed (p : Poller) (requests : ι → RssRequest) (t t' : FeedTable)
    (log : List (ι × Σ c : RssCall, c.Answer)) (h : Interleaved p requests t log t') (row : FeedRow)
    (hrow : row ∈ t.rows) :
    (∃ row' ∈ t'.rows, subscription row' = subscription row) ∨
      ∃ i user, requests i = .remove row.feedId user ⟨row.chatId⟩ ∧
        (i, (⟨.remove row.feedId, .ok ()⟩ : Σ c : RssCall, c.Answer)) ∈ log := by
  obtain ⟨left, hrun⟩ := h.lawful
  clear h
  generalize (fun i => (requests i).prog p) = progs at hrun
  induction hrun with
  | nil => exact .inl ⟨row, hrow, rfl⟩
  | @snoc t₁ t₂ _ p' log i c k r _ _ hstep ih =>
    rcases ih with ⟨row₁, hrow₁, heq₁⟩ | ⟨j, user, hreq, hmem⟩
    · rcases hstep.2.kept row₁ hrow₁ with ⟨row₂, hrow₂, heq₂⟩ | ⟨⟨user, hreq⟩, hdel⟩
      · exact .inl ⟨row₂, hrow₂, heq₂.trans heq₁⟩
      · rw [feedId_eq heq₁, chatId_eq heq₁] at hreq
        rw [feedId_eq heq₁] at hdel
        rw [hdel]
        exact .inr ⟨i, user, hreq, List.mem_append_right _ (List.mem_singleton_self _)⟩
    · exact .inr ⟨j, user, hreq, List.mem_append_left _ hmem⟩

/-- The feed `1` is deleted for its own chat. -/
theorem removed_for_its_chat : ∃ (log : List (Unit × Σ c : RssCall, c.Answer)) (t' : FeedTable),
    Interleaved ⟨fun _ _ => none⟩ (fun _ => .remove 1 ⟨7⟩ ⟨1⟩) twoFeeds log t' ∧
      ((), (⟨.remove 1, .ok ()⟩ : Σ c : RssCall, c.Answer)) ∈ log := by
  let row := feedRow { feedId := 1, title := "a", url := "u", chat := ⟨1⟩ }
  have hmap : mapRow row = .ok { feedId := 1, title := "a", url := "u", chat := ⟨1⟩ } :=
    mapRow_feedRow (by decide) (by simp)
  have hrow : twoFeeds.rows.find? (fun row => row.feedId = 1) = some row := rfl
  have hfind : twoFeeds.find {} 1 = .ok (some { feedId := 1, title := "a", url := "u", chat := ⟨1⟩ }) := by
    unfold FeedTable.find CallEnv.call
    simp only [hrow, hmap]
    rfl
  have hrun : Interleaved ⟨fun _ _ => none⟩ (fun _ : Unit => .remove 1 ⟨7⟩ ⟨1⟩) twoFeeds
      [((), ⟨.find 1, twoFeeds.find {} 1⟩), ((), ⟨.remove 1, .ok ()⟩)] (twoFeeds.remove {} 1).2 := by
    have h₁ := (Prog.Parallel.nil (S := fun _ => Serves) twoFeeds fun _ : Unit =>
      RssRequest.prog ⟨fun _ _ => none⟩ (.remove 1 ⟨7⟩ ⟨1⟩)).snoc (i := ()) rfl (.find twoFeeds {} 1)
    exact ⟨_, h₁.snoc (i := ()) (by rw [hfind]; rfl) (.remove twoFeeds {} 1)⟩
  rcases kept_or_removed _ _ _ _ _ hrun row List.mem_cons_self with ⟨row', hrow', heq⟩ | ⟨i, user, -, hmem⟩
  · have hne := (List.mem_filter.1 hrow').2
    rw [decide_eq_true_iff] at hne
    exact absurd (feedId_eq heq) hne
  · exact ⟨_, _, hrun, hmem⟩

/-! ### Ids -/

theorem later_of_run {left left' : ι → RssProg RssOutcome}
    (h : Prog.Parallel (Lawful requests) t left log t' left') : Later t t' :=
  h.invariant (I := Later t) (fun _ _ _ _ _ hs hI => hI.trans hs.2.later) (Later.refl t)

/-- A feed that is saved has the next id. -/
theorem saved_feedId {feed saved : RssFeed} (hnew : feed.feedId = 0)
    (h : Serves t (.save feed) (.ok saved) t') : saved.feedId = t.seq + 1 ∧ t'.seq = t.seq + 1 := by
  generalize hr : (Except.ok saved : Result RssFeed) = r at h
  cases h with
  | save env =>
    rcases save_new env t hnew with ⟨⟨err, herr⟩, -⟩ | ⟨saved', row, hok, hid, hnext, hseq, -⟩
    · rw [herr] at hr
      cases hr
    · rw [hok] at hr
      cases hr
      exact ⟨hid.trans hnext, hseq⟩

/-- An id that was given is never given again: a row under it is the row that had it, with the same
feed, none comes back once it is deleted, and what is added gets larger ids one after another. -/
theorem ids_never_reused (p : Poller) (requests : ι → RssRequest) (t t' : FeedTable)
    (log : List (ι × Σ c : RssCall, c.Answer)) (h : Interleaved p requests t log t') :
    (∀ row' ∈ t'.rows, row'.feedId ≤ t.seq → ∃ row ∈ t.rows, subscription row' = subscription row) ∧
    (∀ feedId : Int, feedId ≤ t.seq → t.lacks feedId = true → t'.lacks feedId = true) ∧
    ∀ l₁ l₂ l₃ i j (feed feed' saved saved' : RssFeed), log = (l₁ ++ (i, ⟨.save feed, .ok saved⟩) :: l₂) ++
        (j, (⟨.save feed', .ok saved'⟩ : Σ c : RssCall, c.Answer)) :: l₃ →
      (t.seq : Int) < saved.feedId ∧ saved.feedId < saved'.feedId := by
  obtain ⟨left, hrun⟩ := h.lawful
  have hlater := later_of_run hrun
  refine ⟨hlater.old, fun feedId hle hlacks => ?_, ?_⟩
  · rw [FeedTable.lacks_iff] at hlacks ⊢
    intro row' hrow' hid
    subst hid
    obtain ⟨row, hrow, heq⟩ := hlater.old row' hrow' hle
    exact hlacks row hrow (feedId_eq heq).symm
  · intro l₁ l₂ l₃ i j feed feed' saved saved' hlog
    subst hlog
    obtain ⟨t₃, t₄, p₃, p₄, hrun₃, hsave', -⟩ := hrun.call_inv
    obtain ⟨t₁, t₂, p₁, p₂, hrun₁, hsave, hrun₂⟩ := hrun₃.call_inv
    have hid := saved_feedId hsave.2.proper hsave.1
    have hid' := saved_feedId hsave'.2.proper hsave'.1
    have hseq₁ := (later_of_run hrun₁).seq
    have hseq₂ := (later_of_run hrun₂).seq
    omega

def newFeed (b : Bool) : RssFeed := { title := "c", url := if b then "https://a" else "http://a", chat := ⟨3⟩ }

theorem add_newFeed (b : Bool) : add (newFeed b) =
    .call (.save (newFeed b)) fun saved => .pure (saved.map fun feed => feed.feedId) := by
  have hempty : ¬(newFeed b).url.isEmpty = true := by
    cases b <;> decide
  have hscheme : ¬(!("http://".toList.isPrefixOf (newFeed b).url.toList ||
      "https://".toList.isPrefixOf (newFeed b).url.toList)) = true := by
    cases b <;> decide
  unfold add
  rw [if_neg hempty, if_neg hscheme]
  rfl

/-- Two feeds are added to a table that has given the id `2`. -/
theorem two_added : ∃ (log : List (Bool × Σ c : RssCall, c.Answer)) (t' : FeedTable) (saved saved' : RssFeed),
    Interleaved ⟨fun _ _ => none⟩ (fun b => .add (newFeed b)) twoFeeds log t' ∧
      log = [(true, ⟨.save (newFeed true), .ok saved⟩), (false, ⟨.save (newFeed false), .ok saved'⟩)] ∧
        2 < saved.feedId ∧ saved.feedId < saved'.feedId := by
  have hadd : ∀ b, RssRequest.prog ⟨fun _ _ => none⟩ (.add (newFeed b)) = .call (.save (newFeed b))
      fun saved => .pure (.added (saved.map fun feed => feed.feedId)) := by
    intro b
    show (add (newFeed b) >>= fun r => Prog.pure (RssOutcome.added r)) = _
    rw [add_newFeed]
    rfl
  have h₁ := (Prog.Parallel.nil (S := fun _ => Serves) twoFeeds fun b : Bool =>
    RssRequest.prog ⟨fun _ _ => none⟩ (.add (newFeed b))).snoc (i := true) (hadd true)
      (.save twoFeeds ⟨1, none, none⟩ (newFeed true))
  have h₂ := h₁.snoc (i := false) (hadd false) (.save _ ⟨1, none, none⟩ (newFeed false))
  have hrun : Interleaved ⟨fun _ _ => none⟩ (fun b => .add (newFeed b)) twoFeeds _ _ := ⟨_, h₂⟩
  exact ⟨_, _, _, _, hrun, rfl, (ids_never_reused _ _ _ _ _ hrun).2.2 [] [] [] _ _ _ _ _ _ rfl⟩

end Cmlb.Rss
