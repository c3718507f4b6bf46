import Cmlb.Rss.SharedTable

/-!
# What the poller hands over, among the other requests

One poller runs side by side with any other requests, on copies of the feeds that it has read at the
start of a pass. A ledger notes what the log of a run says: the GUIDs handed over since the last
`update_state` (`pending`), those before one that succeeded (`settled`), and for each feed when it was
last marked as polled, with what the clock has shown since (`marks`). `Sound` ties the ledger to the
table, and `Fresh` ties it to a copy that is still to be polled; the others do not disturb either.

So an entry that was handed over and stored is not handed over again (`never_handed_again`), and two
polls of a feed are five minutes apart (`polls_apart`).
-/

namespace Cmlb.Rss

open Persistence TimeCodec

structure Ledger where
  pending : List (Int × String) := []
  settled : List (Int × String) := []
  marks : Int → Option (Time × List Time) := fun _ => none

def Ledger.note (L : Ledger) : (c : RssCall) → c.Answer → Ledger
  | .onNewEntry feed entry, _ => { L with pending := (feed.feedId, entry.guid) :: L.pending }
  | .updateState feedId _ at_, .ok _ =>
    { pending := [], settled := L.pending ++ L.settled
      marks := Function.update L.marks feedId (some (at_, [])) }
  | .updateState .., .error _ => { L with pending := [] }
  | .now, n => { L with marks := fun feedId => (L.marks feedId).map fun m => (m.1, n :: m.2) }
  | _, _ => L

/-- The table, with the ledger. -/
abbrev Books := FeedTable × Ledger

def ServesNoting (u : Books) (c : RssCall) (r : c.Answer) (u' : Books) : Prop :=
  Serves u.1 c r u'.1 ∧ u'.2 = u.2.note c r

/-- What the poller relies on: the others add and remove rows only. -/
structure Undisturbed (u u' : Books) : Prop where
  seq : u.1.seq ≤ u'.1.seq
  old : ∀ row ∈ u'.1.rows, row.feedId ≤ u.1.seq → row ∈ u.1.rows
  ledger : u'.2 = u.2

/-- What was settled is below the marks in the table, and the times there are those noted. -/
structure Sound (u : Books) : Prop where
  settled : ∀ x ∈ u.2.settled, x.1 ≤ u.1.seq ∧ ∀ row ∈ u.1.rows, row.feedId = x.1 → x.2 ≤ row.lastGuid
  marks : ∀ feedId m, u.2.marks feedId = some m → feedId ≤ u.1.seq ∧ Time.Fits m.1 ∧
    ∀ row ∈ u.1.rows, row.feedId = feedId → row.lastCheckedAt = some (toIso8601 m.1)

/-- A copy that is still to be polled is as good as its row. -/
structure Fresh (u : Books) (feed : RssFeed) : Prop where
  below : feed.feedId ≤ u.1.seq
  settled : ∀ guid, (feed.feedId, guid) ∈ u.2.settled → guid ≤ feed.lastGuid
  marks : ∀ m, u.2.marks feed.feedId = some m → feed.lastCheckedAt = some (Time.floorMs m.1)

/-- The clock has shown `now` since the feed was marked as polled. -/
def Shown (now : Time) (u : Books) (feed : RssFeed) : Prop :=
  ∀ m, u.2.marks feed.feedId = some m → now ∈ m.2

/-- Five minutes have been shown since, up to the milliseconds of the stored time. -/
def Elapsed (u : Books) (feedId : Int) : Prop :=
  ∀ m, u.2.marks feedId = some m → ∃ now ∈ m.2, Time.floorMs m.1 + kDefaultInterval ≤ now

/-- What the poller guarantees. -/
def Delivers (u : Books) (c : RssCall) (_ : c.Answer) (_ : Books) : Prop :=
  (∀ feed entry, c = .onNewEntry feed entry →
    entry.guid ≠ "" → (feed.feedId, entry.guid) ∉ u.2.settled) ∧
  ∀ feedId guid at_, c = .updateState feedId guid at_ → Elapsed u feedId

variable {u u' u'' : Books} {feed : RssFeed} {feeds : List RssFeed} {now : Time}

theorem Undisturbed.refl (u : Books) : Undisturbed u u := ⟨le_rfl, fun _ h _ => h, rfl⟩

theorem Undisturbed.trans (h : Undisturbed u u') (h' : Undisturbed u' u'') : Undisturbed u u'' := by
  refine ⟨h.seq.trans h'.seq, fun row hrow hle => ?_, h'.ledger.trans h.ledger⟩
  have hseq : (u.1.seq : Int) ≤ u'.1.seq := by exact_mod_cast h.seq
  exact h.old row (h'.old row hrow (hle.trans hseq)) hle

theorem Sound.undisturbed (h : Sound u) (hu : Undisturbed u u') : Sound u' := by
  have hseq : (u.1.seq : Int) ≤ u'.1.seq := by exact_mod_cast hu.seq
  constructor
  · rw [hu.ledger]
    intro x hx
    obtain ⟨hle, hrows⟩ := h.settled x hx
    exact ⟨hle.trans hseq, fun row hrow hid => hrows row (hu.old row hrow (hid.trans_le hle)) hid⟩
  · rw [hu.ledger]
    intro feedId m hm
    obtain ⟨hle, hfits, hrows⟩ := h.marks feedId m hm
    exact ⟨hle.trans hseq, hfits, fun row hrow hid => hrows row (hu.old row hrow (hid.trans_le hle)) hid⟩

theorem Fresh.undisturbed (h : Fresh u feed) (hu : Undisturbed u u') : Fresh u' feed := by
  have hseq : (u.1.seq : Int) ≤ u'.1.seq := by exact_mod_cast hu.seq
  refine ⟨h.below.trans hseq, ?_, ?_⟩
  · rw [hu.ledger]
    exact h.settled
  · rw [hu.ledger]
    exact h.marks

/-- A copy that is read from a sound table. -/
theorem Sound.fresh {row : FeedRow} (h : Sound u) (hrow : row ∈ u.1.rows) (hread : Reads row feed) :
    Fresh u feed := by
  have hle : feed.feedId ≤ u.1.seq := by
    rw [hread.feedId]
    exact u.1.below row hrow
  refine ⟨hle, fun guid hguid => ?_, fun m hm => ?_⟩
  · rw [hread.lastGuid]
    exact (h.settled _ hguid).2 row hrow hread.feedId.symm
  · obtain ⟨-, hfits, hrows⟩ := h.marks _ m hm
    obtain ⟨checked, hchecked, hparse⟩ := hread.checked _ (hrows row hrow hread.feedId.symm)
    rw [parseIso8601_toIso8601 hfits] at hparse
    cases hparse
    exact hchecked

/-- A copy that is due. -/
theorem elapsed_of_not_tooSoon (h : Fresh u feed) (hshown : Shown now u feed)
    (hdue : tooSoon now feed = false) : Elapsed u feed.feedId := by
  intro m hm
  refine ⟨now, hshown m hm, ?_⟩
  unfold tooSoon at hdue
  rw [h.marks m hm] at hdue
  exact le_sub_iff_add_le'.1 (not_lt.1 (of_decide_eq_false hdue))

/-! ### Between two feeds, and in one -/

/-- The pass has still to poll `feeds`. -/
structure Awaiting (now : Time) (feeds : List RssFeed) (u : Books) : Prop where
  sound : Sound u
  pending : u.2.pending = []
  fresh : ∀ feed ∈ feeds, Fresh u feed
  shown : ∀ feed ∈ feeds, Shown now u feed
  ascend : feeds.Pairwise fun f g => f.feedId < g.feedId

/-- The pass is at `feed`, before the others, with the greatest GUID `newest` so far. -/
structure Visiting (now : Time) (feed : RssFeed) (feeds : List RssFeed) (newest : String) (u : Books) :
    Prop where
  sound : Sound u
  fresh : ∀ f ∈ feed :: feeds, Fresh u f
  shown : ∀ f ∈ feeds, Shown now u f
  ascend : (feed :: feeds).Pairwise fun f g => f.feedId < g.feedId
  elapsed : Elapsed u feed.feedId
  pending : ∀ x ∈ u.2.pending, x.1 = feed.feedId ∧ x.2 ≤ newest
  mark : feed.lastGuid ≤ newest

variable {newest newest' : String} {entry : RssEntry} {at_ : Time}

theorem Awaiting.undisturbed (h : Awaiting now feeds u) (hu : Undisturbed u u') :
    Awaiting now feeds u' where
  sound := h.sound.undisturbed hu
  pending := by
    rw [hu.ledger]
    exact h.pending
  fresh f hf := (h.fresh f hf).undisturbed hu
  shown f hf := by
    unfold Shown
    rw [hu.ledger]
    exact h.shown f hf
  ascend := h.ascend

theorem Visiting.undisturbed (h : Visiting now feed feeds newest u) (hu : Undisturbed u u') :
    Visiting now feed feeds newest u' where
  sound := h.sound.undisturbed hu
  fresh f hf := (h.fresh f hf).undisturbed hu
  shown f hf := by
    unfold Shown
    rw [hu.ledger]
    exact h.shown f hf
  ascend := h.ascend
  elapsed := by
    unfold Elapsed
    rw [hu.ledger]
    exact h.elapsed
  pending := by
    rw [hu.ledger]
    exact h.pending
  mark := h.mark

theorem Visiting.raise (h : Visiting now feed feeds newest u) (hle : newest ≤ newest') :
    Visiting now feed feeds newest' u :=
  { h with
    pending := fun x hx => ⟨(h.pending x hx).1, (h.pending x hx).2.trans hle⟩
    mark := h.mark.trans hle }

/-- An entry is handed over. -/
theorem Visiting.handed {r : Option String} (h : Visiting now feed feeds newest u)
    (hle : entry.guid ≤ newest) (hs : ServesNoting u (.onNewEntry feed entry) r u') :
    Visiting now feed feeds newest u' := by
  obtain ⟨t, L⟩ := u
  obtain ⟨t', L'⟩ := u'
  obtain ⟨hserves, rfl⟩ := hs
  cases hserves
  refine ⟨⟨h.sound.settled, h.sound.marks⟩, fun f hf => ⟨(h.fresh f hf).below, (h.fresh f hf).settled,
    (h.fresh f hf).marks⟩, h.shown, h.ascend, h.elapsed, fun x hx => ?_, h.mark⟩
  rcases List.mem_cons.1 hx with rfl | hx
  · exact ⟨rfl, hle⟩
  · exact h.pending x hx

theorem mem_marks_now {L : Ledger} {n : Time} {feedId : Int} {m : Time × List Time}
    (h : (L.note .now n).marks feedId = some m) :
    ∃ m₀, L.marks feedId = some m₀ ∧ m = (m₀.1, n :: m₀.2) := by
  obtain ⟨m₀, h₀, rfl⟩ := Option.map_eq_some_iff.1 h
  exact ⟨m₀, h₀, rfl⟩

theorem Sound.clock {n : Time} (h : Sound u) (hs : ServesNoting u .now n u') : Sound u' := by
  obtain ⟨t, L⟩ := u
  obtain ⟨t', L'⟩ := u'
  obtain ⟨hserves, rfl⟩ := hs
  cases hserves
  refine ⟨h.settled, fun feedId m hm => ?_⟩
  obtain ⟨m₀, h₀, rfl⟩ := mem_marks_now hm
  exact h.marks feedId m₀ h₀

theorem Fresh.clock {n : Time} (h : Fresh u feed) (hs : ServesNoting u .now n u') : Fresh u' feed := by
  obtain ⟨t, L⟩ := u
  obtain ⟨t', L'⟩ := u'
  obtain ⟨hserves, rfl⟩ := hs
  cases hserves
  refine ⟨h.below, h.settled, fun m hm => ?_⟩
  obtain ⟨m₀, h₀, rfl⟩ := mem_marks_now hm
  exact h.marks m₀ h₀

theorem shown_of_clock {n : Time} (hs : ServesNoting u .now n u') (feed : RssFeed) :
    Shown n u' feed := by
  intro m hm
  rw [hs.2] at hm
  obtain ⟨m₀, -, rfl⟩ := mem_marks_now hm
  exact List.mem_cons_self

theorem Visiting.clock {n : Time} (h : Visiting now feed feeds newest u) (hs : ServesNoting u .now n u') :
    Visiting now feed feeds newest u' where
  sound := h.sound.clock hs
  fresh f hf := (h.fresh f hf).clock hs
  shown f hf m hm := by
    rw [hs.2] at hm
    obtain ⟨m₀, h₀, rfl⟩ := mem_marks_now hm
    exact List.mem_cons_of_mem _ (h.shown f hf m₀ h₀)
  ascend := h.ascend
  elapsed m hm := by
    rw [hs.2] at hm
    obtain ⟨m₀, h₀, rfl⟩ := mem_marks_now hm
    obtain ⟨n', hn', hle⟩ := h.elapsed m₀ h₀
    exact ⟨n', List.mem_cons_of_mem _ hn', hle⟩
  pending x hx := by
    rw [hs.2] at hx
    exact h.pending x hx
  mark := h.mark

/-! ### The mark is stored -/

/-- After the update a row of the feed has the new mark, and the other rows are what they were. -/
theorem mem_updated {rows : List FeedRow} {row : FeedRow} {feedId : Int}
    (h : row ∈ rows.map (FeedTable.setState feedId newest at_)) :
    row.feedId = feedId ∧ row.lastGuid = newest ∧ row.lastCheckedAt = some (toIso8601 at_) ∨
      row.feedId ≠ feedId ∧ row ∈ rows := by
  obtain ⟨old, hold, rfl⟩ := List.mem_map.1 h
  unfold FeedTable.setState
  split_ifs with hid
  · exact .inl ⟨hid, rfl, rfl⟩
  · exact .inr ⟨hid, hold⟩

theorem Visiting.updated_ok {t t' : FeedTable} {L : Ledger} (h : Visiting now feed feeds newest (t, L))
    (hfits : Time.Fits at_) (hseq : t'.seq = t.seq)
    (hrows : t'.rows = t.rows.map (FeedTable.setState feed.feedId newest at_)) :
    Awaiting now feeds (t', L.note (.updateState feed.feedId newest at_) (.ok ())) := by
  have hfeed := h.fresh feed List.mem_cons_self
  have hother : ∀ f ∈ feeds, f.feedId ≠ feed.feedId := fun f hf =>
    ne_of_gt ((List.pairwise_cons.1 h.ascend).1 f hf)
  -- another feed has the same entries in the ledger as before
  have hsettled : ∀ feedId guid, feedId ≠ feed.feedId → (feedId, guid) ∈ L.pending ++ L.settled →
      (feedId, guid) ∈ L.settled := by
    intro feedId guid hne hmem
    rcases List.mem_append.1 hmem with hmem | hmem
    · exact absurd (h.pending _ hmem).1 hne
    · exact hmem
  refine ⟨⟨fun x hx => ?_, fun feedId m hm => ?_⟩, rfl, fun f hf => ?_, fun f hf m hm => ?_,
    (List.pairwise_cons.1 h.ascend).2⟩
  · have hle : x.1 ≤ t.seq := by
      rcases List.mem_append.1 hx with hx | hx
      · rw [(h.pending x hx).1]
        exact hfeed.below
      · exact (h.sound.settled x hx).1
    dsimp only
    rw [hseq, hrows]
    refine ⟨hle, fun row hrow hid => ?_⟩
    rcases mem_updated hrow with ⟨heq, hguid, -⟩ | ⟨hne, hrow⟩
    · rw [hguid]
      rcases List.mem_append.1 hx with hx | hx
      · exact (h.pending x hx).2
      · refine (hfeed.settled x.2 ?_).trans h.mark
        rwa [← heq, hid]
    · exact (h.sound.settled x (hsettled x.1 x.2 (hid ▸ hne) hx)).2 row hrow hid
  · have hm : Function.update L.marks feed.feedId (some (at_, [])) feedId = some m := hm
    dsimp only
    rw [hseq, hrows]
    by_cases hid : feedId = feed.feedId
    · subst hid
      rw [Function.update_self] at hm
      cases hm
      refine ⟨hfeed.below, hfits, fun row hrow hrowid => ?_⟩
      rcases mem_updated hrow with ⟨-, -, hchecked⟩ | ⟨hne, -⟩
      · exact hchecked
      · exact absurd hrowid hne
    · rw [Function.update_of_ne hid] at hm
      obtain ⟨hle, hfits, hold⟩ := h.sound.marks feedId m hm
      refine ⟨hle, hfits, fun row hrow hrowid => ?_⟩
      rcases mem_updated hrow with ⟨heq, -, -⟩ | ⟨-, hrow⟩
      · exact absurd (hrowid.symm.trans heq) hid
      · exact hold row hrow hrowid
  · have hf' := h.fresh f (List.mem_cons_of_mem _ hf)
    refine ⟨?_, fun guid hguid => hf'.settled guid (hsettled _ _ (hother f hf) hguid), fun m hm => ?_⟩
    · dsimp only
      rw [hseq]
      exact hf'.below
    · exact hf'.marks m ((Function.update_of_ne (hother f hf) ..).symm.trans hm)
  · exact h.shown f hf m ((Function.update_of_ne (hother f hf) ..).symm.trans hm)

theorem Visiting.updated (h : Visiting now feed feeds newest u) (hfits : Time.Fits at_) {r : Result Unit}
    (hs : ServesNoting u (.updateState feed.feedId newest at_) r u') : Awaiting now feeds u' := by
  obtain ⟨t, L⟩ := u
  obtain ⟨t', L'⟩ := u'
  obtain ⟨hserves, rfl⟩ := hs
  cases hserves with
  | updateState env =>
    obtain ⟨hseq, ⟨⟨err, herr⟩, hrows⟩ | ⟨hok, -, hrows⟩⟩ := t.updateState_cases env feed.feedId newest at_
    · rw [herr]
      refine ⟨⟨?_, ?_⟩, rfl, fun f hf => ?_, fun f hf => h.shown f hf, (List.pairwise_cons.1 h.ascend).2⟩
      · rw [hseq, hrows]
        exact h.sound.settled
      · rw [hseq, hrows]
        exact h.sound.marks
      · have hf' := h.fresh f (List.mem_cons_of_mem _ hf)
        refine ⟨?_, hf'.settled, hf'.marks⟩
        rw [hseq]
        exact hf'.below
    · rw [hok]
      exact h.updated_ok hfits hseq hrows

/-! ### The poller keeps to it -/

/-- A call that neither hands over nor stores. -/
def RssCall.Silent : RssCall → Prop
  | .onNewEntry .. | .updateState .. => False
  | _ => True

/-- An answer that is no business of the ledger. -/
theorem delivers_of {c : RssCall} {r : c.Answer} (hc : c.Silent) : Delivers u c r u' := by
  constructor
  · rintro feed entry rfl
    exact hc.elim
  · rintro feedId guid at_ rfl
    exact hc.elim

/-- A program of the poller, with what it leaves behind. -/
abbrev Polls {α : Type} (Q : α → Books → Prop) (prog : RssProg α) (u : Books) : Prop :=
  prog.Guards ServesNoting Undisturbed Delivers Q u

theorem visitEntries_polls (p : Poller) (entries : List RssEntry) (h : Visiting now feed feeds newest u) :
    Polls (fun newest' => Visiting now feed feeds newest') (visitEntries p feed entries newest) u := by
  induction entries generalizing newest u with
  | nil => exact fun u' hu => h.undisturbed hu
  | cons entry entries ih =>
    unfold visitEntries
    extract_lets isNew
    split
    · exact ih h
    · rename_i newest' hnew
      have hraise : newest ≤ newest' ∧ entry.guid ≤ newest' := by
        unfold newest'
        split_ifs with hgt
        · exact ⟨le_of_lt hgt, le_rfl⟩
        · exact ⟨le_rfl, not_lt.1 hgt⟩
      split
      · exact ih (h.raise hraise.1)
      · intro u₁ r u₂ hu hs
        have h₁ := (h.raise hraise.1).undisturbed hu
        refine ⟨⟨fun feed' entry' heq hguid hmem => ?_, fun _ _ _ heq => by cases heq⟩,
          ih (h₁.handed hraise.2 hs)⟩
        cases heq
        -- what was settled is at or below the mark, and a new entry is above it
        have hle := (h₁.fresh feed List.mem_cons_self).settled _ hmem
        rw [Bool.not_eq_true', Bool.not_eq_false] at hnew
        rcases Poller.isNew_iff.1 hnew with hempty | hlt
        · rw [hempty] at hle
          exact absurd (empty_lt_of_ne hguid) (not_lt.2 hle)
        · exact absurd hlt (not_lt.2 hle)

theorem get_same {url : String} {r : Fetch} (hs : ServesNoting u (.get url) r u') : u' = u := by
  obtain ⟨t', L'⟩ := u'
  obtain ⟨hserves, rfl⟩ := hs
  cases hserves
  rfl

theorem cancelled_same {r : Bool} (hs : ServesNoting u .cancelled r u') : u' = u := by
  obtain ⟨t', L'⟩ := u'
  obtain ⟨hserves, rfl⟩ := hs
  cases hserves
  rfl

theorem sleep_same {r : Bool} (hs : ServesNoting u .sleep r u') : u' = u := by
  obtain ⟨t', L'⟩ := u'
  obtain ⟨hserves, rfl⟩ := hs
  cases hserves
  rfl

theorem fits_of_clock {n : Time} (hs : ServesNoting u .now n u') : Time.Fits n := by
  obtain ⟨t', L'⟩ := u'
  obtain ⟨hserves, -⟩ := hs
  cases hserves
  assumption

theorem listEnabled_same {r : Result (List RssFeed)} (hs : ServesNoting u .listEnabled r u') :
    u' = u ∧ ∃ env, r = u.1.listEnabled env := by
  obtain ⟨t', L'⟩ := u'
  obtain ⟨hserves, rfl⟩ := hs
  cases hserves with
  | listEnabled env => exact ⟨rfl, env, rfl⟩

theorem Awaiting.tail (h : Awaiting now (feed :: feeds) u) : Awaiting now feeds u :=
  { h with
    fresh := fun f hf => h.fresh f (List.mem_cons_of_mem _ hf)
    shown := fun f hf => h.shown f (List.mem_cons_of_mem _ hf)
    ascend := (List.pairwise_cons.1 h.ascend).2 }

theorem Awaiting.visit (h : Awaiting now (feed :: feeds) u) (hdue : tooSoon now feed = false) :
    Visiting now feed feeds feed.lastGuid u where
  sound := h.sound
  fresh := h.fresh
  shown f hf := h.shown f (List.mem_cons_of_mem _ hf)
  ascend := h.ascend
  elapsed := elapsed_of_not_tooSoon (h.fresh feed List.mem_cons_self) (h.shown feed List.mem_cons_self) hdue
  pending x hx := by
    rw [h.pending] at hx
    exact absurd hx List.not_mem_nil
  mark := le_rfl

theorem processFeed_polls (p : Poller) (h : Awaiting now (feed :: feeds) u)
    (hdue : tooSoon now feed = false) : Polls (fun _ => Awaiting now feeds) (processFeed p feed) u := by
  refine Prog.Guards.ask_bind fun u₁ fetch u₂ hu hs => ?_
  refine ⟨delivers_of trivial, ?_⟩
  cases get_same hs
  have h₁ := h.undisturbed hu
  split
  · exact fun u' hu' => h₁.tail.undisturbed hu'
  · rename_i doc hdoc
    refine (visitEntries_polls p doc.entries (h₁.visit hdue)).bind Undisturbed.refl fun newest u₃ h₃ => ?_
    refine Prog.Guards.ask_bind fun u₄ n u₅ hu₄ hs₅ => ?_
    refine ⟨delivers_of trivial, Prog.Guards.ask_bind fun u₆ r u₇ hu₆ hs₇ => ?_⟩
    have h₆ := ((h₃.undisturbed hu₄).clock hs₅).undisturbed hu₆
    refine ⟨⟨fun _ _ heq => (by cases heq), fun feedId guid at_ heq => ?_⟩, fun u' hu' => ?_⟩
    · cases heq
      exact h₆.elapsed
    · exact (h₆.updated (fits_of_clock hs₅) hs₇).undisturbed hu'

/-- Between two passes. -/
def Idle (u : Books) : Prop := Sound u ∧ u.2.pending = []

theorem Idle.undisturbed (h : Idle u) (hu : Undisturbed u u') : Idle u' := by
  refine ⟨h.1.undisturbed hu, ?_⟩
  rw [hu.ledger]
  exact h.2

theorem pollFeeds_polls (p : Poller) (h : Awaiting now feeds u) :
    Polls (fun _ => Idle) (pollFeeds p now feeds) u := by
  induction feeds generalizing u with
  | nil => exact fun u' hu => ⟨h.sound.undisturbed hu, (h.undisturbed hu).pending⟩
  | cons feed feeds ih =>
    unfold pollFeeds
    split
    · exact ih h.tail
    · rename_i hdue
      refine Prog.Guards.ask_bind fun u₁ b u₂ hu hs => ?_
      refine ⟨delivers_of trivial, ?_⟩
      cases cancelled_same hs
      have h₁ := h.undisturbed hu
      cases b with
      | true => exact fun u' hu' => Idle.undisturbed ⟨h₁.sound, h₁.pending⟩ hu'
      | false =>
        refine (processFeed_polls p h₁ (Bool.eq_false_iff.2 hdue)).bind Undisturbed.refl ?_
        exact fun _ u₂ h₂ => ih h₂

theorem pollOnce_polls (p : Poller) (h : Idle u) : Polls (fun _ => Idle) (pollOnce p) u := by
  refine Prog.Guards.ask_bind fun u₁ listed u₂ hu hs => ?_
  refine ⟨delivers_of trivial, ?_⟩
  obtain ⟨rfl, env, rfl⟩ := listEnabled_same hs
  have h₁ := h.undisturbed hu
  split
  · exact fun u' hu' => h₁.undisturbed hu'
  · rename_i feeds hfeeds
    refine Prog.Guards.ask_bind fun u₃ n u₄ hu₃ hs₄ => ?_
    refine ⟨delivers_of trivial, pollFeeds_polls p ?_⟩
    have h₃ := h₁.undisturbed hu₃
    have hfresh : ∀ f ∈ feeds, Fresh u₃ f := by
      intro f hf
      obtain ⟨row, hrow, hread⟩ := FeedTable.listEnabled_reads hfeeds f hf
      exact (h₁.1.fresh hrow hread).undisturbed hu₃
    refine ⟨h₃.1.clock hs₄, ?_, fun f hf => (hfresh f hf).clock hs₄, fun f _ => shown_of_clock hs₄ f,
      FeedTable.listEnabled_ascend hfeeds⟩
    rw [hs₄.2]
    exact h₃.2

theorem run_polls (p : Poller) (rounds : Nat) (h : Idle u) : Polls (fun _ => Idle) (run p rounds) u := by
  induction rounds generalizing u with
  | zero => exact fun u' hu => h.undisturbed hu
  | succ rounds ih =>
    refine Prog.Guards.ask_bind fun u₁ b u₂ hu hs => ?_
    refine ⟨delivers_of trivial, ?_⟩
    cases cancelled_same hs
    have h₁ := h.undisturbed hu
    cases b with
    | true => exact fun u' hu' => h₁.undisturbed hu'
    | false =>
      refine (pollOnce_polls p h₁).bind Undisturbed.refl fun _ u₂ h₂ => ?_
      refine Prog.Guards.ask_bind fun u₃ b u₄ hu₃ hs₄ => ?_
      refine ⟨delivers_of trivial, ?_⟩
      cases sleep_same hs₄
      have h₃ := h₂.undisturbed hu₃
      cases b with
      | true => exact fun u' hu' => h₃.undisturbed hu'
      | false => exact ih h₃

/-! ### The others leave it alone -/

/-- The calls of the other requests. -/
def RssCall.Quiet : RssCall → Prop
  | .onNewEntry .. | .updateState .. | .now => False
  | c => c.Proper

theorem undisturbed_of_eq {t t' : FeedTable} {L : Ledger} (h : t' = t) : Undisturbed (t, L) (t', L) := by
  subst h
  exact .refl _

theorem undisturbed_of_quiet {c : RssCall} {r : c.Answer} (hc : c.Quiet) (hs : ServesNoting u c r u') :
    Undisturbed u u' := by
  obtain ⟨t, L⟩ := u
  obtain ⟨t', L'⟩ := u'
  obtain ⟨hserves, rfl⟩ := hs
  cases hserves with
  | save env feed =>
    rcases save_new env t hc with ⟨-, hsame⟩ | ⟨saved, row, -, -, hid, hseq, hrows⟩
    · exact undisturbed_of_eq hsame
    · refine ⟨hseq ▸ Nat.le_succ _, fun row' hrow' hle => ?_, rfl⟩
      rw [hrows, List.mem_append, List.mem_singleton] at hrow'
      rcases hrow' with hrow' | rfl
      · exact hrow'
      · dsimp only at hle
        omega
  | remove env feedId =>
    obtain ⟨hseq, ⟨-, hrows⟩ | ⟨-, hrows⟩⟩ := t.remove_cases env feedId
    · refine ⟨hseq.ge, fun row hrow _ => ?_, rfl⟩
      rwa [hrows] at hrow
    · refine ⟨hseq.ge, fun row hrow _ => ?_, rfl⟩
      rw [hrows] at hrow
      exact (List.mem_filter.1 hrow).1
  | listEnabled | find | get | cancelled | sleep => exact .refl _
  | updateState | onNewEntry | now => exact hc.elim

theorem prog_quiet (p : Poller) {request : RssRequest} (hpoll : ∀ rounds, request ≠ .poll rounds) :
    (request.prog p).Only RssCall.Quiet := by
  cases request with
  | add feed =>
    refine Prog.Only.bind ?_ fun _ => .pure _
    unfold add
    split_ifs
    · exact .pure _
    · exact .pure _
    · exact .ask_bind (show RssCall.Quiet _ from rfl) fun _ => .pure _
  | listForChat chat =>
    refine Prog.Only.bind ?_ fun _ => .pure _
    exact .ask_bind (show RssCall.Quiet _ from trivial) fun _ => .pure _
  | remove feedId user chat =>
    refine Prog.Only.bind ?_ fun _ => .pure _
    refine .ask_bind (show RssCall.Quiet _ from trivial) fun loaded => ?_
    split
    · exact .pure _
    · exact .pure _
    · split_ifs
      · exact .pure _
      · exact .ask (show RssCall.Quiet _ from trivial)
  | poll rounds => exact absurd rfl (hpoll rounds)

theorem delivers_of_quiet {c : RssCall} {r : c.Answer} (hc : c.Quiet) : Delivers u c r u' := by
  refine ⟨fun feed entry h => ?_, fun feedId guid at_ h => ?_⟩
  · subst h
    exact hc.elim
  · subst h
    exact hc.elim

/-! ### Whole runs -/

variable {ι : Type} [DecidableEq ι] {p : Poller} {requests : ι → RssRequest} {i₀ : ι} {t t' : FeedTable}
  {log : List (ι × Σ c : RssCall, c.Answer)}

def Relies (i₀ i : ι) : Books → Books → Prop := if i = i₀ then Undisturbed else fun _ _ => True

/-- The poller `i₀` delivers, and the others are quiet. -/
def Guarantees (i₀ i : ι) (u : Books) (c : RssCall) (r : c.Answer) (u' : Books) : Prop :=
  if i = i₀ then Delivers u c r u' else c.Quiet

theorem prog_guards (hone : ∀ i, i ≠ i₀ → ∀ rounds, requests i ≠ .poll rounds) (h : Idle u) (i : ι) :
    ((requests i).prog p).Guards ServesNoting (Relies i₀ i) (Guarantees i₀ i) (fun _ _ => True) u := by
  by_cases hpoll : ∀ rounds, requests i ≠ .poll rounds
  · refine (prog_quiet p hpoll).guards fun s c r s' hc _ => ?_
    unfold Guarantees
    split_ifs
    · exact delivers_of_quiet hc
    · exact hc
  · push Not at hpoll
    obtain ⟨rounds, hpoll⟩ := hpoll
    have hi : i = i₀ := by
      by_contra hne
      exact hone i hne rounds hpoll
    subst hi
    have hrely : Relies i i = Undisturbed := if_pos rfl
    rw [hpoll, hrely]
    have hdelivers : ((RssRequest.poll rounds).prog p).Guards ServesNoting Undisturbed Delivers
        (fun _ _ => True) u :=
      (run_polls p rounds h).bind Undisturbed.refl fun _ _ _ => fun _ _ => trivial
    refine hdelivers.mono (fun _ _ _ _ _ hG => ?_) fun _ _ _ => trivial
    unfold Guarantees
    rwa [if_pos rfl]

/-- The ledger after the calls of a log. -/
def Ledger.after (L : Ledger) (log : List (ι × Σ c : RssCall, c.Answer)) : Ledger :=
  log.foldl (fun L e => L.note e.2.1 e.2.2) L

def Kept (i₀ i : ι) (u : Books) (c : RssCall) (r : c.Answer) (u' : Books) : Prop :=
  ServesNoting u c r u' ∧ Guarantees i₀ i u c r u'

theorem Interleaved.kept (h : Interleaved p requests t log t')
    (hone : ∀ i, i ≠ i₀ → ∀ rounds, requests i ≠ .poll rounds) :
    ∃ left, Prog.Parallel (Kept i₀) (t, {}) (fun i => (requests i).prog p) log
      (t', Ledger.after {} log) left := by
  obtain ⟨left, h⟩ := h
  have hidle : Idle (t, {}) := ⟨⟨fun x hx => absurd hx List.not_mem_nil, fun _ _ hm => by cases hm⟩, rfl⟩
  refine ⟨left, ((h.ghost (fun (L : Ledger) _ c r => L.note c r) {}).guaranteed (R := Relies i₀) (fun i u => ?_)
    (fun i u₁ u₂ u₃ h₁ h₂ => ?_) (fun i j hne u c r u' hs hG => ?_)
    fun i => prog_guards hone hidle i).1⟩
  · unfold Relies
    split_ifs
    · exact .refl u
    · trivial
  · unfold Relies at *
    split_ifs at *
    · exact h₁.trans h₂
    · trivial
  · unfold Relies
    split_ifs with hi
    · unfold Guarantees at hG
      rw [if_neg (hi ▸ hne)] at hG
      exact undisturbed_of_quiet hG hs
    · trivial

/-! ### Two rounds of a poller -/

/-- A feed that has been polled up to `mark`, with its table. -/
def markedFeed (mark : String) (checked : Option Time) : RssFeed :=
  { feedId := 1, title := "t", url := "u", chat := ⟨1⟩, lastGuid := mark, lastCheckedAt := checked }

def markedTable (mark : String) (checked : Option Time) : FeedTable where
  rows := [feedRow (markedFeed mark checked)]
  seq := 1
  unique := List.pairwise_singleton ..
  below := by simp [feedRow, markedFeed]

theorem markedTable_listEnabled (mark : String) (checked : Option Time)
    (h : ∀ c, checked = some c → Time.Fits c) : Serves (markedTable mark checked) .listEnabled
      (.ok [markedFeed mark (checked.map Time.floorMs)]) (markedTable mark checked) := by
  have hrows : (markedTable mark checked).enabledRows = [feedRow (markedFeed mark checked)] := by
    simp [FeedTable.enabledRows, markedTable, feedRow, markedFeed]
  have hcreated : Time.Fits (markedFeed mark checked).createdAt := by
    show Time.Fits 0
    decide
  have hlist : (markedTable mark checked).listEnabled {} =
      .ok [markedFeed mark (checked.map Time.floorMs)] := by
    unfold FeedTable.listEnabled CallEnv.call
    rw [hrows]
    dsimp only
    rw [List.mapM_cons, mapRow_feedRow hcreated h]
    rfl
  rw [← hlist]
  exact .listEnabled _ {}

/-- What a round calls when the document lists `guid` only. -/
def roundOf (mark guid : String) (checked : Option Time) (now : Time) : List (Unit × Σ c : RssCall, c.Answer) :=
  [((), ⟨.cancelled, false⟩), ((), ⟨.listEnabled, .ok [markedFeed mark checked]⟩), ((), ⟨.now, now⟩),
    ((), ⟨.cancelled, false⟩), ((), ⟨.get "u", (Poller.listing [guid]).fetch⟩),
    ((), ⟨.onNewEntry (markedFeed mark checked) { guid := guid, title := guid }, none⟩),
    ((), ⟨.now, now⟩), ((), ⟨.updateState 1 guid now, .ok ()⟩), ((), ⟨.sleep, false⟩)]

/-- Six minutes, in ticks. -/
def later : Time := 360000000000

theorem two_rounds : Interleaved ⟨fun _ _ => some true⟩ (fun _ : Unit => .poll 2) (markedTable "" none)
    (roundOf "" "a" none 0 ++ roundOf "a" "b" (some 0) later) (markedTable "b" (some later)) := by
  have h₁ := (Prog.Parallel.nil (S := fun _ => Serves) (markedTable "" none) fun _ : Unit =>
    RssRequest.prog ⟨fun _ _ => some true⟩ (.poll 2)).snoc (i := ()) rfl (.cancelled _ false)
  have h₂ := h₁.snoc (i := ()) rfl (markedTable_listEnabled _ _ (by simp))
  have h₃ := h₂.snoc (i := ()) rfl (.now _ 0 (by decide))
  have h₄ := h₃.snoc (i := ()) rfl (.cancelled _ false)
  have h₅ := h₄.snoc (i := ()) rfl (.get _ _ (Poller.listing ["a"]).fetch)
  have h₆ := h₅.snoc (i := ()) rfl (.onNewEntry _ _ _ none)
  have h₇ := h₆.snoc (i := ()) rfl (.now _ 0 (by decide))
  have h₈ := h₇.snoc (i := ()) rfl (.updateState _ {} 1 "a" 0)
  have h₉ := h₈.snoc (i := ()) rfl (.sleep _ false)
  have h₁₀ := h₉.snoc (i := ()) rfl (.cancelled _ false)
  have h₁₁ := h₁₀.snoc (i := ()) rfl
    (markedTable_listEnabled "a" (some 0) fun c hc => by cases hc; decide)
  have h₁₂ := h₁₁.snoc (i := ()) rfl (.now _ later (by decide))
  have h₁₃ := h₁₂.snoc (i := ()) rfl (.cancelled _ false)
  have h₁₄ := h₁₃.snoc (i := ()) rfl (.get _ _ (Poller.listing ["b"]).fetch)
  have h₁₅ := h₁₄.snoc (i := ()) rfl (.onNewEntry _ _ _ none)
  have h₁₆ := h₁₅.snoc (i := ()) rfl (.now _ later (by decide))
  have h₁₇ := h₁₆.snoc (i := ()) rfl (.updateState _ {} 1 "b" later)
  exact ⟨_, h₁₇.snoc (i := ()) rfl (.sleep _ false)⟩

/-! ### Handed over once -/

section Log

variable {L : Ledger} {x : Int × String}

omit [DecidableEq ι] in
theorem mem_settled_after (h : x ∈ L.settled) (log : List (ι × Σ c : RssCall, c.Answer)) :
    x ∈ (L.after log).settled := by
  induction log generalizing L with
  | nil => exact h
  | cons e log ih =>
    obtain ⟨i, c, r⟩ := e
    refine ih (L := L.note c r) ?_
    cases c with
    | updateState =>
      cases r with
      | error err => exact h
      | ok => exact List.mem_append_right _ h
    | save | listEnabled | find | remove | get | onNewEntry | now | cancelled | sleep => exact h

omit [DecidableEq ι] in
/-- What is handed over waits for the next `update_state`. -/
theorem mem_pending_after (h : x ∈ L.pending)
    (hno : ∀ e ∈ log, ∀ feedId guid at_, e.2.1 ≠ .updateState feedId guid at_) :
    x ∈ (L.after log).pending := by
  induction log generalizing L with
  | nil => exact h
  | cons e log ih =>
    obtain ⟨i, c, r⟩ := e
    refine ih (L := L.note c r) ?_ fun e he => hno e (List.mem_cons_of_mem _ he)
    cases c with
    | updateState feedId guid at_ => exact absurd rfl (hno _ List.mem_cons_self feedId guid at_)
    | onNewEntry => exact List.mem_cons_of_mem _ h
    | save | listEnabled | find | remove | get | now | cancelled | sleep => exact h

omit [DecidableEq ι] in
theorem after_append (L : Ledger) (log log' : List (ι × Σ c : RssCall, c.Answer)) :
    L.after (log ++ log') = (L.after log).after log' :=
  List.foldl_append

/-- The ledger of a run is what its log says. -/
theorem ledger_of_run {u u' : Books} {progs left : ι → RssProg RssOutcome}
    (h : Prog.Parallel (Kept i₀) u progs log u' left) : u'.2 = u.2.after log := by
  induction h with
  | nil => rfl
  | @snoc u₁ u₂ _ p' log i c k r _ _ hs ih =>
    rw [after_append, ← ih]
    exact hs.1.2

omit [DecidableEq ι] in
/-- What was handed over before an `update_state` that succeeds is settled. -/
theorem mem_settled_of_stored {l₂ l₃ : List (ι × Σ c : RssCall, c.Answer)} {i j : ι} {what : Option String}
    (hnext : ∀ e ∈ l₂, ∀ feedId guid at_, e.2.1 ≠ .updateState feedId guid at_) (feedId : Int) :
    (feed.feedId, entry.guid) ∈ (L.after ((i, ⟨.onNewEntry feed entry, what⟩) :: l₂ ++
      (j, ⟨.updateState feedId newest at_, .ok ()⟩) :: l₃)).settled := by
  have hpending : (feed.feedId, entry.guid) ∈
      (L.after ((i, ⟨.onNewEntry feed entry, what⟩) :: l₂)).pending :=
    mem_pending_after (L := L.note (.onNewEntry feed entry) what) List.mem_cons_self hnext
  rw [after_append]
  exact mem_settled_after (L := (L.after _).note (.updateState feedId newest at_) (.ok ()))
    (List.mem_append_left _ hpending) l₃

end Log

/-- In a run with one poller, an entry whose hand-over was followed by a successful `update_state` is
never handed over again, whatever is added, listed or removed meanwhile. -/
theorem never_handed_again (p : Poller) (requests : ι → RssRequest) (i₀ : ι) (t t' : FeedTable)
    (log l₁ l₂ l₃ l₄ : List (ι × Σ c : RssCall, c.Answer)) (i j k : ι) (feed feed' : RssFeed)
    (entry entry' : RssEntry) (what what' : Option String) (feedId : Int) (newest : String) (at_ : Time)
    (hone : ∀ i, i ≠ i₀ → ∀ rounds, requests i ≠ .poll rounds) (h : Interleaved p requests t log t')
    (hlog : log = (l₁ ++ ((i, ⟨.onNewEntry feed entry, what⟩) :: l₂ ++
      (j, ⟨.updateState feedId newest at_, .ok ()⟩) :: l₃)) ++ (k, ⟨.onNewEntry feed' entry', what'⟩) :: l₄)
    (hnext : ∀ e ∈ l₂, ∀ feedId guid at_, e.2.1 ≠ .updateState feedId guid at_)
    (hsame : feed'.feedId = feed.feedId) (hguid : entry.guid ≠ "") : entry'.guid ≠ entry.guid := by
  intro heq
  obtain ⟨left, hrun⟩ := h.kept hone
  subst hlog
  obtain ⟨u₁, u₂, p₁, p₂, hrun₁, ⟨-, hcall⟩, -⟩ := hrun.call_inv
  have hsettled : (feed.feedId, entry.guid) ∈ u₁.2.settled := by
    rw [ledger_of_run hrun₁, after_append]
    exact mem_settled_of_stored hnext feedId
  unfold Guarantees at hcall
  split_ifs at hcall
  · refine hcall.1 feed' entry' rfl (heq ▸ hguid) ?_
    rwa [hsame, heq]
  · exact hcall.elim

/-- The second round hands over another entry. -/
theorem another_handed : ({ guid := "b", title := "b" } : RssEntry).guid ≠
    ({ guid := "a", title := "a" } : RssEntry).guid :=
  never_handed_again ⟨fun _ _ => some true⟩ (fun _ => .poll 2) () _ _
    (roundOf "" "a" none 0 ++ roundOf "a" "b" (some 0) later) ((roundOf "" "a" none 0).take 5)
    [((), ⟨.now, (0 : Int)⟩)] (((), ⟨.sleep, false⟩) :: (roundOf "a" "b" (some 0) later).take 5)
    ((roundOf "a" "b" (some 0) later).drop 6) () () () (markedFeed "" none) (markedFeed "a" (some 0))
    { guid := "a", title := "a" } { guid := "b", title := "b" } none none 1 "a" 0
    (fun i hi => absurd rfl hi) two_rounds rfl (by simp) rfl (by decide)

/-! ### Five minutes apart -/

omit [DecidableEq ι] in
/-- After a feed was marked as polled, the ledger has the time and what the clock shows since. -/
theorem marks_after {L : Ledger} {feedId : Int} {m : Time × List Time} (h : L.marks feedId = some m)
    (hno : ∀ e ∈ log, ∀ guid at_, e.2 ≠ ⟨.updateState feedId guid at_, .ok ()⟩) :
    ∃ ns, (L.after log).marks feedId = some (m.1, ns) ∧
      ∀ n ∈ ns, n ∈ m.2 ∨ ∃ i, (i, (⟨.now, n⟩ : Σ c : RssCall, c.Answer)) ∈ log := by
  induction log generalizing L m with
  | nil => exact ⟨m.2, h, fun n hn => .inl hn⟩
  | cons e log ih =>
    obtain ⟨i, c, r⟩ := e
    have hrest : ∀ e ∈ log, ∀ guid at_, e.2 ≠ ⟨.updateState feedId guid at_, .ok ()⟩ :=
      fun e he => hno e (List.mem_cons_of_mem _ he)
    have hsame : (L.note c r).marks feedId = some m → ∃ ns, (L.after ((i, ⟨c, r⟩) :: log)).marks feedId =
        some (m.1, ns) ∧ ∀ n ∈ ns, n ∈ m.2 ∨
          ∃ j, (j, (⟨.now, n⟩ : Σ c : RssCall, c.Answer)) ∈ (i, ⟨c, r⟩) :: log := by
      intro hm
      obtain ⟨ns, hns, hmem⟩ := ih hm hrest
      exact ⟨ns, hns, fun n hn => (hmem n hn).imp_right fun ⟨j, hj⟩ => ⟨j, List.mem_cons_of_mem _ hj⟩⟩
    cases c with
    | updateState feedId' guid at_ =>
      cases r with
      | error err => exact hsame h
      | ok =>
        refine hsame ((Function.update_of_ne ?_ ..).trans h)
        rintro rfl
        exact hno _ List.mem_cons_self guid at_ rfl
    | now =>
      have hm : (L.note .now r).marks feedId = some (m.1, r :: m.2) := by
        show (L.marks feedId).map _ = _
        rw [h]
        rfl
      obtain ⟨ns, hns, hmem⟩ := ih hm hrest
      refine ⟨ns, hns, fun n hn => ?_⟩
      rcases hmem n hn with hn | ⟨j, hj⟩
      · rcases List.mem_cons.1 hn with rfl | hn
        · exact .inr ⟨i, List.mem_cons_self⟩
        · exact .inl hn
      · exact .inr ⟨j, List.mem_cons_of_mem _ hj⟩
    | save | listEnabled | find | remove | get | onNewEntry | cancelled | sleep => exact hsame h

theorem sub_lt_floorMs (t : Int) : t - ticksPerMs < Time.floorMs t := by
  show t - ticksPerMs < t / ticksPerMs * ticksPerMs
  unfold ticksPerMs
  omega

/-- In a run with one poller, between two successful polls of a feed the clock has shown a time that is
five minutes after the first, up to the milliseconds that the table does not store. -/
theorem polls_apart (p : Poller) (requests : ι → RssRequest) (i₀ : ι) (t t' : FeedTable)
    (log l₁ l₂ l₃ : List (ι × Σ c : RssCall, c.Answer)) (i j : ι) (feedId : Int) (guid guid' : String)
    (at_ at' : Time) (r : Result Unit) (hone : ∀ i, i ≠ i₀ → ∀ rounds, requests i ≠ .poll rounds)
    (h : Interleaved p requests t log t')
    (hlog : log = (l₁ ++ (i, ⟨.updateState feedId guid at_, .ok ()⟩) :: l₂) ++
      (j, ⟨.updateState feedId guid' at', r⟩) :: l₃)
    (hnext : ∀ e ∈ l₂, ∀ guid at_, e.2 ≠ ⟨.updateState feedId guid at_, .ok ()⟩) :
    ∃ k now, (k, (⟨.now, now⟩ : Σ c : RssCall, c.Answer)) ∈ l₂ ∧
      at_ - ticksPerMs + kDefaultInterval < now := by
  obtain ⟨left, hrun⟩ := h.kept hone
  subst hlog
  obtain ⟨u₁, u₂, p₁, p₂, hrun₁, ⟨-, hcall⟩, -⟩ := hrun.call_inv
  have hmark : (((({} : Ledger).after l₁).note (.updateState feedId guid at_) (.ok ())).marks feedId) =
      some (at_, []) := Function.update_self ..
  obtain ⟨ns, hns, hmem⟩ := marks_after hmark hnext
  have hledger : u₁.2.marks feedId = some (at_, ns) := by
    rw [ledger_of_run hrun₁, after_append]
    exact hns
  unfold Guarantees at hcall
  split_ifs at hcall
  · obtain ⟨now, hnow, hle⟩ := hcall.2 feedId guid' at' rfl _ hledger
    rcases hmem now hnow with hnil | ⟨k, hk⟩
    · exact absurd hnil List.not_mem_nil
    · exact ⟨k, now, hk, lt_of_lt_of_le (Int.add_lt_add_right (sub_lt_floorMs at_) _) hle⟩
  · exact hcall.elim

theorem rounds_apart : ∃ k now, (k, (⟨.now, now⟩ : Σ c : RssCall, c.Answer)) ∈
    ((), ⟨.sleep, false⟩) :: (roundOf "a" "b" (some 0) later).take 7 ∧
      0 - ticksPerMs + kDefaultInterval < now :=
  polls_apart ⟨fun _ _ => some true⟩ (fun _ : Unit => .poll 2) () _ _
    (roundOf "" "a" none 0 ++ roundOf "a" "b" (some 0) later) ((roundOf "" "a" none 0).take 7)
    (((), ⟨.sleep, false⟩) :: (roundOf "a" "b" (some 0) later).take 7) [((), ⟨.sleep, false⟩)] () () 1 "a" "b"
    0 later (.ok ()) (fun i hi => absurd rfl hi) two_rounds rfl (by simp [roundOf])

end Cmlb.Rss
