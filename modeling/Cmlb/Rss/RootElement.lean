import Cmlb.Rss.DocumentParser

/-!
# The format of a document and its root element

`parse` takes a document for RSS when `<rss` stands anywhere in it, also in a comment, a CDATA section
or a text, and only then looks for `<feed`. So the format is that of the root element exactly where no
feed mentions `<rss` (`format_of_root_iff`).
-/

namespace Cmlb.RssDocumentParser

open Regex (Pattern lits)

/-- `tag`, in any letter case. -/
def Spelled (tag : String) (v : List Char) : Prop := v.map Char.toLower = tag.toList

/-- White space and comments. -/
inductive Misc : List Char → Prop
  | nil : Misc []
  | blank {c : Char} {s : List Char} (hc : isBlank c = true) (h : Misc s) : Misc (c :: s)
  | comment {body s : List Char} (hbody : ¬"-->".toList <:+: body) (h : Misc s) :
      Misc ("<!--".toList ++ body ++ "-->".toList ++ s)

/-- An XML declaration, or nothing. -/
inductive Declaration : List Char → Prop
  | absent : Declaration []
  | present {c : Char} {body : List Char} (hc : isBlank c = true) (hbody : ¬"?>".toList <:+: c :: body) :
      Declaration ("<?xml".toList ++ c :: body ++ "?>".toList)

/-- The first element of the document, behind an XML declaration and comments. -/
def Root (tag : String) (doc : List Char) : Prop :=
  ∃ decl misc v c rest, doc = decl ++ misc ++ '<' :: v ++ c :: rest ∧ Declaration decl ∧ Misc misc ∧
    Spelled tag v ∧ (isBlank c = true ∨ c = '>' ∨ c = '/')

/-- Somewhere in the document stands `<tag`, and the word ends there. -/
def Mentions (tag : String) (doc : List Char) : Prop :=
  ∃ u v w, doc = u ++ '<' :: v ++ w ∧ Spelled tag v ∧ ∀ c, w.head? = some c → wordChar c = false

variable {tag : String} {doc u v w : List Char} {prev : Option Char}

theorem spelled_iff (hlow : tag.toList.map Char.toLower = tag.toList) :
    List.Forall₂ (fun c d => icase c d = true) tag.toList v ↔ Spelled tag v := by
  calc List.Forall₂ (fun c d => icase c d = true) tag.toList v
      ↔ List.Forall₂ (fun c d => c.toLower = d.toLower) tag.toList v := by simp only [icase_iff]
    _ ↔ List.Forall₂ Eq (tag.toList.map Char.toLower) (v.map Char.toLower) := by
        rw [List.forall₂_map_left_iff, List.forall₂_map_right_iff]
    _ ↔ Spelled tag v := by rw [List.forall₂_eq_eq_eq, hlow, Spelled, eq_comm]

theorem forall₂_open_iff (hlow : tag.toList.map Char.toLower = tag.toList) {x : List Char} :
    List.Forall₂ (fun c d => icase c d = true) ('<' :: tag.toList) x ↔
      ∃ v, x = '<' :: v ∧ Spelled tag v := by
  rw [List.forall₂_cons_left_iff]
  constructor
  · rintro ⟨d, v, hd, hv, rfl⟩
    rw [(icase_iff_of_not_isAlpha (by decide)).1 hd]
    exact ⟨v, rfl, (spelled_iff hlow).1 hv⟩
  · rintro ⟨v, rfl, hv⟩
    exact ⟨'<', v, icase_self '<', (spelled_iff hlow).2 hv, rfl⟩

/-- A word that ends with a letter does so in any letter case. -/
theorem Spelled.wordChar_last {c : Char} (h : Spelled tag (v ++ [c]))
    (hlast : ∀ d, tag.toList.getLast? = some d → d.isAlpha = true) : wordChar c = true := by
  have halpha : c.toLower.isAlpha = true := by
    refine hlast _ ?_
    rw [← h, List.map_append]
    exact List.getLast?_concat
  rw [Char.isAlpha_toLower_eq_isAlpha] at halpha
  simp [wordChar, Char.isAlphanum, halpha]

/-- Where `<tag` stands, the pattern matches unless the word goes on. -/
theorem rootRegex_matchAt (hlow : tag.toList.map Char.toLower = tag.toList)
    (hlast : ∀ d, tag.toList.getLast? = some d → d.isAlpha = true) (hne : tag.toList ≠ [])
    (hv : Spelled tag v) (prev : Option Char) :
    ((rootRegex tag).matchAt prev ('<' :: v ++ w)).isSome = !w.head?.any wordChar := by
  have hbefore : (rootRegex tag).before = lits icase ('<' :: tag.toList) ++ [] :=
    (List.append_nil _).symm
  rw [Pattern.matchAt, hbefore, Regex.runAll_lits ((forall₂_open_iff hlow).2 ⟨v, rfl, hv⟩)]
  cases v using List.reverseRecOn with
  | nil => exact absurd hv.symm hne
  | append_singleton v c =>
    rw [← List.cons_append, List.getLast?_concat, Option.isSome_map, Option.isSome_map]
    show (Option.map _ (if (some c).any wordChar != w.head?.any wordChar then _ else none)).isSome = _
    rw [Option.any_some, hv.wordChar_last hlast, Bool.true_bne]
    cases w.head?.any wordChar <;> rfl

theorem rootRegex_search_iff (hlow : tag.toList.map Char.toLower = tag.toList)
    (hlast : ∀ d, tag.toList.getLast? = some d → d.isAlpha = true) (hne : tag.toList ≠ []) :
    ((rootRegex tag).search prev doc).isSome = true ↔ Mentions tag doc := by
  constructor
  · contrapose
    intro hno
    rw [Bool.not_eq_true, Option.isSome_eq_false_iff, Option.isNone_iff_eq_none]
    refine Pattern.search_eq_none (fun u s hs q => ?_) prev
    cases hstarts : Regex.starts icase ('<' :: tag.toList) s with
    | false => exact Pattern.matchAt_none (List.append_nil _).symm hstarts q
    | true =>
      obtain ⟨x, w, rfl, hx⟩ := Regex.starts_iff.1 hstarts
      obtain ⟨v, rfl, hv⟩ := (forall₂_open_iff hlow).1 hx
      rw [← Option.isNone_iff_eq_none, ← Option.isSome_eq_false_iff,
        rootRegex_matchAt hlow hlast hne hv, Bool.not_eq_false']
      by_contra hword
      refine hno ⟨u, v, w, by rw [hs, List.append_assoc], hv, fun c hc => ?_⟩
      rwa [hc, Option.any_some, Bool.not_eq_true] at hword
  · rintro ⟨u, v, w, rfl, hv, hw⟩
    rw [List.append_assoc]
    refine Pattern.search_isSome (fun q => ?_) u prev
    rw [rootRegex_matchAt hlow hlast hne hv]
    cases hhead : w.head? with
    | none => rfl
    | some c => rw [Option.any_some, hw c hhead, Bool.not_false]

theorem rssRootRegex_search_iff : (rssRootRegex.search none doc).isSome = true ↔ Mentions "rss" doc :=
  rootRegex_search_iff rfl (by rintro d ⟨⟩; rfl) (by decide)

theorem atomRootRegex_search_iff :
    (atomRootRegex.search none doc).isSome = true ↔ Mentions "feed" doc :=
  rootRegex_search_iff rfl (by rintro d ⟨⟩; rfl) (by decide)

/-- What ends the name of an element is no character of a word. -/
theorem wordChar_of_delimiter {c : Char} (h : isBlank c = true ∨ c = '>' ∨ c = '/') :
    wordChar c = false := by
  simp only [isBlank, Bool.or_eq_true, beq_iff_eq] at h
  rcases h with (((rfl | rfl) | rfl) | rfl) | rfl | rfl
  all_goals decide

theorem Root.mentions (h : Root tag doc) : Mentions tag doc := by
  obtain ⟨decl, misc, v, c, rest, rfl, -, -, hv, hc⟩ := h
  refine ⟨decl ++ misc, v, c :: rest, rfl, hv, fun d hd => ?_⟩
  rw [← Option.some.inj hd]
  exact wordChar_of_delimiter hc

theorem Mentions.ne_nil (h : Mentions tag doc) : doc ≠ [] := by
  obtain ⟨u, v, w, rfl, -⟩ := h
  simp

/-! ### What `parse` does -/

variable {L : TimeLib}

theorem parse_of_rss (h : Mentions "rss" doc) : parse L doc = parseRss L doc := by
  rw [parse, if_neg (by simpa using h.ne_nil), if_pos (rssRootRegex_search_iff.2 h)]

theorem parse_of_feed (hno : ¬Mentions "rss" doc) (h : Mentions "feed" doc) :
    parse L doc = parseAtom L doc := by
  rw [parse, if_neg (by simpa using h.ne_nil), if_neg (mt rssRootRegex_search_iff.1 hno),
    if_pos (atomRootRegex_search_iff.2 h)]

/-- The format is that of the root element exactly where a feed does not mention `<rss`, unless the
two formats make the same of it. -/
theorem format_of_root_iff (L : TimeLib) (doc : List Char) :
    (Root "feed" doc → parse L doc = parseAtom L doc) ∧
        (Root "rss" doc → parse L doc = parseRss L doc) ↔
      (Root "feed" doc → ¬Mentions "rss" doc ∨ parseRss L doc = parseAtom L doc) := by
  constructor
  · rintro ⟨hfeed, -⟩ hroot
    by_cases hrss : Mentions "rss" doc
    · exact .inr ((parse_of_rss hrss).symm.trans (hfeed hroot))
    · exact .inl hrss
  · intro h
    refine ⟨fun hroot => ?_, fun hroot => parse_of_rss hroot.mentions⟩
    rcases h hroot with hrss | hsame
    · exact parse_of_feed hrss hroot.mentions
    · by_cases hrss : Mentions "rss" doc
      · exact (parse_of_rss hrss).trans hsame
      · exact parse_of_feed hrss hroot.mentions

/-- No text is a time. -/
def timeless : TimeLib := ⟨fun _ _ => none⟩

/-- A feed whose only entry writes of RSS. -/
def aboutRss : List Char :=
  "<feed><entry><title>RSS</title><summary><![CDATA[It begins with <rss>]]></summary></entry></feed>".toList

def entryCount : Result Rss.RssDocument → ℕ
  | .ok d => d.entries.length
  | .error _ => 0

theorem aboutRss_root : Root "feed" aboutRss :=
  ⟨[], [], "feed".toList, '>', _, rfl, .absent, .nil, rfl, .inr (.inl rfl)⟩

/-- The entry is lost, since the feed is read as RSS. -/
theorem aboutRss_misread :
    Root "feed" aboutRss ∧ entryCount (parseAtom timeless aboutRss) = 1 ∧
      entryCount (parse timeless aboutRss) = 0 ∧
      ¬(Root "feed" aboutRss → parse timeless aboutRss = parseAtom timeless aboutRss) := by
  have hatom : entryCount (parseAtom timeless aboutRss) = 1 := by decide +kernel
  have hparse : entryCount (parse timeless aboutRss) = 0 := by decide +kernel
  refine ⟨aboutRss_root, hatom, hparse, fun h => ?_⟩
  rw [h aboutRss_root, hatom] at hparse
  cases hparse

end Cmlb.RssDocumentParser
