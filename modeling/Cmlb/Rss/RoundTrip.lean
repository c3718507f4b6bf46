import Cmlb.Rss.RootElement

/-!
# RSS documents written and read back

A document is written as RSS 2.0: the fields of an item in any order, each plain or in a CDATA section,
with white space around texts and elements. `parse` reads the items back (`parse_writtenDocument`): a
search for a tag passes over whatever does not begin with it (`Free`), and that is all before the
element looked for and all inside it.
-/

namespace Cmlb.RssDocumentParser

open Regex (Pattern lits starts Free free_append free_of_head)
open Rss (RssEntry RssDocument)
open Trimming (Bare trim trim_pad)

/-! ### Documents -/

/-- White space, as XML has it. -/
structure Blank where
  chars : List Char
  blank : ∀ c ∈ chars, isBlank c = true

/-- A text without angle brackets, and without white space at its ends. -/
structure FieldText where
  chars : List Char
  noAngle : ∀ c ∈ chars, c ≠ '<' ∧ c ≠ '>'
  bare : Bare isBlank chars

inductive FieldTag
  | title
  | link
  | guid
  | description
deriving DecidableEq

def FieldTag.name : FieldTag → String
  | title => "title"
  | link => "link"
  | guid => "guid"
  | description => "description"

def startTag (tag : String) : List Char := '<' :: (tag.toList ++ ['>'])

def endTag (tag : String) : List Char := '<' :: '/' :: (tag.toList ++ ['>'])

def element (tag : String) (content : List Char) : List Char :=
  startTag tag ++ content ++ endTag tag

/-- A field as it is written. -/
structure Field where
  tag : FieldTag
  text : FieldText
  cdata : Bool
  indent : Blank
  before : Blank
  after : Blank

namespace Field

def wrapped (f : Field) : List Char :=
  if f.cdata then cdataOpen ++ f.text.chars ++ cdataClose else f.text.chars

def content (f : Field) : List Char := f.before.chars ++ f.wrapped ++ f.after.chars

def chars (f : Field) : List Char := f.indent.chars ++ element f.tag.name f.content

end Field

structure FeedItem where
  title : FieldText
  link : FieldText
  guid : FieldText
  description : FieldText

namespace FeedItem

/-- The fields that are written: an empty GUID is omitted. -/
def present (i : FeedItem) : List (FieldTag × FieldText) :=
  [(.title, i.title), (.link, i.link), (.description, i.description)] ++
    if i.guid.chars = [] then [] else [(.guid, i.guid)]

def text (i : FeedItem) : FieldTag → FieldText
  | .title => i.title
  | .link => i.link
  | .guid => i.guid
  | .description => i.description

theorem mem_present {i : FeedItem} {tag : FieldTag} {t : FieldText} :
    (tag, t) ∈ i.present ↔ t = i.text tag ∧ ¬(tag = .guid ∧ i.guid.chars = []) := by
  by_cases h : i.guid.chars = [] <;> cases tag <;> simp [present, text, h]

end FeedItem

/-- An item as it is written, with its fields in any order. -/
structure WrittenItem where
  item : FeedItem
  fields : List Field
  fields_perm : (fields.map fun f => (f.tag, f.text)).Perm item.present
  indent : Blank
  tail : Blank

namespace WrittenItem

def body (w : WrittenItem) : List Char := w.fields.flatMap Field.chars ++ w.tail.chars

def chars (w : WrittenItem) : List Char := w.indent.chars ++ element "item" w.body

end WrittenItem

/-- A document as it is written; the channel may have fields of its own before the items. -/
structure WrittenDocument where
  declaration : Bool
  beforeRss : Blank
  beforeChannel : Blank
  channel : List Field
  items : List WrittenItem
  afterItems : Blank
  afterChannel : Blank
  afterRss : Blank

namespace WrittenDocument

def declarationChars (d : WrittenDocument) : List Char :=
  if d.declaration then "<?xml version=\"1.0\" encoding=\"UTF-8\"?>".toList else []

/-- What stands before the items. -/
def header (d : WrittenDocument) : List Char :=
  d.declarationChars ++ d.beforeRss.chars ++ "<rss version=\"2.0\">".toList ++ d.beforeChannel.chars ++
    startTag "channel" ++ d.channel.flatMap Field.chars

/-- What stands behind the items. -/
def footer (d : WrittenDocument) : List Char :=
  d.afterItems.chars ++ endTag "channel" ++ d.afterChannel.chars ++ endTag "rss" ++ d.afterRss.chars

def chars (d : WrittenDocument) : List Char :=
  d.header ++ d.items.flatMap WrittenItem.chars ++ d.footer

end WrittenDocument

def Blank.empty : Blank := ⟨[], List.forall_mem_nil _⟩

/-- An item without white space or CDATA sections. -/
def FeedItem.compact (i : FeedItem) : WrittenItem where
  item := i
  fields := i.present.map fun x => ⟨x.1, x.2, false, .empty, .empty, .empty⟩
  fields_perm := by
    rw [List.map_map]
    exact .of_eq (List.map_id _)
  indent := .empty
  tail := .empty

/-- Any items can be written. -/
theorem exists_written (items : List FeedItem) : ∃ d : WrittenDocument, d.items.map (·.item) = items := by
  refine ⟨⟨true, .empty, .empty, [], items.map FeedItem.compact, .empty, .empty, .empty⟩, ?_⟩
  rw [List.map_map]
  exact List.map_id _

/-! ### What a search passes over -/

variable {tag : String} {w u body rest content : List Char} {a : Char} {prev : Option Char}

theorem Blank.free (b : Blank) (w : List Char) : Free icase ('<' :: w) b.chars := by
  refine free_of_head fun c hc => ?_
  rw [← Bool.not_eq_true, icase_iff_of_not_isAlpha (by decide)]
  rintro rfl
  exact absurd (b.blank '<' hc) (by decide)

theorem FieldText.free (t : FieldText) (w : List Char) : Free icase ('<' :: w) t.chars := by
  refine free_of_head fun c hc => ?_
  rw [← Bool.not_eq_true, icase_iff_of_not_isAlpha (by decide)]
  exact (t.noAngle c hc).1

/-- A stretch that begins with `<` has no other, and begins differently. -/
theorem free_tag (hu : ∀ c ∈ u, c ≠ '<') (h : ∀ t, starts icase w (u ++ t) = false) :
    Free icase ('<' :: w) ('<' :: u) := by
  refine ⟨h, free_of_head fun c hc => ?_⟩
  rw [← Bool.not_eq_true, icase_iff_of_not_isAlpha (by decide)]
  exact hu c hc

/-- The literal starts neither at the tag nor at its end. -/
structure Passes (w : List Char) (tag : String) : Prop where
  opening : ∀ t, starts icase w (tag.toList ++ t) = false
  closing : ∀ t, starts icase w ('/' :: tag.toList ++ t) = false
  name : ∀ c ∈ tag.toList, c ≠ '<'

theorem Passes.element (h : Passes w tag) (hcontent : Free icase ('<' :: w) content) :
    Free icase ('<' :: w) (element tag content) := by
  have hstart : Free icase ('<' :: w) (startTag tag) := by
    refine free_tag ?_ fun t => ?_
    · rw [List.forall_mem_append]
      exact ⟨h.name, by simp⟩
    · rw [List.append_assoc]
      exact h.opening _
  have hend : Free icase ('<' :: w) (endTag tag) := by
    refine free_tag ?_ fun t => ?_
    · rw [← List.cons_append, List.forall_mem_append, List.forall_mem_cons]
      exact ⟨⟨by decide, h.name⟩, by simp⟩
    · rw [← List.cons_append, List.append_assoc]
      exact h.closing _
  exact free_append (free_append hstart hcontent) hend

theorem free_cdataOpen (h : icase a '!' = false) : Free icase ('<' :: a :: w) cdataOpen := by
  have hopen : cdataOpen = '<' :: '!' :: "[CDATA[".toList := rfl
  rw [hopen]
  refine free_tag (by simp) fun t => ?_
  rw [List.cons_append, Regex.starts_cons, h, Bool.false_and]

theorem free_cdataClose (w : List Char) : Free icase ('<' :: w) cdataClose := by
  refine free_of_head fun c hc => ?_
  simp [cdataClose] at hc
  rcases hc with rfl | rfl | rfl <;> rfl

theorem Field.free_content (f : Field) (h : icase a '!' = false) :
    Free icase ('<' :: a :: w) f.content := by
  refine free_append (free_append (f.before.free _) ?_) (f.after.free _)
  rw [wrapped]
  split_ifs
  · exact free_append (free_append (free_cdataOpen h) (f.text.free _)) (free_cdataClose _)
  · exact f.text.free _

theorem Field.free_chars (f : Field) (h : icase a '!' = false) (hpass : Passes (a :: w) f.tag.name) :
    Free icase ('<' :: a :: w) f.chars :=
  free_append (f.indent.free _) (hpass.element (f.free_content h))

theorem free_fields (h : icase a '!' = false) {fs : List Field}
    (hpass : ∀ f ∈ fs, Passes (a :: w) f.tag.name) :
    Free icase ('<' :: a :: w) (fs.flatMap Field.chars) := by
  induction fs with
  | nil => trivial
  | cons f fs ih =>
    rw [List.forall_mem_cons] at hpass
    rw [List.flatMap_cons]
    exact free_append (f.free_chars h hpass.1) (ih hpass.2)

/-! ### What a search finds -/

theorem forall₂_icase_self (v : List Char) : List.Forall₂ (fun c d => icase c d = true) v v :=
  List.forall₂_same.2 fun c _ => icase_self c

theorem element_append : element tag body ++ rest =
    ('<' :: tag.toList) ++ '>' :: (body ++ (endTag tag ++ rest)) := by
  simp [element, startTag]

theorem elementRegex_before (tag : String) : (elementRegex tag).before =
    lits icase ('<' :: tag.toList) ++ [.edge wordChar, .many (· != '>'), .one (· == '>')] :=
  List.append_assoc ..

theorem elementRegex_matchAt {c : Char} (hlast : tag.toList.getLast? = some c)
    (hc : wordChar c = true) (hbody : Free icase (endTag tag) body) (prev : Option Char)
    (rest : List Char) : (elementRegex tag).matchAt prev (element tag body ++ rest) =
      some ⟨[], startTag tag, body, endTag tag, rest⟩ := by
  have hend : ∀ q, Regex.runAll (fun _ rest => some rest) (elementRegex tag).after q
      (endTag tag ++ rest) = some (endTag tag, rest) := by
    intro q
    exact Regex.runAll_lits_last (forall₂_icase_self (endTag tag)) rest
  have hgroup : ∀ q, (elementRegex tag).group.run
      (Regex.runAll (fun _ rest => some rest) (elementRegex tag).after) q
      (body ++ (endTag tag ++ rest)) = some (body, (endTag tag, rest)) := by
    refine Regex.few_append (fun _ _ => rfl) hend fun v x hvx hx q => ?_
    rw [hvx] at hbody
    exact Regex.runAll_lits_last_none (hbody.starts hx (endTag tag ++ rest))
  have hprev : ('<' :: tag.toList).getLast?.or prev = some c := by
    rw [Regex.getLast?_cons_or, hlast]
    rfl
  have hedge : ((some c).any wordChar != (some '>').any wordChar) = true := by
    rw [Option.any_some, hc]
    rfl
  rw [Pattern.matchAt, elementRegex_before, element_append, Regex.runAll_lits (forall₂_icase_self _),
    hprev, Regex.runAll_edge hedge, Regex.runAll_many_of_head (by rintro d ⟨⟩; rfl),
    Regex.runAll_one (by rfl)]
  simp [Regex.runAll, hgroup, startTag]

/-- The first element with the tag is found, whatever has no such tag stands before it. -/
theorem elementRegex_search {c : Char} (hlast : tag.toList.getLast? = some c) (hc : wordChar c = true)
    (hu : Free icase ('<' :: tag.toList) u) (hbody : Free icase (endTag tag) body)
    (prev : Option Char) (rest : List Char) :
    (elementRegex tag).search prev (u ++ (element tag body ++ rest)) =
      some ⟨u, startTag tag, body, endTag tag, rest⟩ := by
  rw [Pattern.search_free (elementRegex_before tag) hu,
    Pattern.search_of_matchAt (elementRegex_matchAt hlast hc hbody _ rest)]
  simp

theorem firstTagText_element {c : Char} (hlast : tag.toList.getLast? = some c)
    (hc : wordChar c = true) (hu : Free icase ('<' :: tag.toList) u)
    (hbody : Free icase (endTag tag) body) (rest : List Char) :
    firstTagText (u ++ (element tag body ++ rest)) tag =
      some (String.ofList (unwrapCdata (trim isBlank body))) := by
  rw [firstTagText, elementRegex_search hlast hc hu hbody]
  rfl

theorem firstTagText_none (hu : Free icase ('<' :: tag.toList) u) : firstTagText u tag = none := by
  rw [firstTagText, Pattern.search_none (elementRegex_before tag) (List.cons_ne_nil _ _) hu]
  rfl

/-! ### Fields -/

theorem FieldTag.last_wordChar (tag : FieldTag) :
    ∃ c, tag.name.toList.getLast? = some c ∧ wordChar c = true := by
  cases tag with
  | title => exact ⟨'e', rfl, rfl⟩
  | link => exact ⟨'k', rfl, rfl⟩
  | guid => exact ⟨'d', rfl, rfl⟩
  | description => exact ⟨'n', rfl, rfl⟩

theorem FieldTag.name_noAngle (tag : FieldTag) : ∀ c ∈ tag.name.toList, c ≠ '<' := by
  cases tag <;> simp [name]

/-- No two tags begin alike. -/
theorem FieldTag.passes {tag tag' : FieldTag} (h : tag ≠ tag') :
    Passes tag.name.toList tag'.name := by
  cases tag <;> cases tag' <;>
    first | exact absurd rfl h | exact ⟨fun _ => rfl, fun _ => rfl, name_noAngle _⟩

theorem FieldTag.passes_item (tag : FieldTag) : Passes "item".toList tag.name := by
  cases tag <;> exact ⟨fun _ => rfl, fun _ => rfl, name_noAngle _⟩

theorem FieldTag.passes_endItem (tag : FieldTag) : Passes ('/' :: ("item".toList ++ ['>'])) tag.name := by
  cases tag <;> exact ⟨fun _ => rfl, fun _ => rfl, name_noAngle _⟩

theorem Field.bare_wrapped (f : Field) : Bare isBlank f.wrapped := by
  rw [wrapped]
  split_ifs
  · constructor
    · intro c hc
      have hhead : (cdataOpen ++ f.text.chars ++ cdataClose).head? = some '<' := rfl
      rw [← Option.some.inj (hhead.symm.trans hc)]
      rfl
    · intro c hc
      have hlast : (cdataOpen ++ f.text.chars ++ cdataClose).getLast? = some '>' :=
        List.getLast?_append_of_ne_nil _ (by decide)
      rw [← Option.some.inj (hlast.symm.trans hc)]
      rfl
  · exact f.text.bare

theorem unwrapCdata_cdata (text : List Char) :
    unwrapCdata (cdataOpen ++ text ++ cdataClose) = text := by
  have hopen : cdataOpen.isPrefixOf (cdataOpen ++ text ++ cdataClose) = true := by
    rw [List.isPrefixOf_iff_prefix, List.append_assoc]
    exact List.prefix_append ..
  have hclose : cdataClose.isSuffixOf (cdataOpen ++ text ++ cdataClose) = true :=
    List.isSuffixOf_iff_suffix.2 (List.suffix_append ..)
  have hlength : (cdataOpen ++ text ++ cdataClose).length - cdataOpen.length - cdataClose.length =
      text.length := by
    simp only [List.length_append]
    omega
  rw [unwrapCdata, hopen, hclose, hlength, List.append_assoc, List.drop_left, List.take_left]
  rfl

theorem FieldText.unwrapCdata_chars (t : FieldText) : unwrapCdata t.chars = t.chars := by
  refine if_neg fun h => ?_
  rw [Bool.and_eq_true, List.isPrefixOf_iff_prefix] at h
  have hmem : '<' ∈ t.chars := h.1.subset (by decide)
  exact (t.noAngle '<' hmem).1 rfl

/-- A field's text is what is read of its content. -/
theorem Field.unwrapCdata_content (f : Field) :
    unwrapCdata (trim isBlank f.content) = f.text.chars := by
  rw [content, trim_pad f.before.blank f.after.blank f.bare_wrapped, wrapped]
  split_ifs
  · exact unwrapCdata_cdata f.text.chars
  · exact f.text.unwrapCdata_chars

/-- Of the fields, in any order, the first with the tag is read. -/
theorem firstTagText_fields (tag : FieldTag) (fs : List Field) (tail : Blank) :
    firstTagText (fs.flatMap Field.chars ++ tail.chars) tag.name =
      (fs.find? (·.tag = tag)).map fun f => String.ofList f.text.chars := by
  obtain ⟨a, w, hname, hcdata⟩ : ∃ a w, tag.name.toList = a :: w ∧ icase a '!' = false := by
    cases tag <;> exact ⟨_, _, rfl, rfl⟩
  have hpasses : ∀ f : Field, f.tag ≠ tag → Passes (a :: w) f.tag.name := by
    intro f hf
    rw [← hname]
    exact FieldTag.passes (Ne.symm hf)
  cases hfind : fs.find? (·.tag = tag) with
  | none =>
    rw [List.find?_eq_none] at hfind
    refine firstTagText_none ?_
    rw [hname]
    exact free_append (free_fields hcdata fun f hf => hpasses f (by simpa using hfind f hf)) (tail.free _)
  | some f =>
    obtain ⟨hf, before, after, rfl, hbefore⟩ := List.find?_eq_some_iff_append.1 hfind
    obtain rfl : f.tag = tag := by simpa using hf
    obtain ⟨c, hlast, hc⟩ := f.tag.last_wordChar
    have hu : Free icase ('<' :: f.tag.name.toList) (before.flatMap Field.chars ++ f.indent.chars) := by
      rw [hname]
      exact free_append (free_fields hcdata fun g hg => hpasses g (by simpa using hbefore g hg))
        (f.indent.free _)
    have hsplit : (before ++ f :: after).flatMap Field.chars ++ tail.chars =
        before.flatMap Field.chars ++ f.indent.chars ++
          (element f.tag.name f.content ++ (after.flatMap Field.chars ++ tail.chars)) := by
      simp [Field.chars]
    rw [hsplit, firstTagText_element hlast hc hu (f.free_content rfl), f.unwrapCdata_content]
    rfl

/-! ### Items -/

namespace WrittenItem

theorem free_body (w : WrittenItem) : Free icase (endTag "item") w.body :=
  free_append (free_fields rfl fun f _ => f.tag.passes_endItem) (w.tail.free _)

theorem searchAll_items {tail : List Char} (htail : Free icase ('<' :: "item".toList) tail)
    (items : List WrittenItem) (hu : Free icase ('<' :: "item".toList) u) (prev : Option Char)
    {fuel : ℕ} (hfuel : items.length < fuel) :
    (itemRegex.searchAll fuel prev (u ++ (items.flatMap chars ++ tail))).map (·.group) =
      items.map WrittenItem.body := by
  induction items generalizing u prev fuel with
  | nil =>
    obtain ⟨fuel, rfl⟩ := Nat.exists_eq_succ_of_ne_zero (Nat.ne_zero_of_lt hfuel)
    have hnone : itemRegex.search prev (u ++ tail) = none :=
      Pattern.search_none (elementRegex_before "item") (List.cons_ne_nil _ _) (free_append hu htail) prev
    rw [List.flatMap_nil, List.nil_append, Pattern.searchAll, hnone]
    rfl
  | cons w items ih =>
    obtain ⟨fuel, rfl⟩ := Nat.exists_eq_succ_of_ne_zero (Nat.ne_zero_of_lt hfuel)
    have hsplit : u ++ ((w :: items).flatMap chars ++ tail) =
        u ++ w.indent.chars ++ (element "item" w.body ++ (items.flatMap chars ++ tail)) := by
      simp [chars]
    have hfound := elementRegex_search (c := 'm') rfl rfl (free_append hu (w.indent.free _)) w.free_body
      prev (items.flatMap chars ++ tail)
    rw [hsplit, Pattern.searchAll, itemRegex, hfound]
    have hrest := ih (u := []) trivial
      ((startTag "item" ++ w.body ++ endTag "item").getLast?.or prev) (Nat.lt_of_succ_lt_succ hfuel)
    exact congrArg (w.body :: ·) hrest

theorem length_le (items : List WrittenItem) : items.length ≤ (items.flatMap chars).length := by
  induction items with
  | nil => exact Nat.le_refl 0
  | cons w items ih =>
    have hpos : 0 < w.chars.length := by simp [chars, element, startTag]
    rw [List.flatMap_cons, List.length_append, List.length_cons]
    omega

/-- Whatever the order of the fields, each is found with its text. -/
theorem find_field (w : WrittenItem) (tag : FieldTag) :
    (w.fields.find? (·.tag = tag)).map (·.text) =
      if tag = .guid ∧ w.item.guid.chars = [] then none else some (w.item.text tag) := by
  have hmem : ∀ t, (tag, t) ∈ w.item.present ↔ ∃ f ∈ w.fields, (f.tag, f.text) = (tag, t) := by
    intro t
    rw [← w.fields_perm.mem_iff, List.mem_map]
  simp only [FeedItem.mem_present] at hmem
  cases hfind : w.fields.find? (·.tag = tag) with
  | none =>
    rw [List.find?_eq_none] at hfind
    refine (if_pos ?_).symm
    by_contra habsent
    obtain ⟨f, hf, heq⟩ := (hmem (w.item.text tag)).1 ⟨rfl, habsent⟩
    exact hfind f hf (by simp [(Prod.mk.inj heq).1])
  | some f =>
    have htag : f.tag = tag := by simpa using List.find?_some hfind
    obtain ⟨htext, hpresent⟩ := (hmem f.text).2 ⟨f, List.mem_of_find?_eq_some hfind, by rw [htag]⟩
    rw [if_neg hpresent, ← htext]
    rfl

theorem firstTagText_body (w : WrittenItem) (tag : FieldTag) : firstTagText w.body tag.name =
    if tag = .guid ∧ w.item.guid.chars = [] then none
    else some (String.ofList (w.item.text tag).chars) := by
  have hfound := congrArg (Option.map fun t => String.ofList t.chars) (w.find_field tag)
  rw [Option.map_map] at hfound
  rw [body, firstTagText_fields]
  refine hfound.trans ?_
  split_ifs <;> rfl

end WrittenItem

/-- What an entry has of an item. -/
structure EntryFields where
  title : String
  link : String
  description : Option String
  guid : String

def entryFields (e : RssEntry) : EntryFields := ⟨e.title, e.link, e.description, e.guid⟩

def FeedItem.entryFields (i : FeedItem) : EntryFields where
  title := String.ofList i.title.chars
  link := String.ofList i.link.chars
  description := some (String.ofList i.description.chars)
  guid := String.ofList (if i.guid.chars = [] then i.link.chars else i.guid.chars)

theorem parseRssItem_body (L : TimeLib) (w : WrittenItem) :
    entryFields (parseRssItem L w.body) = w.item.entryFields := by
  have htitle : firstTagText w.body "title" = some (String.ofList w.item.title.chars) :=
    w.firstTagText_body .title
  have hlink : firstTagText w.body "link" = some (String.ofList w.item.link.chars) :=
    w.firstTagText_body .link
  have hdescription : firstTagText w.body "description" = some (String.ofList w.item.description.chars) :=
    w.firstTagText_body .description
  have hguid : (firstTagText w.body "guid").getD "" = String.ofList w.item.guid.chars := by
    show (firstTagText w.body FieldTag.guid.name).getD "" = _
    rw [w.firstTagText_body]
    split_ifs with h
    · rw [h.2]
      rfl
    · rfl
  simp only [entryFields, parseRssItem, htitle, hlink, hdescription, hguid, FeedItem.entryFields,
    Option.getD_some]
  by_cases h : w.item.guid.chars = [] <;> simp [h]

/-! ### Documents read back -/

namespace WrittenDocument

theorem free_header (d : WrittenDocument) : Free icase ('<' :: "item".toList) d.header := by
  have hdeclaration : Free icase ('<' :: "item".toList) d.declarationChars := by
    rw [declarationChars]
    split_ifs
    · exact free_tag (u := "?xml version=\"1.0\" encoding=\"UTF-8\"?>".toList) (by simp) fun _ => rfl
    · trivial
  have hrss : Free icase ('<' :: "item".toList) "<rss version=\"2.0\">".toList :=
    free_tag (u := "rss version=\"2.0\">".toList) (by simp) fun _ => rfl
  have hchannel : Free icase ('<' :: "item".toList) (startTag "channel") :=
    free_tag (by simp) fun _ => rfl
  have hfields := free_fields (a := 'i') (w := "tem".toList) rfl
    fun f (_ : f ∈ d.channel) => f.tag.passes_item
  exact free_append (free_append (free_append (free_append (free_append hdeclaration
    (d.beforeRss.free _)) hrss) (d.beforeChannel.free _)) hchannel) hfields

theorem free_footer (d : WrittenDocument) : Free icase ('<' :: "item".toList) d.footer := by
  have hchannel : Free icase ('<' :: "item".toList) (endTag "channel") :=
    free_tag (by simp) fun _ => rfl
  have hrss : Free icase ('<' :: "item".toList) (endTag "rss") := free_tag (by simp) fun _ => rfl
  exact free_append (free_append (free_append (free_append (d.afterItems.free _) hchannel)
    (d.afterChannel.free _)) hrss) (d.afterRss.free _)

theorem mentions_rss (d : WrittenDocument) : Mentions "rss" d.chars := by
  refine ⟨d.declarationChars ++ d.beforeRss.chars, "rss".toList, ' ' :: "version=\"2.0\">".toList ++
    (d.beforeChannel.chars ++ (startTag "channel" ++ (d.channel.flatMap Field.chars ++
      (d.items.flatMap WrittenItem.chars ++ d.footer)))), ?_, rfl, ?_⟩
  · simp [chars, header]
  · rintro c ⟨⟩
    rfl

end WrittenDocument

/-- The items of a document that is written are read back, one entry each, in order. -/
theorem parse_writtenDocument (L : TimeLib) (d : WrittenDocument) :
    ∃ doc, parse L d.chars = .ok doc ∧
      doc.entries.map entryFields = d.items.map fun w => w.item.entryFields := by
  refine ⟨_, parse_of_rss d.mentions_rss, ?_⟩
  have hfuel : d.items.length < d.chars.length + 1 := by
    have hle := WrittenItem.length_le d.items
    simp only [WrittenDocument.chars, List.length_append]
    omega
  have hgroups := WrittenItem.searchAll_items d.free_footer d.items d.free_header none hfuel
  rw [← List.append_assoc] at hgroups
  calc ((itemRegex.searchAll (d.chars.length + 1) none d.chars).map fun m => parseRssItem L m.group).map
        entryFields
      = ((itemRegex.searchAll (d.chars.length + 1) none d.chars).map (·.group)).map
          fun body => entryFields (parseRssItem L body) := by rw [List.map_map, List.map_map]; rfl
    _ = (d.items.map WrittenItem.body).map fun body => entryFields (parseRssItem L body) :=
        congrArg _ hgroups
    _ = d.items.map fun w => w.item.entryFields := by
        rw [List.map_map]
        exact List.map_congr_left fun w _ => parseRssItem_body L w

end Cmlb.RssDocumentParser
