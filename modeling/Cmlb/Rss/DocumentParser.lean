import Cmlb.Core.Text
import Cmlb.Lib.LetterCase
import Cmlb.Lib.Regex
import Cmlb.Lib.Trimming
import Cmlb.Rss.FeedPoller

/-!
# `RssDocumentParser` (`rss_document_parser.cpp`)

Everything is found with regular expressions on the whole text; the patterns are those of the source,
and `std::regex` is the search of `Regex`. A `std::string` is a `String` whose characters are its
bytes, and the locale is "C". `std::get_time` is a parameter.
-/

namespace Cmlb.RssDocumentParser

open Regex (Item Pattern lits)
open Rss (RssEntry RssDocument)
open Trimming (trim)

/-! ### Patterns -/

/-- `std::regex::icase` -/
def icase (c d : Char) : Bool := c.toLower == d.toLower

/-- The characters of `\w`. -/
def wordChar (c : Char) : Bool := c.isAlphanum || c == '_'

/-- `<tag\b` -/
def openTag (tag : String) : List (Item Char) := lits icase ('<' :: tag.toList) ++ [.edge wordChar]

/-- `<tag\b` -/
def rootRegex (tag : String) : Pattern Char where
  before := lits icase ('<' :: tag.toList)
  group := .edge wordChar

def rssRootRegex : Pattern Char := rootRegex "rss"

def atomRootRegex : Pattern Char := rootRegex "feed"

/-- `<tag\b[^>]*>([\s\S]*?)</tag>` -/
def elementRegex (tag : String) : Pattern Char where
  before := openTag tag ++ [.many (· != '>'), .one (· == '>')]
  group := .few fun _ => true
  after := lits icase ('<' :: '/' :: tag.toList ++ ['>'])

def itemRegex : Pattern Char := elementRegex "item"

def atomEntryRegex : Pattern Char := elementRegex "entry"

/-- `<tag\b([^>]*)\/?>` -/
def tagRegex (tag : String) : Pattern Char where
  before := openTag tag
  group := .many (· != '>')
  after := [.opt (· == '/'), .one (· == '>')]

/-- `attr\s*=\s*"([^"]*)"`, with the quotation mark as a parameter. -/
def attrRegex (attr : String) (quote : Char) : Pattern Char where
  before := lits icase attr.toList ++
    [.many isSpace, .one (· == '='), .many isSpace, .one (· == quote)]
  group := .many (· != quote)
  after := [.one (· == quote)]

/-- `[A-Fa-f0-9]` -/
def hexChar (c : Char) : Bool := c.isDigit || ('A' ≤ c && c ≤ 'F') || ('a' ≤ c && c ≤ 'f')

/-- `magnet:\?xt=urn:btih:[A-Fa-f0-9]+[^"<\s]*` -/
def magnetRegex : Pattern Char where
  before := lits (· == ·) "magnet:?xt=urn:btih:".toList ++ [.one hexChar, .many hexChar]
  group := .many fun c => c != '"' && c != '<' && !isSpace c

/-! ### Extraction -/

/-- The characters of `" \t\r\n"`. -/
def isBlank (c : Char) : Bool := c == ' ' || c == '\t' || c == '\r' || c == '\n'

def cdataOpen : List Char := "<![CDATA[".toList

def cdataClose : List Char := "]]>".toList

/-- "Unwrap a single enclosing CDATA section." -/
def unwrapCdata (body : List Char) : List Char :=
  if cdataOpen.isPrefixOf body && cdataClose.isSuffixOf body then
    (body.drop cdataOpen.length).take (body.length - cdataOpen.length - cdataClose.length)
  else body

def firstTagText (text : List Char) (tag : String) : Option String :=
  ((elementRegex tag).search none text).map fun m =>
    String.ofList (unwrapCdata (trim isBlank m.group))

def attrOfTag (text : List Char) (tag attr : String) : Option String :=
  ((tagRegex tag).search none text).bind fun m =>
    (((attrRegex attr '"').search none m.group).or ((attrRegex attr '\'').search none m.group)).map
      fun am => String.ofList am.group

/-- The raw attributes that `for_each_tag` yields. -/
def forEachTag (text : List Char) (tag : String) : List (List Char) :=
  ((tagRegex tag).searchAll (text.length + 1) none text).map (·.group)

/-- The lambda `find_attr`. -/
def findAttr (attrs : List Char) (name : String) : Option String :=
  ((attrRegex name '"').search none attrs).map fun m => String.ofList m.group

def extractMagnet (text : List Char) : Option String :=
  (magnetRegex.search none text).map fun m => String.ofList m.whole

/-- `std::get_time` with a format, and `timegm` of what it has read. -/
structure TimeLib where
  getTime : String → String → Option Int

variable (L : TimeLib)

/-- `system_clock::from_time_t`, unless `timegm` has failed. -/
def fromTimegm (t : Int) : Option Time := if t = -1 then none else some (t * 1000000000)

def parseRfc822 (text : String) : Option Time :=
  ((L.getTime "%a, %d %b %Y %H:%M:%S" text).or (L.getTime "%d %b %Y %H:%M:%S" text)).bind fromTimegm

def parseRfc3339 (text : String) : Option Time := (L.getTime "%Y-%m-%dT%H:%M:%S" text).bind fromTimegm

/-- "Magnet: prefer description, fall back to whole body." -/
def magnetOf (description : Option String) (body : List Char) : Option String :=
  (description.bind fun d => extractMagnet d.toList).or (extractMagnet body)

/-! ### RSS 2.0 -/

def parseRssItem (body : List Char) : RssEntry :=
  let link := (firstTagText body "link").getD ""
  let guid := (firstTagText body "guid").getD ""
  let description := firstTagText body "description"
  { title := (firstTagText body "title").getD ""
    link := link
    guid := if guid.isEmpty then link else guid
    description := description
    torrentUrl :=
      if attrOfTag body "enclosure" "type" = some "application/x-bittorrent" then
        attrOfTag body "enclosure" "url"
      else none
    magnet := magnetOf description body
    publishedAt := (firstTagText body "pubDate").bind (parseRfc822 L) }

/-- The text before the first match, or all of it. -/
def beforeFirst (r : Pattern Char) (xml : List Char) : List Char :=
  match r.search none xml with
  | some m => xml.take m.skipped.length
  | none => xml

def parseRss (xml : List Char) : Result RssDocument :=
  let channelView := beforeFirst itemRegex xml
  .ok {
    title := (firstTagText channelView "title").getD ""
    link := (firstTagText channelView "link").getD ""
    description := firstTagText channelView "description"
    entries := (itemRegex.searchAll (xml.length + 1) none xml).map fun m => parseRssItem L m.group }

/-! ### Atom -/

/-- `alternate_link` and `torrent_url`. -/
structure AtomLinks where
  alternate : String := ""
  torrent : Option String := none

/-- The sink for the `<link>` tags of an entry. -/
def AtomLinks.add (links : AtomLinks) (attrs : List Char) : AtomLinks :=
  match findAttr attrs "href" with
  | none => links
  | some href =>
    let rel := (findAttr attrs "rel").getD "alternate"
    let type := (findAttr attrs "type").getD ""
    if type = "application/x-bittorrent" then { links with torrent := some href }
    else if rel = "alternate" ∧ links.alternate.isEmpty then { links with alternate := href }
    else links

def parseAtomEntry (body : List Char) : RssEntry :=
  let guid := (firstTagText body "id").getD ""
  let description := (firstTagText body "summary").or (firstTagText body "content")
  let links := (forEachTag body "link").foldl AtomLinks.add {}
  { title := (firstTagText body "title").getD ""
    link := links.alternate
    guid := if guid.isEmpty then links.alternate else guid
    description := description
    torrentUrl := links.torrent
    magnet := magnetOf description body
    publishedAt :=
      match firstTagText body "published" with
      | some pub => parseRfc3339 L pub
      | none => (firstTagText body "updated").bind (parseRfc3339 L) }

/-- The sink for the `<link>` tags of the header. -/
def headerLink (link : String) (attrs : List Char) : String :=
  if !link.isEmpty then link
  else match findAttr attrs "href" with
    | none => link
    | some href => if (findAttr attrs "rel").getD "alternate" = "alternate" then href else link

def parseAtom (xml : List Char) : Result RssDocument :=
  let headerView := beforeFirst atomEntryRegex xml
  .ok {
    title := (firstTagText headerView "title").getD ""
    description := firstTagText headerView "subtitle"
    link := (forEachTag headerView "link").foldl headerLink ""
    entries := (atomEntryRegex.searchAll (xml.length + 1) none xml).map fun m =>
      parseAtomEntry L m.group }

def parse (xml : List Char) : Result RssDocument :=
  if xml.isEmpty then .error ⟨.deserialization, "empty RSS document"⟩
  else if (rssRootRegex.search none xml).isSome then parseRss L xml
  else if (atomRootRegex.search none xml).isSome then parseAtom L xml
  else .error ⟨.deserialization, "document is neither RSS 2.0 nor Atom 1.0"⟩

/-! ### Letter case -/

variable {a c d : Char}

theorem icase_iff : icase c d = true ↔ c.toLower = d.toLower := beq_iff_eq

theorem icase_self (c : Char) : icase c c = true := beq_self_eq_true c.toLower

/-- Nothing but itself is like a character that is no letter. -/
theorem icase_iff_of_not_isAlpha (ha : a.isAlpha = false) : icase a d = true ↔ d = a := by
  have hlower : a.toLower = a := (LetterCase.toLower_eq_iff ha).2 rfl
  rw [icase_iff, hlower, eq_comm, LetterCase.toLower_eq_iff ha]

end Cmlb.RssDocumentParser
