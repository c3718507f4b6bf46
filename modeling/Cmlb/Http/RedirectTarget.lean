import Cmlb.Http.UrlParsing

/-!
# Where a redirect leads (`resolve_redirect`)

`resolve_redirect` tells a URL from a path by its first characters, and cuts the target of the current
URL, with its query and its fragment, at the last slash. So it leads where RFC 3986 says exactly for a
URL in lower-case scheme that `parse_url` reads, for a path that begins with a slash, and, where no slash
stands in the query or the fragment of the current URL, for a relative path and for a query alone at the
end of a directory (`redirect_resolves_iff`). A reference with an authority and no scheme is taken for a
path.
-/

namespace Cmlb.Http

open Uri

/-- The redirect is followed to what `u` denotes. -/
def LeadsTo (current : ParsedUrl) (location : String) (u : Reference) : Prop :=
  ∃ next url, resolveRedirect current location = some next ∧ parseUrl next = some url ∧ Denotes url u

/-- Host and port of the current URL are found, and found again when they are written anew: nothing but
a path follows the authority, and a literal with colons does not have the scheme's own port. -/
def KeepsHost (current : ParsedUrl) (base : Reference) : Prop :=
  (base.path = [] → base.query = none ∧ base.fragment = none) ∧
    (current.port = defaultPort current.https → ':' ∉ current.host.toList)

/-- When `resolve_redirect` leads where the reference says. -/
def RightlyFollowed (current : ParsedUrl) (base u : Reference) : Prop :=
  u.fragment = none ∧
  match u.scheme, u.authority with
  | some s, some a => (∃ https, s = schemeName https) ∧ Plain a ∧ (u.path = [] → u.query = none)
  | none, none => KeepsHost current base ∧ (['/'] <+: u.path ∨
      '/' ∉ base.queryText ++ base.fragmentText ∧
        (u.path ≠ [] ∧ NoDots (directory base.path) ∨
          u.path = [] ∧ u.query ≠ none ∧ directory base.path = base.path))
  | _, _ => False

variable {https : Bool} {authority tail : List Char} {host port : String} {base u : Reference}
  {a : Uri.Authority} {current url : ParsedUrl} {c : Char}

/-! ### The current URL -/

theorem schemeText_eq (https : Bool) : schemeText https = schemeName https ++ [':', '/', '/'] := by
  cases https <;> rfl

/-- The scheme ends at the first colon. -/
theorem append_colon_inj {s s' rest rest' : List Char} (hs : ':' ∉ s) (hs' : ':' ∉ s')
    (h : s ++ ':' :: rest = s' ++ ':' :: rest') : s = s' ∧ rest = rest' := by
  have htake : ∀ {xs ys : List Char}, ':' ∉ xs → (xs ++ ':' :: ys).takeWhile (· != ':') = xs := by
    intro xs ys hxs
    have hne : ∀ c ∈ xs, (c != ':') = true := by
      intro c hc
      have hne : c ≠ ':' := by
        rintro rfl
        exact hxs hc
      simpa using hne
    rw [List.takeWhile_append_of_pos hne]
    simp
  have heq : s = s' := by
    rw [← htake hs, h, htake hs']
  subst heq
  simpa using h

theorem colon_notMem_schemeName (https : Bool) : ':' ∉ schemeName https := fun hc =>
  notMem_schemeName https _ hc List.mem_cons_self

/-- What comes behind host and port in the URL that is gone to. -/
def redirectTail (current : ParsedUrl) (location : List Char) : List Char :=
  if ['/'] <+: location then location else directory current.target.toList ++ location

section Current

variable {text : String} {location : List Char}

theorem target_slash (hcur : parseUrl text = some current) : ['/'] <+: current.target.toList := by
  obtain ⟨authority, tail, -, -, htail, -, htarget⟩ := parseUrl_inv hcur
  rw [htarget]
  split
  · decide
  · rename_i hne
    simpa using htail.resolve_left hne

theorem redirectTail_slash (hcur : parseUrl text = some current) :
    ['/'] <+: redirectTail current location := by
  unfold redirectTail
  split
  · assumption
  · exact (slash_directory (target_slash hcur)).trans (List.prefix_append _ _)

theorem mem_hostWithPort (hcur : parseUrl text = some current) : '/' ∉ current.hostWithPort.toList := by
  obtain ⟨authority, tail, -, hslash, -, hauth, -⟩ := parseUrl_inv hcur
  unfold ParsedUrl.hostWithPort
  obtain ⟨-, -, ⟨rfl, -, hport⟩ | ⟨rfl, -, -⟩⟩ := splitAuthority_inv hauth
  · rwa [if_pos hport]
  · split
    · exact fun hmem => hslash (List.mem_append_left _ hmem)
    · simpa using hslash

theorem resolveRedirect_relative (hcur : parseUrl text = some current) (hne : location ≠ [])
    (habs : ¬("http://".toList <+: location ∨ "https://".toList <+: location)) :
    resolveRedirect current (String.ofList location) = some (String.ofList
      (schemeText current.https ++ (current.hostWithPort.toList ++ redirectTail current location))) := by
  have hmem : '/' ∈ current.target.toList := (target_slash hcur).subset List.mem_cons_self
  have htext : (String.ofList location).toList = location := String.toList_ofList
  unfold resolveRedirect redirectTail
  rw [if_neg (by simpa using hne), htext, if_neg habs]
  dsimp only
  have hscheme : (if current.https then "https://" else "http://") =
      String.ofList (schemeText current.https) := by
    cases current.https <;> rfl
  rw [hscheme, if_pos hmem]
  have hlit : "/".toList = ['/'] := rfl
  by_cases hslash : ['/'] <+: location
  · rw [hlit, if_pos hslash, if_pos hslash]
    simp [String.ofList_append, String.append_assoc]
  · rw [hlit, if_neg hslash, if_neg hslash]
    simp [String.ofList_append, String.append_assoc, directory]

theorem parseUrl_resolved (hcur : parseUrl text = some current) :
    parseUrl (String.ofList
      (schemeText current.https ++ (current.hostWithPort.toList ++ redirectTail current location))) =
        (splitAuthority current.https current.hostWithPort.toList).map fun found =>
          ⟨current.https, found.1, found.2, String.ofList (redirectTail current location)⟩ := by
  have htail : ['/'] <+: redirectTail current location := redirectTail_slash hcur
  have hne : redirectTail current location ≠ [] := by
    intro hnil
    rw [hnil] at htail
    cases List.prefix_nil.1 htail
  rw [parseUrl_text (mem_hostWithPort hcur) (.inr htail)]
  simp only [if_neg hne]

/-- A relative reference that is followed is found behind host and port. -/
theorem leadsTo_relative_iff (hcur : parseUrl text = some current)
    (habs : ¬("http://".toList <+: location ∨ "https://".toList <+: location)) :
    LeadsTo current (String.ofList location) u ↔ location ≠ [] ∧ ∃ found,
      splitAuthority current.https current.hostWithPort.toList = some found ∧
        Denotes ⟨current.https, found.1, found.2, String.ofList (redirectTail current location)⟩ u := by
  by_cases hne : location = []
  · subst hne
    simp [LeadsTo, resolveRedirect]
  · unfold LeadsTo
    rw [resolveRedirect_relative hcur hne habs]
    simp only [Option.some.injEq, exists_and_left, exists_eq_left', parseUrl_resolved hcur,
      Option.map_eq_some_iff]
    constructor
    · rintro ⟨url, ⟨found, hfound, rfl⟩, hden⟩
      exact ⟨hne, found, hfound, hden⟩
    · rintro ⟨-, found, hfound, hden⟩
      exact ⟨_, ⟨found, hfound, rfl⟩, hden⟩

theorem tail_of_leadsTo (hcur : parseUrl text = some current)
    (habs : ¬("http://".toList <+: location ∨ "https://".toList <+: location))
    (h : LeadsTo current (String.ofList location) u) : redirectTail current location = requestTarget u := by
  obtain ⟨-, found, -, a, -, -, -, -, htarget⟩ := (leadsTo_relative_iff hcur habs).1 h
  exact String.ofList_inj.1 htarget

end Current

/-! ### The reference -/

/-- What looks like a scheme is a part of the first segment of the path. -/
theorem colon_mem_of_append {s more path rest : List Char} (hs : ∀ c ∈ s, c ∉ ['/', '?', '#'])
    (hrest : ∀ c, rest.head? = some c → c ∈ ['?', '#']) (h : s ++ ':' :: more = path ++ rest) :
    ':' ∈ path.takeWhile (· != '/') := by
  have hslash : ∀ c ∈ s, (c != '/') = true := by
    intro c hc
    have hne : c ≠ '/' := fun heq => hs c hc (by simp [heq])
    simpa using hne
  rcases List.append_eq_append_iff.1 h with ⟨back, hpath, hback⟩ | ⟨front, hfront, hrest'⟩
  · cases back with
    | nil =>
      have hhead := hrest ':' (by rw [← List.nil_append rest, ← hback]; rfl)
      simp at hhead
    | cons c back =>
      have hc := (List.cons.inj hback).1
      rw [hpath, ← hc, List.takeWhile_append_of_pos hslash]
      simp
  · cases front with
    | nil =>
      have hhead := hrest ':' (by rw [hrest']; rfl)
      simp at hhead
    | cons c front =>
      have hhead := hrest c (by rw [hrest']; rfl)
      have hc := hs c (by simp [hfront])
      exact absurd (List.mem_cons_of_mem _ hhead) hc

theorem head_behind (u : Reference) :
    ∀ c, (u.queryText ++ u.fragmentText).head? = some c → c ∈ ['?', '#'] := by
  intro c hc
  unfold Reference.queryText Reference.fragmentText at hc
  cases hq : u.query with
  | some q =>
    rw [hq] at hc
    simp at hc
    simp [← hc]
  | none =>
    cases hf : u.fragment with
    | some f =>
      rw [hq, hf] at hc
      simp at hc
      simp [← hc]
    | none =>
      rw [hq, hf] at hc
      simp at hc

/-- A text that begins with `http://` or `https://` has that scheme. -/
theorem scheme_of_begins (hu : u.Valid) (h : schemeText https <+: u.text) :
    u.scheme = some (schemeName https) := by
  obtain ⟨more, htext⟩ := h
  rw [schemeText_eq, List.append_assoc] at htext
  cases hscheme : u.scheme with
  | some s =>
    have hcolon : ':' ∉ s := fun hmem => (hu.scheme s hscheme).2 ':' hmem (by decide)
    have hsplit : schemeName https ++ ':' :: ('/' :: '/' :: more) =
        s ++ ':' :: (u.authority.elim [] (fun a => '/' :: '/' :: a.text) ++ u.path ++ u.queryText ++
          u.fragmentText) := by
      simpa [Reference.text, hscheme] using htext
    rw [(append_colon_inj (colon_notMem_schemeName _) hcolon hsplit).1]
  | none =>
    cases hauth : u.authority with
    | some b => cases https <;> simp [Reference.text, hscheme, hauth, schemeName] at htext
    | none =>
      have hsplit : schemeName https ++ ':' :: ('/' :: '/' :: more) =
          u.path ++ (u.queryText ++ u.fragmentText) := by
        simpa [Reference.text, hscheme, hauth] using htext
      have hs : ∀ c ∈ schemeName https, c ∉ ['/', '?', '#'] := fun c hc hmem =>
        notMem_schemeName https c hc (List.mem_cons_of_mem _ hmem)
      exact absurd (colon_mem_of_append hs (head_behind u) hsplit) (hu.noscheme hscheme hauth)

theorem prefix_of_scheme {b : Uri.Authority} (hscheme : u.scheme = some (schemeName https))
    (hauth : u.authority = some b) : schemeText https <+: u.text :=
  ⟨_, (text_eq hscheme hauth).symm⟩

/-- A reference is taken for a URL exactly if its scheme is in lower case. -/
theorem absolute_iff (hu : u.Valid) (hhttp : ∀ s, u.scheme = some s → u.authority ≠ none) :
    ("http://".toList <+: u.text ∨ "https://".toList <+: u.text) ↔
      ∃ https, u.scheme = some (schemeName https) := by
  constructor
  · rintro (h | h)
    · exact ⟨false, scheme_of_begins hu h⟩
    · exact ⟨true, scheme_of_begins hu h⟩
  · rintro ⟨https, hscheme⟩
    obtain ⟨b, hauth⟩ := Option.ne_none_iff_exists'.1 (hhttp _ hscheme)
    cases https with
    | false => exact .inl (prefix_of_scheme hscheme hauth)
    | true => exact .inr (prefix_of_scheme hscheme hauth)

/-! ### Host and port -/

/-- A current URL that is read has its scheme in lower case, and an authority. -/
theorem scheme_of_parseUrl (hb : base.Valid)
    (hcur : parseUrl (String.ofList base.text) = some current) :
    base.scheme = some (schemeName current.https) ∧ ∃ a, base.authority = some a := by
  obtain ⟨authority, tail, htext, -⟩ := parseUrl_inv hcur
  rw [String.toList_ofList] at htext
  have hscheme := scheme_of_begins hb ⟨_, htext.symm⟩
  refine ⟨hscheme, ?_⟩
  cases hauth : base.authority with
  | some a => exact ⟨a, rfl⟩
  | none =>
    have hrest : base.path ++ (base.queryText ++ base.fragmentText) = '/' :: '/' :: (authority ++ tail) := by
      simpa [Reference.text, hscheme, hauth, schemeText_eq] using htext
    have hhier := hb.hier
    have hhead := head_behind base
    rw [hauth] at hhier
    cases hpath : base.path with
    | nil =>
      rw [hpath, List.nil_append] at hrest
      rw [hrest] at hhead
      exact absurd (hhead '/' rfl) (by decide)
    | cons c path =>
      cases path with
      | nil =>
        rw [hpath, List.singleton_append] at hrest
        rw [(List.cons.inj hrest).2] at hhead
        exact absurd (hhead '/' rfl) (by decide)
      | cons d path =>
        rw [hpath] at hrest hhier
        simp only [List.cons_append, List.cons.injEq] at hrest
        exact absurd ⟨path, by simp [hrest.1, hrest.2.1]⟩ hhier

section Host

variable (hb : base.Valid) (ha : base.authority = some a)
  (hcur : parseUrl (String.ofList base.text) = some current)

include hb ha hcur

theorem current_eq (hpath : base.path = [] → base.query = none ∧ base.fragment = none) :
    Plain a ∧ current = ⟨current.https, String.ofList a.host, portOf current.https a,
      String.ofList (wholeTarget base)⟩ := by
  have hparse := parseUrl_reference hb (scheme_of_parseUrl hb hcur).1 ha hpath
  rw [hcur] at hparse
  split at hparse
  · exact ⟨‹_›, Option.some.inj hparse⟩
  · cases hparse

/-- Host and port are found again. -/
theorem splitAuthority_hostWithPort (hkeeps : KeepsHost current base) :
    splitAuthority current.https current.hostWithPort.toList =
      some (String.ofList a.host, portOf current.https a) := by
  obtain ⟨hplain, hcurrent⟩ := current_eq hb ha hcur hkeeps.1
  have hvalid := hb.authority a ha
  have hat : '@' ∉ a.host := fun hmem => absurd (hvalid.mem_host hmem) (by decide)
  have hhost : current.host = String.ofList a.host := by rw [hcurrent]
  have hport : current.port = portOf current.https a := by rw [hcurrent]
  unfold ParsedUrl.hostWithPort
  split
  · rename_i hdefault
    have hcolon := hkeeps.2 hdefault
    rw [hhost, String.toList_ofList] at hcolon ⊢
    rw [splitAuthority_host hat hcolon hvalid.nonempty, ← hport, hdefault]
  · rename_i hdefault
    rw [hport] at hdefault ⊢
    unfold portOf at hdefault ⊢
    split at hdefault
    · rename_i c digits hsome
      rw [hhost]
      have hsplit : splitAuthority current.https (a.host ++ ':' :: c :: digits) = _ :=
        splitAuthority_port hat hvalid.nonempty (List.cons_ne_nil c digits) (hvalid.port _ hsome)
      simpa using hsplit
    · exact absurd rfl hdefault

theorem keepsHost_of_denotes {found : String × String} {target : String}
    (hfound : splitAuthority current.https current.hostWithPort.toList = some found)
    (hauth : u.authority = some a) (hden : Denotes ⟨current.https, found.1, found.2, target⟩ u) :
    KeepsHost current base := by
  have hvalid := hb.authority a ha
  have hpath : base.path = [] → base.query = none ∧ base.fragment = none := by
    intro hnil
    by_contra hsome
    obtain ⟨c, hc, hcolon, hdigit, hmem⟩ :=
      mem_host_of_behind hb (scheme_of_parseUrl hb hcur).1 ha hnil hsome hcur
    have hmem' : c ∈ current.hostWithPort.toList := by
      unfold ParsedUrl.hostWithPort
      split <;> simp [hmem]
    have hhost := mem_host_of_splitAuthority hfound hmem' hcolon hdigit
    exact not_denotes_of_mem_host hauth hvalid hc hhost hden
  refine ⟨hpath, fun hdefault hcolon => ?_⟩
  have hhost : current.host.toList = a.host := by
    rw [(current_eq hb ha hcur hpath).2, String.toList_ofList]
  rw [ParsedUrl.hostWithPort, if_pos hdefault, hhost] at hfound
  rw [hhost] at hcolon
  obtain ⟨literal, hliteral⟩ := hvalid.bracketed hcolon
  rw [hliteral] at hfound hcolon
  rw [splitAuthority_concat hcolon rfl] at hfound
  cases hfound

end Host

/-! ### The target -/

/-- The path, or a slash for an empty one. -/
def pathOrSlash (path : List Char) : List Char := if path = [] then ['/'] else path

theorem requestTarget_eq (u : Reference) : requestTarget u = pathOrSlash u.path ++ u.queryText := rfl

theorem wholeTarget_eq (u : Reference) :
    wholeTarget u = pathOrSlash u.path ++ (u.queryText ++ u.fragmentText) :=
  List.append_assoc ..

section Paths

variable {path : List Char}

theorem slash_pathOrSlash (hb : base.Valid) (ha : base.authority = some a) :
    ['/'] <+: pathOrSlash base.path := by
  have hhier := hb.hier
  rw [ha, Option.isSome_some, if_pos rfl] at hhier
  unfold pathOrSlash
  split
  · exact List.prefix_rfl
  · rename_i hne
    exact hhier.resolve_left hne

theorem mergePaths_eq (ha : base.authority = some a) :
    mergePaths base path = directory (pathOrSlash base.path) ++ path := by
  unfold mergePaths pathOrSlash
  by_cases hnil : base.path = []
  · rw [if_pos ⟨by simp [ha], hnil⟩, if_pos hnil]
    rfl
  · rw [if_neg (fun h => hnil h.2), if_neg hnil]

theorem noDots_directory_pathOrSlash :
    NoDots (directory (pathOrSlash path)) ↔ NoDots (directory path) := by
  unfold pathOrSlash
  split
  · rename_i hnil
    subst hnil
    decide
  · rfl

theorem directory_pathOrSlash :
    directory (pathOrSlash path) = pathOrSlash path ↔ directory path = path := by
  unfold pathOrSlash
  split
  · rename_i hnil
    subst hnil
    decide
  · rfl

theorem pathOrSlash_removeDotSegments (h : ['/'] <+: path) :
    pathOrSlash (removeDotSegments path) = path ↔ NoDots path := by
  have hself := removeDotSegments_eq_self_iff (.inr h)
  unfold pathOrSlash
  split
  · rename_i hnil
    constructor
    · rintro rfl
      decide
    · intro hno
      rw [hself.2 hno] at hnil
      subst hnil
      cases List.prefix_nil.1 h
  · exact hself

theorem length_pathOrSlash_le (path : List Char) : (pathOrSlash path).length ≤ max 1 path.length := by
  unfold pathOrSlash
  split
  · exact le_max_left _ _
  · omega

end Paths

/-- A slash in the query or in the fragment is taken for the last of the path. -/
theorem length_lt_directory_wholeTarget (h : '/' ∈ base.queryText ++ base.fragmentText) :
    (pathOrSlash base.path).length < (directory (wholeTarget base)).length := by
  obtain ⟨ys, hdir⟩ : ∃ ys, directory (pathOrSlash base.path ++ (base.queryText ++ base.fragmentText)) =
      pathOrSlash base.path ++ ys ++ ['/'] := directory_append_mem h
  rw [wholeTarget_eq, hdir]
  simp only [List.length_append, List.length_singleton]
  omega

theorem hash_notMem_requestTarget (hb : base.Valid) (hu : u.Valid) :
    '#' ∉ requestTarget (resolve base u) := by
  intro hmem
  rw [requestTarget_eq] at hmem
  rcases List.mem_append.1 hmem with hmem | hmem
  · unfold pathOrSlash at hmem
    split at hmem
    · simp at hmem
    · rcases mem_resolve_path hmem with heq | hbase | hown
      · cases heq
      · exact hb.path '#' hbase (by decide)
      · exact hu.path '#' hown (by decide)
  · unfold Reference.queryText at hmem
    cases hq : (resolve base u).query with
    | none =>
      rw [hq] at hmem
      cases hmem
    | some q =>
      rw [hq] at hmem
      have hmemq : '#' ∈ q := by simpa using hmem
      rcases resolve_query base u with heq | heq
      · exact hu.query q (heq.symm.trans hq) hmemq
      · exact hb.query q (heq.symm.trans hq) hmemq

/-- A relative path is cut into the path of the current URL, with its dot segments. -/
theorem directory_append_eq_iff (hb : base.Valid) (ha : base.authority = some a) {path : List Char}
    (hne : path ≠ []) (hdots : NoDots path) (rest : List Char) :
    directory (wholeTarget base) ++ path ++ rest =
        pathOrSlash (removeDotSegments (mergePaths base path)) ++ rest ↔
      '/' ∉ base.queryText ++ base.fragmentText ∧ NoDots (directory base.path) := by
  rw [List.append_left_inj, mergePaths_eq ha]
  have hroot := slash_pathOrSlash hb ha
  by_cases hmem : '/' ∈ base.queryText ++ base.fragmentText
  · refine iff_of_false (fun heq => ?_) (fun h => h.1 hmem)
    have hlt := length_lt_directory_wholeTarget hmem
    have hdir := length_directory_le (pathOrSlash base.path)
    have hrd := length_removeDotSegments_le (directory (pathOrSlash base.path) ++ path)
    have hpos := List.length_pos_iff.2 hne
    have hbase := hroot.length_le
    have hlen := length_pathOrSlash_le (removeDotSegments (directory (pathOrSlash base.path) ++ path))
    rw [← heq] at hlen
    simp only [List.length_append, List.length_singleton] at hlen hrd hbase
    omega
  · have hcut : directory (wholeTarget base) = directory (pathOrSlash base.path) := by
      rw [wholeTarget_eq]
      exact directory_append hmem
    have hstart : ['/'] <+: directory (pathOrSlash base.path) ++ path :=
      (slash_directory hroot).trans (List.prefix_append _ _)
    rw [hcut, eq_comm, pathOrSlash_removeDotSegments hstart, noDots_directory_append,
      noDots_directory_pathOrSlash]
    simp [hmem, hdots]

/-- A query alone is put behind what is left of the path. -/
theorem directory_eq_iff :
    directory (wholeTarget base) = pathOrSlash base.path ↔
      '/' ∉ base.queryText ++ base.fragmentText ∧ directory base.path = base.path := by
  by_cases hmem : '/' ∈ base.queryText ++ base.fragmentText
  · refine iff_of_false (fun heq => ?_) (fun h => h.1 hmem)
    have hlt := length_lt_directory_wholeTarget hmem
    rw [heq] at hlt
    omega
  · rw [wholeTarget_eq, directory_append hmem, directory_pathOrSlash]
    simp [hmem]

/-! ### The whole reference -/

theorem length_le_redirectTail (current : ParsedUrl) (location : List Char) :
    location.length ≤ (redirectTail current location).length := by
  unfold redirectTail
  split
  · exact le_rfl
  · simp

/-- A reference with an authority that is not taken for a URL is taken for a path. -/
theorem not_leadsTo_of_authority {text : String} {b : Uri.Authority} (hcur : parseUrl text = some current)
    (hu : u.Valid) (hauth : u.authority = some b) (hdots : NoDots u.path)
    (habs : ¬("http://".toList <+: u.text ∨ "https://".toList <+: u.text)) :
    ¬LeadsTo current (String.ofList u.text) (resolve base u) := by
  intro h
  have htail := tail_of_leadsTo hcur habs h
  rw [resolve_of_authority hu hauth hdots] at htail
  have hle := length_le_redirectTail current u.text
  have hpath := length_pathOrSlash_le u.path
  have htext : u.text = u.scheme.elim [] (· ++ [':']) ++
      ('/' :: '/' :: (b.text ++ u.path ++ u.queryText ++ u.fragmentText)) := by
    simp [Reference.text, hauth]
  rw [htail, htext, requestTarget_eq] at hle
  simp only [List.length_append, List.length_cons, Reference.queryText] at hle
  omega

theorem leadsTo_absolute_iff {text : List Char}
    (habs : "http://".toList <+: text ∨ "https://".toList <+: text) :
    LeadsTo current (String.ofList text) u ↔
      ∃ url, parseUrl (String.ofList text) = some url ∧ Denotes url u := by
  have hne : String.ofList text ≠ "" := by
    intro hnil
    have hlist : text = [] := by simpa using hnil
    subst hlist
    rcases habs with h | h
    · cases List.prefix_nil.1 h
    · cases List.prefix_nil.1 h
  have hnext : resolveRedirect current (String.ofList text) = some (String.ofList text) := by
    have htext : (String.ofList text).toList = text := String.toList_ofList
    unfold resolveRedirect
    rw [if_neg hne, htext, if_pos habs]
  unfold LeadsTo
  simp only [hnext, Option.some.injEq, exists_and_left, exists_eq_left']

section Relative

variable (hb : base.Valid) (hcur : parseUrl (String.ofList base.text) = some current)
  (hscheme : u.scheme = none) (hauth : u.authority = none)

include hb hcur hscheme hauth

theorem leadsTo_iff_keepsHost
    (habs : ¬("http://".toList <+: u.text ∨ "https://".toList <+: u.text)) :
    LeadsTo current (String.ofList u.text) (resolve base u) ↔
      KeepsHost current base ∧ u.text ≠ [] ∧ redirectTail current u.text = requestTarget (resolve base u) := by
  obtain ⟨hbase, a, ha⟩ := scheme_of_parseUrl hb hcur
  obtain ⟨hs, hau⟩ := resolve_relative base hscheme hauth
  rw [hbase] at hs
  rw [ha] at hau
  rw [leadsTo_relative_iff hcur habs]
  constructor
  · rintro ⟨hne, found, hfound, hden⟩
    obtain ⟨-, -, -, -, -, htarget⟩ := id hden
    exact ⟨keepsHost_of_denotes hb ha hcur hfound hau hden, hne, String.ofList_inj.1 htarget⟩
  · rintro ⟨hkeeps, hne, htail⟩
    refine ⟨hne, _, splitAuthority_hostWithPort hb ha hcur hkeeps, ?_⟩
    rw [denotes_mk hs hau, htail]

end Relative

section Tail

variable (hb : base.Valid) (ha : base.authority = some a) (hu : u.Valid) (hscheme : u.scheme = none)
  (hauth : u.authority = none) (hdots : NoDots u.path)
  (htarget : current.target.toList = wholeTarget base)

include hscheme hauth in
theorem text_relative : u.text = u.path ++ u.queryText ++ u.fragmentText := by
  simp [Reference.text, hscheme, hauth]

include hb hu hscheme hauth in
/-- A fragment is left in the target. -/
theorem redirectTail_ne_of_fragment (hf : u.fragment ≠ none) :
    redirectTail current u.text ≠ requestTarget (resolve base u) := by
  intro heq
  obtain ⟨f, hf⟩ := Option.ne_none_iff_exists'.1 hf
  have hmem : '#' ∈ u.text := by
    rw [text_relative hscheme hauth]
    simp [Reference.fragmentText, hf]
  refine hash_notMem_requestTarget hb hu (heq ▸ ?_)
  unfold redirectTail
  split
  · exact hmem
  · exact List.mem_append_right _ hmem

include hscheme hauth in
theorem text_of_no_fragment (hf : u.fragment = none) : u.text = u.path ++ u.queryText := by
  rw [text_relative hscheme hauth, Reference.fragmentText_eq_nil.2 hf, List.append_nil]

include hscheme hauth hdots in
/-- A path from the root is taken as it is. -/
theorem redirectTail_of_slash (hf : u.fragment = none) (hslash : ['/'] <+: u.path) :
    u.text ≠ [] ∧ redirectTail current u.text = requestTarget (resolve base u) := by
  have hself := (removeDotSegments_eq_self_iff (.inr hslash)).2 hdots
  have hne : u.path ≠ [] := by
    intro hnil
    rw [hnil] at hslash
    cases List.prefix_nil.1 hslash
  rw [text_of_no_fragment hscheme hauth hf]
  refine ⟨by simp [hne], ?_⟩
  rw [redirectTail, if_pos (hslash.trans (List.prefix_append _ _)), requestTarget_eq]
  simp [resolve, hscheme, hauth, hne, hslash, hself, pathOrSlash, Reference.queryText]

include hscheme hauth htarget in
/-- Every other reference is appended to the directory of the whole target. -/
theorem redirectTail_of_not_slash (hf : u.fragment = none) (hslash : ¬['/'] <+: u.path) :
    redirectTail current u.text = directory (wholeTarget base) ++ (u.path ++ u.queryText) := by
  have hhead : ¬['/'] <+: u.path ++ u.queryText := by
    rintro ⟨rest, hrest⟩
    cases hpath : u.path with
    | cons c path =>
      rw [hpath] at hrest
      have hc : '/' = c := (List.cons.inj hrest).1
      exact hslash ⟨path, by rw [hpath, ← hc]; rfl⟩
    | nil =>
      have hq := head_behind u '/'
      rw [Reference.fragmentText_eq_nil.2 hf, List.append_nil] at hq
      rw [hpath, List.nil_append] at hrest
      rw [← hrest] at hq
      exact absurd (hq rfl) (by decide)
  rw [text_of_no_fragment hscheme hauth hf, redirectTail, if_neg hhead, htarget]

include hscheme hauth htarget in
theorem redirectTail_eq_iff_of_empty (hf : u.fragment = none) (hnil : u.path = []) :
    u.text ≠ [] ∧ redirectTail current u.text = requestTarget (resolve base u) ↔
      '/' ∉ base.queryText ++ base.fragmentText ∧ u.query ≠ none ∧ directory base.path = base.path := by
  have hslash : ¬['/'] <+: u.path := by simp [hnil]
  rw [redirectTail_of_not_slash hscheme hauth htarget hf hslash, text_of_no_fragment hscheme hauth hf,
    requestTarget_eq]
  cases hq : u.query with
  | none => simp [hnil, hq]
  | some q =>
    have hpath : (resolve base u).path = base.path := by simp [resolve, hscheme, hauth, hnil]
    have hquery : (resolve base u).queryText = u.queryText := by
      simp [resolve, hscheme, hauth, hnil, hq, Reference.queryText]
    rw [hpath, hquery, hnil, List.nil_append, List.append_left_inj, directory_eq_iff]
    simp [hq]

include hb ha hscheme hauth hdots htarget in
theorem redirectTail_eq_iff_of_path (hf : u.fragment = none) (hne : u.path ≠ [])
    (hslash : ¬['/'] <+: u.path) :
    u.text ≠ [] ∧ redirectTail current u.text = requestTarget (resolve base u) ↔
      '/' ∉ base.queryText ++ base.fragmentText ∧ NoDots (directory base.path) := by
  have hpath : (resolve base u).path = removeDotSegments (mergePaths base u.path) := by
    simp [resolve, hscheme, hauth, hne, hslash]
  have hquery : (resolve base u).queryText = u.queryText := by
    simp [resolve, hscheme, hauth, hne, Reference.queryText]
  rw [redirectTail_of_not_slash hscheme hauth htarget hf hslash, text_of_no_fragment hscheme hauth hf,
    requestTarget_eq, hpath, hquery, ← List.append_assoc, directory_append_eq_iff hb ha hne hdots]
  simp [hne]

include hb ha hu hscheme hauth hdots htarget

theorem redirectTail_eq_iff : u.text ≠ [] ∧ redirectTail current u.text = requestTarget (resolve base u) ↔
    u.fragment = none ∧ (['/'] <+: u.path ∨ '/' ∉ base.queryText ++ base.fragmentText ∧
      (u.path ≠ [] ∧ NoDots (directory base.path) ∨
        u.path = [] ∧ u.query ≠ none ∧ directory base.path = base.path)) := by
  by_cases hf : u.fragment = none
  case neg =>
    have hne : redirectTail current u.text ≠ requestTarget (resolve base u) :=
      redirectTail_ne_of_fragment hb hu hscheme hauth hf
    exact iff_of_false (fun h => hne h.2) (fun h => hf h.1)
  rw [and_iff_right hf]
  by_cases hslash : ['/'] <+: u.path
  · exact iff_of_true (redirectTail_of_slash hscheme hauth hdots hf hslash) (.inl hslash)
  rw [or_iff_right hslash]
  by_cases hnil : u.path = []
  · rw [redirectTail_eq_iff_of_empty hscheme hauth htarget hf hnil]
    simp [hnil]
  · rw [redirectTail_eq_iff_of_path hb ha hscheme hauth hdots htarget hf hnil hslash]
    simp [hnil]

end Tail

/-- For every current URL that `parse_url` takes and every reference without dot segments,
`resolve_redirect` leads where RFC 3986 says exactly in these cases. -/
theorem redirect_resolves_iff (base u : Reference) (current : ParsedUrl) (hb : base.Valid)
    (hcur : parseUrl (String.ofList base.text) = some current) (hu : u.Valid)
    (hhier : ∀ s, u.scheme = some s → u.authority ≠ none) (hdots : NoDots u.path) :
    LeadsTo current (String.ofList u.text) (resolve base u) ↔ RightlyFollowed current base u := by
  obtain ⟨-, a, ha⟩ := scheme_of_parseUrl hb hcur
  have habs := absolute_iff hu hhier
  unfold RightlyFollowed
  cases hscheme : u.scheme with
  | some s =>
    obtain ⟨b, hauth⟩ := Option.ne_none_iff_exists'.1 (hhier s hscheme)
    simp only [hauth]
    by_cases hlower : ∃ https, s = schemeName https
    · obtain ⟨https, rfl⟩ := hlower
      have hpre := habs.2 ⟨https, hscheme⟩
      have hresolve : resolve base u = u := by
        rw [resolve_of_authority hu hauth hdots, hscheme, Option.some_or, ← hscheme]
      have hden := denotes_iff hu hscheme hauth
      rw [hresolve, leadsTo_absolute_iff hpre, hden]
      constructor
      · rintro ⟨hplain, hf, hq⟩
        exact ⟨hf, ⟨https, rfl⟩, hplain, hq⟩
      · rintro ⟨hf, -, hplain, hq⟩
        exact ⟨hplain, hf, hq⟩
    · have hno : ¬("http://".toList <+: u.text ∨ "https://".toList <+: u.text) := by
        rw [habs, hscheme]
        simpa using hlower
      exact iff_of_false (not_leadsTo_of_authority hcur hu hauth hdots hno) (fun h => hlower h.2.1)
  | none =>
    have hno : ¬("http://".toList <+: u.text ∨ "https://".toList <+: u.text) := by
      rw [habs, hscheme]
      simp
    cases hauth : u.authority with
    | some b => exact iff_of_false (not_leadsTo_of_authority hcur hu hauth hdots hno) (fun h => h.2)
    | none =>
      dsimp only
      rw [leadsTo_iff_keepsHost hb hcur hscheme hauth hno]
      by_cases hkeeps : KeepsHost current base
      · have htarget : current.target.toList = wholeTarget base := by
          rw [(current_eq hb ha hcur hkeeps.1).2, String.toList_ofList]
        rw [redirectTail_eq_iff hb ha hu hscheme hauth hdots htarget]
        simp [hkeeps]
      · simp [hkeeps]

/-- `https://h:8443/a/b`. -/
def currentUrl : Reference := httpUrl true "h" (some "8443") "/a/b" none none

theorem currentUrl_valid : currentUrl.Valid :=
  httpUrl_valid (by decide) (by decide) (by decide) (by decide)

/-- The relative path `c/d` leads to `https://h:8443/a/c/d`. -/
theorem redirect_resolves_path : LeadsTo ⟨true, "h", "8443", "/a/b"⟩ "c/d"
    (resolve currentUrl ⟨none, none, "c/d".toList, none, none⟩) := by
  refine (redirect_resolves_iff currentUrl ⟨none, none, "c/d".toList, none, none⟩
    ⟨true, "h", "8443", "/a/b"⟩ currentUrl_valid (by decide) ?_ ?_ (by decide)).2 ?_
  · exact ⟨by rintro s ⟨⟩, by rintro a ⟨⟩, List.all_iff_forall_prop.1 (by decide), by rintro q ⟨⟩,
      by decide, by decide⟩
  · rintro s ⟨⟩
  · exact ⟨rfl, ⟨by decide, by decide⟩, .inr ⟨by decide, .inl ⟨by decide, by decide⟩⟩⟩

/-- `//cdn/x` is followed to the path `//cdn/x` of the current host. -/
theorem networkPath_taken_for_path :
    (⟨none, some ⟨none, "cdn".toList, none⟩, "/x".toList, none, none⟩ : Reference).text = "//cdn/x".toList ∧
      parseUrl (String.ofList currentUrl.text) = some ⟨true, "h", "8443", "/a/b"⟩ ∧
      resolveRedirect ⟨true, "h", "8443", "/a/b"⟩ "//cdn/x" = some "https://h:8443//cdn/x" ∧
      ¬LeadsTo ⟨true, "h", "8443", "/a/b"⟩ "//cdn/x"
        (resolve currentUrl ⟨none, some ⟨none, "cdn".toList, none⟩, "/x".toList, none, none⟩) := by
  have hnext : resolveRedirect ⟨true, "h", "8443", "/a/b"⟩ "//cdn/x" = some "https://h:8443//cdn/x" := by
    decide
  refine ⟨by decide, by decide, hnext, ?_⟩
  rintro ⟨next, url, hnext', hparse, hden⟩
  rw [hnext, Option.some.injEq] at hnext'
  subst hnext'
  have hurl : parseUrl "https://h:8443//cdn/x" = some ⟨true, "h", "8443", "//cdn/x"⟩ := by decide
  rw [hurl, Option.some.injEq] at hparse
  subst hparse
  have hhost := host_eq_of_denotes (a := ⟨none, "cdn".toList, none⟩) hden rfl
  exact absurd hhost (by decide)

end Cmlb.Http
