import Mathlib.Data.Bool.AllAny
import Cmlb.Http.BeastClient
import Cmlb.Lib.UriReference

/-!
# What `parse_url` finds

`parse_url` ends the authority at the first slash and nowhere else, and takes all from there on for the
target. For a valid http(s) URL that is what the URL denotes exactly if it has no fragment, and no query
right behind the authority (`denotes_iff`, `parse_url_finds_iff`).
-/

namespace Cmlb.Http

open Uri

def schemeName (https : Bool) : List Char := if https then "https".toList else "http".toList

/-- The port of an authority; an empty one is the scheme's own. -/
def portOf (https : Bool) (a : Uri.Authority) : String :=
  match a.port with
  | some (c :: digits) => String.ofList (c :: digits)
  | _ => defaultPort https

/-- The path, or a slash for an empty one, and the query. -/
def requestTarget (u : Reference) : List Char := (if u.path = [] then ['/'] else u.path) ++ u.queryText

/-- The parsed URL has the scheme, the host, the port, the path and the query of `u`. -/
def Denotes (url : ParsedUrl) (u : Reference) : Prop :=
  ∃ a, u.authority = some a ∧ u.scheme.map (List.map Char.toLower) = some (schemeName url.https) ∧
    url.host = String.ofList a.host ∧ url.port = portOf url.https a ∧
    url.target = String.ofList (requestTarget u)

/-- An authority that `parse_url` takes: without user information and without an empty port, and with a
port behind a literal that has colons. -/
def Plain (a : Uri.Authority) : Prop :=
  a.userinfo = none ∧ a.port ≠ some [] ∧ (a.port = none → ':' ∉ a.host)

instance (a : Uri.Authority) : Decidable (Plain a) := inferInstanceAs (Decidable (_ ∧ _ ∧ (_ → _)))

variable {https : Bool} {authority tail : List Char} {host port : String} {u : Reference} {a : Uri.Authority}
  {url : ParsedUrl} {c : Char}

/-! ### The authority -/

theorem splitAuthority_host {h : List Char} (hat : '@' ∉ h) (hcolon : ':' ∉ h) (hne : h ≠ []) :
    splitAuthority https h = some (String.ofList h, defaultPort https) := by
  rw [splitAuthority, if_neg hat, if_neg hcolon, if_neg hne]

theorem splitAuthority_port {h p : List Char} (hat : '@' ∉ h) (hne : h ≠ []) (hp : p ≠ [])
    (hdigits : p.all Char.isDigit = true) :
    splitAuthority https (h ++ ':' :: p) = some (String.ofList h, String.ofList p) := by
  have hno : ∀ c, Char.isDigit c = false → c ∉ p := by
    intro c hc hmem
    rw [List.all_eq_true.1 hdigits c hmem] at hc
    cases hc
  have hat' : '@' ∉ h ++ ':' :: p := by simp [hat, hno '@' rfl]
  unfold splitAuthority
  rw [if_neg hat', if_pos (by simp)]
  dsimp only
  rw [rdropWhile_last (hno ':' rfl), rtakeWhile_last (hno ':' rfl), List.dropLast_concat, if_neg]
  simp [hne, hp, hdigits]

/-- What an authority that is taken is put together from. -/
theorem splitAuthority_inv (h : splitAuthority https authority = some (host, port)) :
    '@' ∉ authority ∧ host ≠ "" ∧
      ((authority = host.toList ∧ ':' ∉ authority ∧ port = defaultPort https) ∨
        (authority = host.toList ++ ':' :: port.toList ∧ port ≠ "" ∧
          port.toList.all Char.isDigit = true)) := by
  unfold splitAuthority at h
  split at h
  · cases h
  · rename_i hat
    refine ⟨hat, ?_⟩
    split at h
    · rename_i hcolon
      obtain ⟨before, after, rfl, hafter⟩ := exists_last hcolon
      dsimp only at h
      rw [rdropWhile_last hafter, rtakeWhile_last hafter, List.dropLast_concat] at h
      split at h
      · cases h
      · rename_i hgood
        simp only [not_or, not_not] at hgood
        cases h
        refine ⟨by simpa using hgood.1, .inr ?_⟩
        simpa using hgood.2
    · split at h
      · cases h
      · rename_i hcolon hne
        cases h
        exact ⟨by simpa using hne, .inl (by simpa using hcolon)⟩

/-- A sign that is neither a colon nor a digit is a part of the host. -/
theorem mem_host_of_splitAuthority (h : splitAuthority https authority = some (host, port))
    (hc : c ∈ authority) (hcolon : c ≠ ':') (hdigit : c.isDigit = false) : c ∈ host.toList := by
  obtain ⟨-, -, ⟨rfl, -, -⟩ | ⟨rfl, -, hdigits⟩⟩ := splitAuthority_inv h
  · exact hc
  · rcases List.mem_append.1 hc with hc | hc
    · exact hc
    · rcases List.mem_cons.1 hc with rfl | hc
      · exact absurd rfl hcolon
      · rw [List.all_eq_true.1 hdigits c hc] at hdigit
        cases hdigit

/-! ### The whole URL -/

/-- The scheme with what sets it apart. -/
def schemeText (https : Bool) : List Char := if https then "https://".toList else "http://".toList

theorem splitScheme_schemeText (https : Bool) (rest : List Char) :
    splitScheme (schemeText https ++ rest) = some (https, rest) := by
  cases https with
  | false => simp [splitScheme, schemeText]
  | true => simp [splitScheme, schemeText]

theorem splitScheme_inv {url rest : List Char} (h : splitScheme url = some (https, rest)) :
    url = schemeText https ++ rest := by
  unfold splitScheme at h
  split at h
  · rename_i hpre
    cases h
    obtain ⟨more, rfl⟩ := hpre
    simp [schemeText]
  · split at h
    · rename_i hpre
      cases h
      obtain ⟨more, rfl⟩ := hpre
      simp [schemeText]
    · cases h

theorem dropWhile_slash (xs : List Char) :
    xs.dropWhile (· != '/') = [] ∨ ['/'] <+: xs.dropWhile (· != '/') := by
  cases hrest : xs.dropWhile (· != '/') with
  | nil => exact .inl rfl
  | cons c more =>
    have hne : xs.dropWhile (· != '/') ≠ [] := by simp [hrest]
    have hc := List.head_dropWhile_not (· != '/') hne
    simp only [hrest, List.head_cons, bne_eq_false_iff_eq] at hc
    exact .inr ⟨more, by rw [hc]; rfl⟩

theorem parseUrl_text (hslash : '/' ∉ authority) (htail : tail = [] ∨ ['/'] <+: tail) :
    parseUrl (String.ofList (schemeText https ++ (authority ++ tail))) =
      (splitAuthority https authority).map fun found =>
        ⟨https, found.1, found.2, if tail = [] then "/" else String.ofList tail⟩ := by
  have hauth : ∀ c ∈ authority, (c != '/') = true := by
    intro c hc
    have hne : c ≠ '/' := by
      rintro rfl
      exact hslash hc
    simpa using hne
  have htake : (authority ++ tail).takeWhile (· != '/') = authority := by
    rw [List.takeWhile_append_of_pos hauth]
    rcases htail with rfl | ⟨rest, rfl⟩ <;> simp
  have hdrop : (authority ++ tail).dropWhile (· != '/') = tail := by
    rw [List.dropWhile_append_of_pos hauth]
    rcases htail with rfl | ⟨rest, rfl⟩ <;> simp
  unfold parseUrl
  rw [String.toList_ofList, splitScheme_schemeText]
  dsimp only
  rw [htake, hdrop]
  cases splitAuthority https authority with
  | none => rfl
  | some found => rfl

theorem parseUrl_inv {text : String} (h : parseUrl text = some url) : ∃ authority tail,
    text.toList = schemeText url.https ++ (authority ++ tail) ∧ '/' ∉ authority ∧
      (tail = [] ∨ ['/'] <+: tail) ∧ splitAuthority url.https authority = some (url.host, url.port) ∧
      url.target = if tail = [] then "/" else String.ofList tail := by
  obtain ⟨rest, hscheme, hauth, htarget⟩ := parseUrl_eq_some h
  refine ⟨rest.takeWhile (· != '/'), rest.dropWhile (· != '/'), ?_, ?_, ?_, hauth, htarget⟩
  · rw [List.takeWhile_append_dropWhile]
    exact splitScheme_inv hscheme
  · intro hmem
    simpa using List.mem_takeWhile_imp hmem
  · exact dropWhile_slash rest

/-! ### What a valid URL denotes -/

theorem splitAuthority_text (ha : a.Valid) (h : Plain a) :
    splitAuthority https a.text = some (String.ofList a.host, portOf https a) := by
  obtain ⟨huser, hport, hcolon⟩ := h
  have hat : '@' ∉ a.host := fun hmem => absurd (ha.mem_host hmem) (by decide)
  cases hp : a.port with
  | none =>
    have htext : a.text = a.host := by simp [Uri.Authority.text, huser, hp]
    have hport : portOf https a = defaultPort https := by simp [portOf, hp]
    rw [htext, hport]
    exact splitAuthority_host hat (hcolon hp) ha.nonempty
  | some p =>
    cases p with
    | nil => exact absurd hp hport
    | cons c digits =>
      have htext : a.text = a.host ++ ':' :: (c :: digits) := by simp [Uri.Authority.text, huser, hp]
      have hport : portOf https a = String.ofList (c :: digits) := by simp [portOf, hp]
      rw [htext, hport]
      exact splitAuthority_port hat ha.nonempty (by simp) (ha.port _ hp)

/-- The last sign of a taken authority with a port is a digit. -/
theorem splitAuthority_concat {xs : List Char} (hcolon : ':' ∈ xs ++ [c]) (hdigit : c.isDigit = false) :
    splitAuthority https (xs ++ [c]) = none := by
  refine Option.eq_none_iff_forall_not_mem.2 ?_
  rintro ⟨host, port⟩ hfound
  obtain ⟨-, -, ⟨-, hno, -⟩ | ⟨heq, hne, hdigits⟩⟩ := splitAuthority_inv hfound
  · exact hno hcolon
  · have hport : port.toList ≠ [] := by simpa using hne
    have hlast := congrArg List.getLast? heq
    rw [List.getLast?_concat, List.getLast?_append, List.getLast?_cons_of_ne_nil hport,
      List.getLast?_eq_some_getLast hport, Option.some_or, Option.some.injEq] at hlast
    rw [hlast, List.all_eq_true.1 hdigits _ (List.getLast_mem hport)] at hdigit
    cases hdigit

theorem splitAuthority_text_of_not_plain (ha : a.Valid) (h : ¬Plain a) :
    splitAuthority https a.text = none := by
  cases huser : a.userinfo with
  | some u =>
    have hat : '@' ∈ a.text := by simp [Uri.Authority.text, huser]
    rw [splitAuthority, if_pos hat]
  | none =>
    cases hp : a.port with
    | none =>
      have htext : a.text = a.host := by simp [Uri.Authority.text, huser, hp]
      have hcolon : ':' ∈ a.host := by
        by_contra hno
        exact h ⟨huser, by simp [hp], fun _ => hno⟩
      obtain ⟨literal, hhost⟩ := ha.bracketed hcolon
      rw [htext]
      rw [hhost] at hcolon ⊢
      exact splitAuthority_concat hcolon rfl
    | some p =>
      have hnil : p = [] := by
        by_contra hne
        exact h ⟨huser, by simpa [hp] using hne, by simp [hp]⟩
      have htext : a.text = a.host ++ [':'] := by simp [Uri.Authority.text, huser, hp, hnil]
      rw [htext]
      exact splitAuthority_concat (by simp) rfl

theorem text_eq (hscheme : u.scheme = some (schemeName https)) (ha : u.authority = some a) :
    u.text = schemeText https ++ (a.text ++ (u.path ++ u.queryText ++ u.fragmentText)) := by
  cases https <;> simp [Reference.text, schemeText, schemeName, hscheme, ha]

/-- What follows the authority without a slash becomes a part of the host. -/
theorem mem_host_of_parseUrl {xs more : List Char} (hslash : '/' ∉ xs)
    (hc : c ≠ '/' ∧ c ≠ ':' ∧ c.isDigit = false)
    (h : parseUrl (String.ofList (schemeText https ++ (xs ++ c :: more))) = some url) :
    c ∈ url.host.toList := by
  have hsplit : xs ++ c :: more =
      (xs ++ c :: more.takeWhile (· != '/')) ++ more.dropWhile (· != '/') := by simp
  have hno : '/' ∉ xs ++ c :: more.takeWhile (· != '/') := by
    intro hmem
    rcases List.mem_append.1 hmem with hmem | hmem
    · exact hslash hmem
    · rcases List.mem_cons.1 hmem with heq | hmem
      · exact hc.1 heq.symm
      · simpa using List.mem_takeWhile_imp hmem
  have htail : more.dropWhile (· != '/') = [] ∨ ['/'] <+: more.dropWhile (· != '/') :=
    dropWhile_slash more
  rw [hsplit, parseUrl_text hno htail] at h
  obtain ⟨⟨host, port⟩, hfound, rfl⟩ := Option.map_eq_some_iff.1 h
  exact mem_host_of_splitAuthority hfound (by simp) hc.2.1 hc.2.2

theorem host_eq_of_denotes (h : Denotes url u) (ha : u.authority = some a) : url.host.toList = a.host := by
  obtain ⟨a', ha', -, hhost, -⟩ := h
  rw [ha] at ha'
  cases ha'
  rw [hhost, String.toList_ofList]

theorem denotes_mk {target : String} (hscheme : u.scheme = some (schemeName https))
    (ha : u.authority = some a) :
    Denotes ⟨https, String.ofList a.host, portOf https a, target⟩ u ↔
      target = String.ofList (requestTarget u) := by
  constructor
  · rintro ⟨-, -, -, -, -, htarget⟩
    exact htarget
  · intro htarget
    refine ⟨a, ha, ?_, rfl, rfl, htarget⟩
    rw [hscheme]
    cases https <;> rfl

/-- What is found behind the authority: the target to request, with the fragment left in it. -/
def wholeTarget (u : Reference) : List Char :=
  (if u.path = [] then ['/'] else u.path) ++ u.queryText ++ u.fragmentText

theorem slash_notMem_text (ha : a.Valid) : '/' ∉ a.text := by
  intro hmem
  rcases ha.mem_text hmem with hin | hat
  · exact absurd hin (by decide)
  · exact absurd hat (by decide)

theorem parseUrl_reference (hu : u.Valid) (hscheme : u.scheme = some (schemeName https))
    (ha : u.authority = some a) (hpath : u.path = [] → u.query = none ∧ u.fragment = none) :
    parseUrl (String.ofList u.text) = if Plain a then
      some ⟨https, String.ofList a.host, portOf https a, String.ofList (wholeTarget u)⟩ else none := by
  have hvalid := hu.authority a ha
  have htail : u.path ++ u.queryText ++ u.fragmentText = [] ∨
      ['/'] <+: u.path ++ u.queryText ++ u.fragmentText := by
    have hhier := hu.hier
    rw [ha, Option.isSome_some, if_pos rfl] at hhier
    rcases hhier with hnil | hslash
    · exact .inl (by simp [hnil, hpath hnil])
    · exact .inr (hslash.trans (by simp [List.append_assoc]))
  have htarget : (if u.path ++ u.queryText ++ u.fragmentText = [] then "/"
      else String.ofList (u.path ++ u.queryText ++ u.fragmentText)) = String.ofList (wholeTarget u) := by
    by_cases hnil : u.path = []
    · obtain ⟨hq, hf⟩ := hpath hnil
      rw [if_pos (by simp [hnil, hq, hf]), wholeTarget, if_pos hnil, Reference.queryText_eq_nil.2 hq,
        Reference.fragmentText_eq_nil.2 hf]
      rfl
    · rw [if_neg (by simp [hnil]), wholeTarget, if_neg hnil]
  rw [text_eq hscheme ha, parseUrl_text (slash_notMem_text hvalid) htail, htarget]
  by_cases hplain : Plain a
  · rw [splitAuthority_text hvalid hplain, if_pos hplain, Option.map_some]
  · rw [splitAuthority_text_of_not_plain hvalid hplain, if_neg hplain, Option.map_none]

/-- A query or a fragment right behind the authority is taken into the host. -/
theorem mem_host_of_behind (hu : u.Valid) (hscheme : u.scheme = some (schemeName https))
    (ha : u.authority = some a) (hpath : u.path = []) (hsome : ¬(u.query = none ∧ u.fragment = none))
    (hparse : parseUrl (String.ofList u.text) = some url) :
    ∃ c, inAuthority c = false ∧ c ≠ ':' ∧ c.isDigit = false ∧ c ∈ url.host.toList := by
  obtain ⟨c, more, hrest, hc⟩ : ∃ c more, u.path ++ u.queryText ++ u.fragmentText = c :: more ∧
      (c = '?' ∨ c = '#') := by
    cases hq : u.query with
    | some q => exact ⟨'?', q ++ u.fragmentText, by simp [hpath, Reference.queryText, hq], .inl rfl⟩
    | none =>
      cases hf : u.fragment with
      | some f =>
        exact ⟨'#', f, by simp [hpath, Reference.queryText, Reference.fragmentText, hq, hf], .inr rfl⟩
      | none => exact absurd ⟨hq, hf⟩ hsome
  rw [text_eq hscheme ha, hrest] at hparse
  have hslash := slash_notMem_text (hu.authority a ha)
  have hmem := mem_host_of_parseUrl hslash (by rcases hc with rfl | rfl <;> decide) hparse
  refine ⟨c, ?_, ?_, ?_, hmem⟩
  all_goals rcases hc with rfl | rfl <;> decide

theorem not_denotes_of_mem_host (ha : u.authority = some a) (hvalid : a.Valid)
    (hc : inAuthority c = false) (hmem : c ∈ url.host.toList) : ¬Denotes url u := by
  intro hden
  rw [host_eq_of_denotes hden ha] at hmem
  rw [hvalid.mem_host hmem] at hc
  cases hc

/-- A valid URL is parsed to what it denotes exactly if its authority is taken, it has no fragment, and
its query does not come right behind the authority. -/
theorem denotes_iff (hu : u.Valid) (hscheme : u.scheme = some (schemeName https))
    (ha : u.authority = some a) :
    (∃ url, parseUrl (String.ofList u.text) = some url ∧ Denotes url u) ↔
      Plain a ∧ u.fragment = none ∧ (u.path = [] → u.query = none) := by
  by_cases hbehind : u.path = [] ∧ ¬(u.query = none ∧ u.fragment = none)
  · obtain ⟨hpath, hsome⟩ := hbehind
    refine iff_of_false ?_ ?_
    · rintro ⟨url, hparse, hden⟩
      obtain ⟨c, hc, -, -, hmem⟩ := mem_host_of_behind hu hscheme ha hpath hsome hparse
      exact not_denotes_of_mem_host ha (hu.authority a ha) hc hmem hden
    · rintro ⟨-, hf, hq⟩
      exact hsome ⟨hq hpath, hf⟩
  · have hpath : u.path = [] → u.query = none ∧ u.fragment = none := fun hpath =>
      not_not.1 (not_and.1 hbehind hpath)
    rw [parseUrl_reference hu hscheme ha hpath]
    by_cases hplain : Plain a
    · have htarget : String.ofList (wholeTarget u) = String.ofList (requestTarget u) ↔
          u.fragment = none := by
        rw [String.ofList_inj]
        simp [wholeTarget, requestTarget]
      rw [if_pos hplain, and_iff_right hplain]
      simp only [Option.some.injEq, exists_eq_left', denotes_mk hscheme ha, htarget]
      exact ⟨fun hf => ⟨hf, fun hnil => (hpath hnil).1⟩, fun h => h.1⟩
    · simp [hplain]

/-- For every URL whose host has no signs of its own kind, `parse_url` finds the host, the port and the
target exactly if the URL has no fragment, and no query where it has no path. -/
theorem parse_url_finds_iff (u : Reference) (a : Uri.Authority) (https : Bool) (hu : u.Valid)
    (hscheme : u.scheme = some (schemeName https)) (ha : u.authority = some a)
    (huser : a.userinfo = none) (hhost : ':' ∉ a.host) (hport : a.port ≠ some []) :
    (∃ url, parseUrl (String.ofList u.text) = some url ∧ Denotes url u) ↔
      u.fragment = none ∧ (u.path = [] → u.query = none) := by
  rw [denotes_iff hu hscheme ha]
  exact and_iff_right ⟨huser, hport, fun _ => hhost⟩

/-- A URL of this scheme, with a host and a port alone in its authority. -/
def httpUrl (https : Bool) (host : String) (port : Option String) (path : String)
    (query fragment : Option String) : Reference :=
  ⟨some (schemeName https), some ⟨none, host.toList, port.map String.toList⟩, path.toList,
    query.map String.toList, fragment.map String.toList⟩

theorem notMem_schemeName (https : Bool) : ∀ c ∈ schemeName https, c ∉ [':', '/', '?', '#'] := by
  cases https
  · exact List.all_iff_forall_prop.1 (by decide)
  · exact List.all_iff_forall_prop.1 (by decide)

theorem httpUrl_valid {path : String} {port query fragment : Option String}
    (hhost : host ≠ "" ∧ host.toList.all (fun c => inAuthority c && c != ':') = true)
    (hport : ∀ p, port = some p → p.toList.all Char.isDigit = true)
    (hpath : (path = "" ∨ ['/'] <+: path.toList) ∧ path.toList.all (fun c => decide (c ∉ ['?', '#'])) = true)
    (hquery : ∀ q, query = some q → '#' ∉ q.toList) :
    (httpUrl https host port path query fragment).Valid where
  scheme := by
    rintro s ⟨⟩
    exact ⟨by cases https <;> decide, notMem_schemeName https⟩
  authority := by
    rintro a ⟨⟩
    refine ⟨fun u hu => ?_, by simpa using hhost.1, .inl hhost.2, fun p hp => ?_⟩
    · cases hu
    · obtain ⟨p', hp', rfl⟩ := Option.map_eq_some_iff.1 hp
      exact hport p' hp'
  path := List.all_iff_forall_prop.1 hpath.2
  query := by
    intro q hq
    obtain ⟨q', hq', rfl⟩ := Option.map_eq_some_iff.1 hq
    exact hquery q' hq'
  hier := hpath.1.imp_left fun h => by simp [httpUrl, h]
  noscheme := by rintro ⟨⟩

/-- `http://h:8080/p?q=a/b`. -/
def urlWithQuery : Reference := httpUrl false "h" (some "8080") "/p" (some "q=a/b") none

theorem parse_url_finds_query :
    ∃ url, parseUrl (String.ofList urlWithQuery.text) = some url ∧ Denotes url urlWithQuery := by
  refine (parse_url_finds_iff urlWithQuery ⟨none, ['h'], some "8080".toList⟩ false ?_ rfl rfl rfl
    (by decide) (by decide)).2 ⟨rfl, by decide⟩
  exact httpUrl_valid (by decide) (by rintro p ⟨⟩; decide) (by decide) (by rintro q ⟨⟩; decide)

/-- `http://h?q=1`. -/
def queryBehindHost : Reference := httpUrl false "h" none "" (some "q=1") none

theorem query_taken_for_host : queryBehindHost.Valid ∧
    String.ofList queryBehindHost.text = "http://h?q=1" ∧
    parseUrl "http://h?q=1" = some ⟨false, "h?q=1", "80", "/"⟩ ∧
    ¬∃ url, parseUrl (String.ofList queryBehindHost.text) = some url ∧ Denotes url queryBehindHost := by
  have htext : String.ofList queryBehindHost.text = "http://h?q=1" := by decide
  have hparse : parseUrl "http://h?q=1" = some ⟨false, "h?q=1", "80", "/"⟩ := by decide
  refine ⟨?_, htext, hparse, ?_⟩
  · exact httpUrl_valid (by decide) (by rintro p ⟨⟩) (by decide) (by rintro q ⟨⟩; decide)
  · rintro ⟨url, hurl, hden⟩
    rw [htext, hparse] at hurl
    cases hurl
    have hhost := host_eq_of_denotes hden rfl
    revert hhost
    decide

end Cmlb.Http
