import Mathlib.Data.List.DropRight

/-!
# URI references and their resolution

The components of a reference and their text as in RFC 3986 (sections 3 and 5.3), and the resolution
of a reference against a base URI (5.2.2, without the exception for references with a scheme). The
characters that a component may have are only said as far as they keep the components apart, so a
`Valid` reference may have more characters than the grammar's. Dot segments are removed from paths that
are empty or begin with a slash, which the path of a URI with an authority is; removing them changes a
path exactly if it has some (`removeDotSegments_eq_self_iff`).
-/

namespace Uri

/-! ### Components -/

/-- `authority = [ userinfo "@" ] host [ ":" port ]` -/
structure Authority where
  userinfo : Option (List Char)
  host : List Char
  port : Option (List Char)
deriving DecidableEq

def Authority.text (a : Authority) : List Char :=
  a.userinfo.elim [] (· ++ ['@']) ++ a.host ++ a.port.elim [] (':' :: ·)

/-- A character that neither ends an authority nor the user information. -/
def inAuthority (c : Char) : Bool := c ∉ ['/', '?', '#', '@']

/-- A host with a colon is a literal in brackets. -/
structure Authority.Valid (a : Authority) : Prop where
  userinfo : ∀ u, a.userinfo = some u → u.all inAuthority = true
  nonempty : a.host ≠ []
  host : a.host.all (fun c => inAuthority c && c != ':') = true ∨
    ∃ literal, a.host = '[' :: literal ++ [']'] ∧ literal.all inAuthority = true
  port : ∀ p, a.port = some p → p.all Char.isDigit = true

namespace Authority

variable {a : Authority} {c : Char}

theorem inAuthority_of_isDigit (h : c.isDigit = true) : inAuthority c = true := by
  refine decide_eq_true fun hmem => ?_
  simp only [List.mem_cons, List.not_mem_nil, or_false] at hmem
  rcases hmem with rfl | rfl | rfl | rfl <;> simp at h

theorem Valid.mem_host (h : a.Valid) (hc : c ∈ a.host) : inAuthority c = true := by
  rcases h.host with hall | ⟨literal, hhost, hall⟩
  · have hplain := List.all_eq_true.1 hall c hc
    simp only [Bool.and_eq_true] at hplain
    exact hplain.1
  · rw [hhost] at hc
    simp only [List.cons_append, List.mem_cons, List.mem_append, List.not_mem_nil, or_false] at hc
    rcases hc with rfl | hc | rfl
    · rfl
    · exact List.all_eq_true.1 hall c hc
    · rfl

theorem Valid.bracketed (h : a.Valid) (hc : ':' ∈ a.host) : ∃ literal, a.host = literal ++ [']'] := by
  rcases h.host with hall | ⟨literal, hhost, -⟩
  · have hplain := List.all_eq_true.1 hall ':' hc
    simp at hplain
  · exact ⟨'[' :: literal, hhost⟩

theorem Valid.mem_port {p : List Char} (h : a.Valid) (hp : a.port = some p) (hc : c ∈ p) :
    c.isDigit = true :=
  List.all_eq_true.1 (h.port p hp) c hc

/-- An authority has none of the signs that end it. -/
theorem Valid.mem_text (h : a.Valid) (hc : c ∈ a.text) : inAuthority c = true ∨ c = '@' := by
  simp only [text, List.mem_append] at hc
  rcases hc with (hc | hc) | hc
  · cases huser : a.userinfo with
    | none => simp [huser] at hc
    | some u =>
      simp only [huser, Option.elim_some, List.mem_append, List.mem_singleton] at hc
      exact hc.imp_left fun hc => List.all_eq_true.1 (h.userinfo u huser) c hc
  · exact .inl (h.mem_host hc)
  · cases hport : a.port with
    | none => simp [hport] at hc
    | some p =>
      simp only [hport, Option.elim_some, List.mem_cons] at hc
      rcases hc with rfl | hc
      · exact .inl rfl
      · exact .inl (inAuthority_of_isDigit (h.mem_port hport hc))

end Authority

structure Reference where
  scheme : Option (List Char)
  authority : Option Authority
  path : List Char
  query : Option (List Char)
  fragment : Option (List Char)
deriving DecidableEq

namespace Reference

def queryText (u : Reference) : List Char := u.query.elim [] ('?' :: ·)

def fragmentText (u : Reference) : List Char := u.fragment.elim [] ('#' :: ·)

@[simp] theorem queryText_eq_nil {u : Reference} : u.queryText = [] ↔ u.query = none := by
  cases hq : u.query <;> simp [queryText, hq]

@[simp] theorem fragmentText_eq_nil {u : Reference} : u.fragmentText = [] ↔ u.fragment = none := by
  cases hf : u.fragment <;> simp [fragmentText, hf]

/-- Component recomposition. -/
def text (u : Reference) : List Char :=
  u.scheme.elim [] (· ++ [':']) ++ u.authority.elim [] (fun a => '/' :: '/' :: a.text) ++ u.path ++
    u.queryText ++ u.fragmentText

structure Valid (u : Reference) : Prop where
  scheme : ∀ s, u.scheme = some s → s ≠ [] ∧ ∀ c ∈ s, c ∉ [':', '/', '?', '#']
  authority : ∀ a, u.authority = some a → a.Valid
  path : ∀ c ∈ u.path, c ∉ ['?', '#']
  query : ∀ q, u.query = some q → '#' ∉ q
  /-- The path is empty or begins with a slash where there is an authority, and does not look like one
  where there is none. -/
  hier : if u.authority.isSome then u.path = [] ∨ ['/'] <+: u.path else ¬['/', '/'] <+: u.path
  /-- The first segment of a path does not look like a scheme. -/
  noscheme : u.scheme = none → u.authority = none → ':' ∉ u.path.takeWhile (· != '/')

end Reference

/-! ### Dot segments -/

def IsDot (segment : List Char) : Prop := segment = ['.'] ∨ segment = ['.', '.']

instance (segment : List Char) : Decidable (IsDot segment) := inferInstanceAs (Decidable (_ ∨ _))

/-- The output buffer has its last segment first. A dot segment at the end leaves its slash. -/
def dropDots : List (List Char) → List (List Char) → List (List Char)
  | out, [] => out.reverse
  | out, [s] =>
    if s = ['.'] then ([] :: out).reverse
    else if s = ['.', '.'] then ([] :: out.tail).reverse
    else (s :: out).reverse
  | out, s :: rest =>
    if s = ['.'] then dropDots out rest
    else if s = ['.', '.'] then dropDots out.tail rest
    else dropDots (s :: out) rest

/-- The segments with a slash before each. -/
def slashed (segments : List (List Char)) : List Char := segments.flatMap ('/' :: ·)

def removeDotSegments : List Char → List Char
  | '/' :: rest => slashed (dropDots [] (rest.splitOn '/'))
  | path => path

def NoDots (path : List Char) : Prop := ∀ s ∈ path.splitOn '/', ¬IsDot s

instance (path : List Char) : Decidable (NoDots path) := inferInstanceAs (Decidable (∀ _ ∈ _, _))

/-! ### Resolution -/

/-- All of a path but what follows its last slash. -/
def directory (path : List Char) : List Char := path.rdropWhile (· != '/')

def mergePaths (base : Reference) (path : List Char) : List Char :=
  if base.authority.isSome ∧ base.path = [] then '/' :: path else directory base.path ++ path

def resolve (base u : Reference) : Reference :=
  if u.scheme.isSome then { u with path := removeDotSegments u.path }
  else if u.authority.isSome then { u with scheme := base.scheme, path := removeDotSegments u.path }
  else if u.path = [] then
    { base with query := if u.query.isSome then u.query else base.query, fragment := u.fragment }
  else
    { scheme := base.scheme
      authority := base.authority
      path := removeDotSegments (if ['/'] <+: u.path then u.path else mergePaths base u.path)
      query := u.query
      fragment := u.fragment }

/-! ### Last separators -/

section Last

variable {α : Type*} {sep : α} {xs before after : List α}

theorem exists_last (h : sep ∈ xs) : ∃ before after, xs = before ++ sep :: after ∧ sep ∉ after := by
  obtain ⟨l, r, hxs, hl⟩ := List.eq_append_cons_of_mem (List.mem_reverse.2 h)
  refine ⟨r.reverse, l.reverse, ?_, by simpa using hl⟩
  rw [← List.reverse_reverse xs, hxs]
  simp

variable [DecidableEq α]

theorem mem_rest (h : sep ∉ after) : ∀ a ∈ after.reverse, (a != sep) = true := by
  intro a ha
  have hne : a ≠ sep := by
    rintro rfl
    exact h (List.mem_reverse.1 ha)
  simpa using hne

theorem rdropWhile_last (h : sep ∉ after) :
    (before ++ sep :: after).rdropWhile (· != sep) = before ++ [sep] := by
  have hrev : (before ++ sep :: after).reverse = after.reverse ++ sep :: before.reverse := by simp
  rw [List.rdropWhile, hrev, List.dropWhile_append_of_pos (mem_rest h)]
  simp

theorem rtakeWhile_last (h : sep ∉ after) :
    (before ++ sep :: after).rtakeWhile (· != sep) = after := by
  have hrev : (before ++ sep :: after).reverse = after.reverse ++ sep :: before.reverse := by simp
  rw [List.rtakeWhile, hrev, List.takeWhile_append_of_pos (mem_rest h)]
  simp

end Last

/-! ### Removing dot segments -/

variable {out segments : List (List Char)} {path d rest : List Char}

theorem dropDots_of_noDots (h : ∀ s ∈ segments, ¬IsDot s) :
    dropDots out segments = out.reverse ++ segments := by
  induction segments generalizing out with
  | nil => simp [dropDots]
  | cons s rest ih =>
    obtain ⟨hs, hrest⟩ := List.forall_mem_cons.1 h
    obtain ⟨hdot, hdots⟩ := not_or.1 hs
    cases rest with
    | nil => simp [dropDots, hdot, hdots]
    | cons s' rest =>
      rw [dropDots, if_neg hdot, if_neg hdots, ih hrest]
      · simp
      · simp

/-- The length of a path with these segments. -/
def weight (segments : List (List Char)) : Nat := (slashed segments).length

@[simp] theorem weight_nil : weight [] = 0 := rfl

@[simp] theorem weight_append : weight (out ++ segments) = weight out + weight segments := by
  simp [weight, slashed]

@[simp] theorem weight_cons (s : List Char) : weight (s :: segments) = s.length + 1 + weight segments := by
  simp only [weight, slashed, List.flatMap_cons, List.length_append, List.length_cons]

@[simp] theorem weight_reverse : weight out.reverse = weight out := by
  induction out with
  | nil => rfl
  | cons s out ih =>
    simp only [List.reverse_cons, weight_append, weight_cons, weight_nil, ih]
    omega

theorem weight_tail_le (out : List (List Char)) : weight out.tail ≤ weight out := by
  cases out with
  | nil => exact le_rfl
  | cons s out => simp

theorem weight_dropDots_le (out segments : List (List Char)) :
    weight (dropDots out segments) ≤ weight out + weight segments := by
  induction segments generalizing out with
  | nil => simp [dropDots]
  | cons s rest ih =>
    have htail := weight_tail_le out
    cases rest with
    | nil =>
      unfold dropDots
      split_ifs
      · simp
      · simp
        omega
      · simp
    | cons s' rest =>
      rw [dropDots]
      · split_ifs
        · have hle := ih out
          simp only [weight_cons] at hle ⊢
          omega
        · have hle := ih out.tail
          simp only [weight_cons] at hle ⊢
          omega
        · have hle := ih (s :: out)
          simp only [weight_cons] at hle ⊢
          omega
      · simp

/-- A dot segment is lost. -/
theorem weight_dropDots_lt (out : List (List Char)) (h : ∃ s ∈ segments, IsDot s) :
    weight (dropDots out segments) < weight out + weight segments := by
  induction segments generalizing out with
  | nil =>
    obtain ⟨s, hs, -⟩ := h
    cases hs
  | cons s rest ih =>
    have htail := weight_tail_le out
    cases rest with
    | nil =>
      obtain ⟨s', hs', hdot⟩ := h
      rw [List.mem_singleton.1 hs'] at hdot
      rcases hdot with rfl | rfl
      · simp [dropDots]
      · simp [dropDots]
        omega
    | cons s' rest =>
      rw [dropDots]
      · split_ifs with hone htwo
        · have hle := weight_dropDots_le out (s' :: rest)
          rw [weight_cons s]
          omega
        · have hle := weight_dropDots_le out.tail (s' :: rest)
          rw [weight_cons s]
          omega
        · obtain ⟨s'', hs'', hdot⟩ := h
          rcases List.mem_cons.1 hs'' with rfl | hs''
          · exact absurd hdot (not_or.2 ⟨hone, htwo⟩)
          · have hlt := ih (s :: out) ⟨s'', hs'', hdot⟩
            rw [weight_cons s] at hlt ⊢
            omega
      · simp

theorem slashed_splitOn (rest : List Char) : slashed (rest.splitOn '/') = '/' :: rest := by
  have hjoin : ∀ segments : List (List Char), segments ≠ [] →
      slashed segments = '/' :: ['/'].intercalate segments := by
    intro segments hne
    induction segments with
    | nil => exact absurd rfl hne
    | cons s rest ih =>
      cases rest with
      | nil => simp [slashed]
      | cons s' rest =>
        rw [List.intercalate_cons_cons]
        have hrest := ih (by simp)
        simp only [slashed, List.flatMap_cons] at hrest ⊢
        rw [hrest]
        simp
  rw [hjoin _ (List.splitOn_ne_nil _ _), List.intercalate_splitOn]

theorem noDots_cons_slash : NoDots ('/' :: rest) ↔ NoDots rest := by
  unfold NoDots
  have hsplit : ('/' :: rest).splitOn '/' = [] :: rest.splitOn '/' :=
    List.splitOn_append_cons_self [] rest
  rw [hsplit, List.forall_mem_cons]
  simp [IsDot]

theorem noDots_append_slash : NoDots (d ++ '/' :: rest) ↔ NoDots d ∧ NoDots rest := by
  unfold NoDots
  rw [List.splitOn_append_cons_self, List.forall_mem_append]

theorem noDots_nil : NoDots [] := by decide

/-- The directory part ends with a slash, if there is one. -/
theorem directory_cases (path : List Char) : directory path = [] ∨ ∃ d, directory path = d ++ ['/'] := by
  by_cases hne : directory path = []
  · exact .inl hne
  · have hlast := List.rdropWhile_last_not (· != '/') path hne
    refine .inr ⟨(directory path).dropLast, ?_⟩
    have hslash : (directory path).getLast hne = '/' := by simpa [directory] using hlast
    rw [← hslash, List.dropLast_concat_getLast]

theorem directory_append {xs : List Char} (h : '/' ∉ xs) : directory (path ++ xs) = directory path := by
  by_cases hslash : '/' ∈ path
  · obtain ⟨before, after, rfl, hafter⟩ := exists_last hslash
    have hrest : '/' ∉ after ++ xs := by simp [hafter, h]
    rw [List.append_assoc, List.cons_append]
    unfold directory
    rw [rdropWhile_last hrest, rdropWhile_last hafter]
  · have hnone : ∀ ys : List Char, '/' ∉ ys → directory ys = [] := by
      intro ys hys
      refine List.rdropWhile_eq_nil_iff.2 fun c hc => ?_
      have hne : c ≠ '/' := by
        rintro rfl
        exact hys hc
      simpa using hne
    rw [hnone _ hslash, hnone _ (by simp [hslash, h])]

/-- The last slash may come after the path. -/
theorem directory_append_mem {xs : List Char} (h : '/' ∈ xs) :
    ∃ ys, directory (path ++ xs) = path ++ ys ++ ['/'] := by
  obtain ⟨before, after, rfl, hafter⟩ := exists_last h
  refine ⟨before, ?_⟩
  rw [← List.append_assoc]
  exact rdropWhile_last hafter

theorem slash_directory (h : ['/'] <+: path) : ['/'] <+: directory path := by
  obtain ⟨rest, hrest⟩ := h
  have hmem : '/' ∈ path := by simp [← hrest]
  obtain ⟨before, after, rfl, hafter⟩ := exists_last hmem
  unfold directory
  rw [rdropWhile_last hafter]
  cases before with
  | nil => exact List.prefix_rfl
  | cons c before =>
    have hc := (List.cons.inj hrest).1
    exact ⟨before ++ ['/'], by rw [← hc]; rfl⟩

theorem length_directory_le (path : List Char) : (directory path).length ≤ path.length :=
  (List.rdropWhile_prefix _ path).length_le

theorem noDots_directory_append (path rest : List Char) :
    NoDots (directory path ++ rest) ↔ NoDots (directory path) ∧ NoDots rest := by
  rcases directory_cases path with hdir | ⟨d, hdir⟩
  · rw [hdir]
    simp [noDots_nil]
  · rw [hdir, List.append_assoc, List.singleton_append, noDots_append_slash, noDots_append_slash]
    simp [noDots_nil]

theorem length_removeDotSegments_le (path : List Char) :
    (removeDotSegments path).length ≤ path.length := by
  unfold removeDotSegments
  split
  · rename_i rest
    have hle := weight_dropDots_le [] (rest.splitOn '/')
    rw [weight_nil, Nat.zero_add] at hle
    unfold weight at hle
    rwa [slashed_splitOn] at hle
  · exact le_rfl

theorem mem_dropDots {s : List Char} (h : s ∈ dropDots out segments) : s = [] ∨ s ∈ out ∨ s ∈ segments := by
  induction segments generalizing out with
  | nil => exact .inr (.inl (by simpa [dropDots] using h))
  | cons s' rest ih =>
    have htail : ∀ t ∈ out.tail, t ∈ out := fun t ht => List.mem_of_mem_tail ht
    cases rest with
    | nil =>
      unfold dropDots at h
      split_ifs at h
      all_goals
        simp only [List.mem_reverse, List.mem_cons] at h
        grind
    | cons s'' rest =>
      rw [dropDots] at h
      · split_ifs at h
        all_goals
          have hmem := ih h
          grind
      · simp

/-- Removing dot segments adds no signs. -/
theorem mem_of_mem_removeDotSegments {c : Char} (h : c ∈ removeDotSegments path) : c ∈ path := by
  unfold removeDotSegments at h
  split at h
  · rename_i rest
    obtain ⟨s, hs, hc⟩ := List.mem_flatMap.1 h
    rcases List.mem_cons.1 hc with rfl | hc
    · exact List.mem_cons_self
    · rcases mem_dropDots hs with rfl | hs | hs
      · cases hc
      · cases hs
      · rw [← slashed_splitOn]
        exact List.mem_flatMap.2 ⟨s, hs, List.mem_cons_of_mem _ hc⟩
  · exact h

/-- Only dot segments are removed. -/
theorem removeDotSegments_eq_self_iff (h : path = [] ∨ ['/'] <+: path) :
    removeDotSegments path = path ↔ NoDots path := by
  rcases h with rfl | ⟨rest, rfl⟩
  · exact iff_of_true rfl noDots_nil
  · show slashed (dropDots [] (rest.splitOn '/')) = '/' :: rest ↔ NoDots ('/' :: rest)
    rw [noDots_cons_slash]
    constructor
    · intro heq s hs hdot
      have hlt := weight_dropDots_lt [] ⟨s, hs, hdot⟩
      unfold weight at hlt
      rw [heq, slashed_splitOn] at hlt
      exact absurd hlt (by simp [slashed])
    · intro hno
      rw [dropDots_of_noDots hno]
      exact slashed_splitOn rest

/-! ### Resolution -/

theorem mem_of_mem_directory {c : Char} (h : c ∈ directory path) : c ∈ path :=
  (List.rdropWhile_prefix _ path).subset h

theorem mem_mergePaths {base : Reference} {c : Char} (h : c ∈ mergePaths base path) :
    c = '/' ∨ c ∈ base.path ∨ c ∈ path := by
  unfold mergePaths at h
  split at h
  · rcases List.mem_cons.1 h with heq | h
    · exact .inl heq
    · exact .inr (.inr h)
  · rcases List.mem_append.1 h with h | h
    · exact .inr (.inl (mem_of_mem_directory h))
    · exact .inr (.inr h)

/-- Resolution adds no signs but slashes to the paths. -/
theorem mem_resolve_path {base u : Reference} {c : Char} (h : c ∈ (resolve base u).path) :
    c = '/' ∨ c ∈ base.path ∨ c ∈ u.path := by
  unfold resolve at h
  split_ifs at h
  · exact .inr (.inr (mem_of_mem_removeDotSegments h))
  · exact .inr (.inr (mem_of_mem_removeDotSegments h))
  · exact .inr (.inl h)
  · exact .inr (.inl h)
  · exact .inr (.inr (mem_of_mem_removeDotSegments h))
  · exact mem_mergePaths (mem_of_mem_removeDotSegments h)

theorem resolve_query (base u : Reference) :
    (resolve base u).query = u.query ∨ (resolve base u).query = base.query := by
  unfold resolve
  split_ifs <;> simp

theorem resolve_relative (base : Reference) {u : Reference} (hscheme : u.scheme = none)
    (hauth : u.authority = none) :
    (resolve base u).scheme = base.scheme ∧ (resolve base u).authority = base.authority := by
  simp only [resolve, hscheme, hauth, Option.isSome_none, Bool.false_eq_true, if_false]
  split <;> exact ⟨rfl, rfl⟩

/-- Where there are no dot segments to remove, a reference with an authority only takes over the scheme. -/
theorem resolve_of_authority {base u : Reference} {a : Authority} (hu : u.Valid)
    (ha : u.authority = some a) (hdots : NoDots u.path) :
    resolve base u = { u with scheme := u.scheme.or base.scheme } := by
  have hhier := hu.hier
  rw [ha, Option.isSome_some, if_pos rfl] at hhier
  have hself := (removeDotSegments_eq_self_iff hhier).2 hdots
  unfold resolve
  cases hscheme : u.scheme with
  | some s =>
    rw [if_pos (by simp), hself, Option.some_or, ← hscheme]
  | none =>
    rw [if_neg (by simp), if_pos (by simp [ha]), hself, Option.none_or]

end Uri
