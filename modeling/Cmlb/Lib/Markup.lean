import Mathlib.Data.List.Basic

/-!
# Balanced markup

A text with tags `<name>` and `</name>`, read from left to right with a stack of the open tags.
`Balanced` texts end with every tag closed in its turn. A program puts such a text together from
pieces: literals with tags, texts of its own without any, and foreign texts, escaped or as they are.
`check` reads the literals only; a `Sound` composition passes it, and then the text is balanced with
every foreign text escaped exactly when those that went in as they are had nothing to escape
(`Sound.wellFormed_iff`).
-/

namespace Markup

/-- In the text between tags, or in a tag after the characters `read`, the last one first. -/
inductive Mode
  | text
  | tag (read : List Char)
deriving DecidableEq

structure Scan where
  mode : Mode
  openTags : List (List Char)
deriving DecidableEq

def endTag (read : List Char) (openTags : List (List Char)) : Option Scan :=
  match read.reverse with
  | [] => none
  | '/' :: name => if openTags.head? = some name then some ⟨.text, openTags.tail⟩ else none
  | name => some ⟨.text, name :: openTags⟩

def step (s : Scan) (c : Char) : Option Scan :=
  match s.mode with
  | .text =>
    if c = '<' then some { s with mode := .tag [] }
    else if c = '>' then none
    else some s
  | .tag read =>
    if c = '<' then none
    else if c = '>' then endTag read s.openTags
    else some { s with mode := .tag (c :: read) }

def scan (s : Scan) (text : List Char) : Option Scan := text.foldlM step s

/-- Every tag of the text is closed, in the order of the nesting. -/
def Balanced (text : String) : Prop := scan ⟨.text, []⟩ text.toList = some ⟨.text, []⟩

instance (text : String) : Decidable (Balanced text) := inferInstanceAs (Decidable (_ = _))

theorem scan_append (s : Scan) (a b : List Char) : scan s (a ++ b) = (scan s a).bind (scan · b) :=
  List.foldlM_append

/-- A text without angle brackets is passed over. -/
theorem scan_of_forall {text : List Char} {s : Scan} (hs : s.mode = .text)
    (h : ∀ c ∈ text, c ≠ '<' ∧ c ≠ '>') : scan s text = some s := by
  induction text with
  | nil => rfl
  | cons c text ih =>
    obtain ⟨hlt, hgt⟩ := h c List.mem_cons_self
    have hc : step s c = some s := by simp [step, hs, hlt, hgt]
    unfold scan at ih ⊢
    rw [List.foldlM_cons, hc]
    exact ih fun d hd => h d (List.mem_cons_of_mem c hd)

/-- A replacement of characters that leaves no angle bracket; a replaced character gets longer. -/
structure Escaping where
  esc : Char → List Char
  inert : ∀ c, ∀ d ∈ esc c, d ≠ '<' ∧ d ≠ '>'
  longer : ∀ c, esc c = [c] ∨ 1 < (esc c).length

namespace Escaping

variable (E : Escaping)

def escape (s : String) : String := String.ofList (s.toList.flatMap E.esc)

/-- There is nothing to escape. -/
def Plain (s : String) : Prop := E.escape s = s

instance (s : String) : Decidable (E.Plain s) := inferInstanceAs (Decidable (_ = _))

variable {E}

@[simp] theorem toList_escape (s : String) : (E.escape s).toList = s.toList.flatMap E.esc :=
  String.toList_ofList

theorem length_le_flatMap (l : List Char) : l.length ≤ (l.flatMap E.esc).length := by
  induction l with
  | nil => simp
  | cons c l ih =>
    rw [List.flatMap_cons, List.length_append, List.length_cons]
    rcases E.longer c with hc | hc
    · rw [hc, List.length_singleton]
      omega
    · omega

/-- A text that is not longer when escaped has nothing to escape. -/
theorem forall_of_length_eq {l : List Char} (h : (l.flatMap E.esc).length = l.length) :
    ∀ c ∈ l, E.esc c = [c] := by
  induction l with
  | nil => simp
  | cons c l ih =>
    have hle := length_le_flatMap (E := E) l
    rw [List.flatMap_cons, List.length_append, List.length_cons] at h
    rw [List.forall_mem_cons]
    rcases E.longer c with hc | hc
    · rw [hc, List.length_singleton] at h
      exact ⟨hc, ih (by omega)⟩
    · omega

theorem flatMap_of_forall {l : List Char} (h : ∀ c ∈ l, E.esc c = [c]) : l.flatMap E.esc = l := by
  induction l with
  | nil => rfl
  | cons c l ih =>
    rw [List.forall_mem_cons] at h
    rw [List.flatMap_cons, h.1, ih h.2, List.singleton_append]

theorem plain_iff {s : String} : E.Plain s ↔ ∀ c ∈ s.toList, E.esc c = [c] := by
  unfold Plain
  rw [← String.toList_inj, toList_escape]
  exact ⟨fun h => forall_of_length_eq (congrArg List.length h), flatMap_of_forall⟩

@[simp] theorem plain_append {s t : String} : E.Plain (s ++ t) ↔ E.Plain s ∧ E.Plain t := by
  rw [plain_iff, plain_iff, plain_iff, String.toList_append]
  exact List.forall_mem_append

theorem inert_escape (s : String) : ∀ c ∈ (E.escape s).toList, c ≠ '<' ∧ c ≠ '>' := by
  intro c hc
  rw [toList_escape] at hc
  obtain ⟨d, -, hd⟩ := List.mem_flatMap.1 hc
  exact E.inert d c hd

theorem Plain.inert {s : String} (h : E.Plain s) : ∀ c ∈ s.toList, c ≠ '<' ∧ c ≠ '>' := by
  have := inert_escape (E := E) s
  rwa [h] at this

end Escaping

/-! ### Compositions -/

/-- `lit` and `plain` are the program's own texts, with and without tags; `quoted` and `raw` are
foreign ones, escaped and as they are. -/
inductive Piece
  | lit (s : String)
  | plain (s : String)
  | quoted (s : String)
  | raw (s : String)

namespace Piece

def text (E : Escaping) : Piece → String
  | lit s | plain s | raw s => s
  | quoted s => E.escape s

/-- The same piece with a foreign text escaped. -/
def escaped : Piece → Piece
  | raw s => quoted s
  | p => p

/-- The scan of a piece, where only literals have tags. -/
def check (s : Scan) : Piece → Option Scan
  | lit m => scan s m.toList
  | _ => if s.mode = .text then some s else none

end Piece

variable (E : Escaping)

def body (ps : List Piece) : String := String.ofList (ps.flatMap fun p => (p.text E).toList)

/-- The tags of the text are balanced, and every foreign text in it is escaped. -/
def WellFormed (ps : List Piece) : Prop :=
  Balanced (body E ps) ∧ body E ps = body E (ps.map Piece.escaped)

/-- The literals are balanced by themselves, and what stands for plain text is. -/
structure Sound (ps : List Piece) : Prop where
  check : ∀ st, ps.foldlM Piece.check ⟨.text, st⟩ = some ⟨.text, st⟩
  plain : ∀ s, .plain s ∈ ps → E.Plain s

variable {E} {ps qs : List Piece}

@[simp] theorem toList_body : (body E ps).toList = ps.flatMap fun p => (p.text E).toList :=
  String.toList_ofList

namespace Sound

theorem nil : Sound E [] := ⟨fun _ => rfl, by simp⟩

theorem append (h : Sound E ps) (h' : Sound E qs) : Sound E (ps ++ qs) := by
  refine ⟨fun st => ?_, fun s hs => ?_⟩
  · rw [List.foldlM_append, h.check]
    exact h'.check st
  · rcases List.mem_append.1 hs with hs | hs
    · exact h.plain s hs
    · exact h'.plain s hs

theorem ite {p : Prop} [Decidable p] (h : Sound E ps) (h' : Sound E qs) :
    Sound E (if p then ps else qs) := by
  split <;> assumption

theorem flatMap {α : Type*} {f : α → List Piece} {l : List α} (h : ∀ a ∈ l, Sound E (f a)) :
    Sound E (l.flatMap f) := by
  induction l with
  | nil => exact nil
  | cons a l ih =>
    rw [List.forall_mem_cons] at h
    rw [List.flatMap_cons]
    exact h.1.append (ih h.2)

/-- A sound composition may stand between the two halves of another one, outside its tags. -/
theorem insert {rs : List Piece} (h : Sound E (ps ++ rs)) (hq : Sound E qs)
    (hps : ∀ st, ∃ st', ps.foldlM Piece.check ⟨.text, st⟩ = some ⟨.text, st'⟩) :
    Sound E (ps ++ qs ++ rs) := by
  refine ⟨fun st => ?_, fun s hs => ?_⟩
  · have hall := h.check st
    obtain ⟨st', hst⟩ := hps st
    rw [List.foldlM_append, hst] at hall
    rw [List.foldlM_append, List.foldlM_append, hst, Option.bind_eq_bind, Option.bind_some, hq.check]
    exact hall
  · simp only [List.mem_append] at hs
    rcases hs with (hs | hs) | hs
    · exact h.plain s (List.mem_append_left _ hs)
    · exact hq.plain s hs
    · exact h.plain s (List.mem_append_right _ hs)

end Sound

/-- What passes the check of the literals passes the scan of the whole text. -/
theorem scan_of_check {s s' : Scan} (h : ps.foldlM Piece.check s = some s')
    (hplain : ∀ s, .plain s ∈ ps ∨ .raw s ∈ ps → E.Plain s) :
    scan s (ps.flatMap fun p => (p.text E).toList) = some s' := by
  induction ps generalizing s with
  | nil => exact h
  | cons p ps ih =>
    obtain ⟨s₁, h₁, h⟩ := Option.bind_eq_some_iff.1 h
    have hp : scan s (p.text E).toList = some s₁ := by
      -- apart from the literals the text has no angle bracket
      have hinert (hi : ∀ c ∈ (p.text E).toList, c ≠ '<' ∧ c ≠ '>')
          (h₁ : (if s.mode = .text then some s else none) = some s₁) :
          scan s (p.text E).toList = some s₁ := by
        split at h₁
        · cases h₁
          exact scan_of_forall ‹_› hi
        · cases h₁
      cases p with
      | lit m => exact h₁
      | plain m => exact hinert (hplain m (.inl List.mem_cons_self)).inert h₁
      | quoted m => exact hinert (Escaping.inert_escape m) h₁
      | raw m => exact hinert (hplain m (.inr List.mem_cons_self)).inert h₁
    rw [List.flatMap_cons, scan_append, hp]
    exact ih h fun m hm => hplain m (hm.imp (List.mem_cons_of_mem p) (List.mem_cons_of_mem p))

theorem length_le_escaped (p : Piece) : (p.text E).toList.length ≤ (p.escaped.text E).toList.length := by
  cases p with
  | raw s =>
    show s.toList.length ≤ (E.escape s).toList.length
    rw [Escaping.toList_escape]
    exact Escaping.length_le_flatMap _
  | _ => exact Nat.le_refl _

theorem length_le_map_escaped (ps : List Piece) : (ps.flatMap fun p => (p.text E).toList).length ≤
    ((ps.map Piece.escaped).flatMap fun p => (p.text E).toList).length := by
  induction ps with
  | nil => simp
  | cons p ps ih =>
    have hp := length_le_escaped (E := E) p
    rw [List.map_cons, List.flatMap_cons, List.flatMap_cons, List.length_append, List.length_append]
    omega

/-- Escaping what went in as it is makes the text longer, unless there is nothing to escape. -/
theorem plain_of_body_eq (h : body E ps = body E (ps.map Piece.escaped)) :
    ∀ s, .raw s ∈ ps → E.Plain s := by
  have hlen : (ps.flatMap fun p => (p.text E).toList).length =
      ((ps.map Piece.escaped).flatMap fun p => (p.text E).toList).length := by
    rw [← toList_body, ← toList_body, h]
  clear h
  induction ps with
  | nil => simp
  | cons p ps ih =>
    have hp := length_le_escaped (E := E) p
    have hps := length_le_map_escaped (E := E) ps
    rw [List.map_cons, List.flatMap_cons, List.flatMap_cons, List.length_append,
      List.length_append] at hlen
    intro s hs
    rcases List.mem_cons.1 hs with rfl | hs
    · have hlen : s.toList.length = (E.escape s).toList.length := by
        show ((Piece.raw s).text E).toList.length = ((Piece.raw s).escaped.text E).toList.length
        omega
      rw [Escaping.toList_escape] at hlen
      exact Escaping.plain_iff.2 (Escaping.forall_of_length_eq hlen.symm)
    · exact ih (by omega) s hs

theorem body_escaped (h : ∀ s, .raw s ∈ ps → E.Plain s) : body E ps = body E (ps.map Piece.escaped) := by
  unfold body
  rw [List.flatMap_map]
  congr 1
  refine List.flatMap_congr fun p hp => ?_
  cases p with
  | raw s =>
    show s.toList = (E.escape s).toList
    rw [h s hp]
  | _ => rfl

theorem Sound.wellFormed_iff (h : Sound E ps) : WellFormed E ps ↔ ∀ s, .raw s ∈ ps → E.Plain s := by
  refine ⟨fun hw => plain_of_body_eq hw.2, fun hraw => ⟨?_, body_escaped hraw⟩⟩
  unfold Balanced
  rw [toList_body]
  exact scan_of_check (h.check []) fun s hs => hs.elim (h.plain s) (hraw s)

end Markup
