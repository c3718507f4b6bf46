import Mathlib.Data.List.TakeWhile
import Cmlb.Lib.CheckedInt
import Cmlb.Lib.Decimal
import Cmlb.Lib.Words

/-!
# `parse_id_list` (`configuration.cpp`)

Both inner loops move the one cursor. Past the `break` it has moved, so the outer loop ends.
-/

namespace Cmlb.Configuration

open CheckedInt (exact)
open Decimal (natural integer)
open Words (Followed Spaced WordsOf IsWord)

/-! ### `parse_int` -/

/-- `std::from_chars` after the sign: the value, and what stands after the digits. -/
def fromDigits (negative : Bool) (text : List Char) : Option (Int64 × List Char) :=
  let digits := text.takeWhile Char.isDigit
  if digits.isEmpty then none
  else
    let magnitude : Int := Nat.ofDigitChars 10 digits 0
    (exact (if negative then -magnitude else magnitude)).map (·, text.dropWhile Char.isDigit)

def fromChars : List Char → Option (Int64 × List Char)
  | '-' :: text => fromDigits true text
  | text => fromDigits false text

/-- The value, if nothing is left of the text. -/
def complete (read : Int64 × List Char) : Option Int64 :=
  if read.2.isEmpty then some read.1 else none

/-- `parse_int<std::int64_t>` -/
def parseInt (text : List Char) : Option Int64 := (fromChars text).bind complete

/-! ### `parse_id_list` -/

def isSeparator (c : Char) : Bool := c == ',' || c == ' ' || c == '\t'

/-- `while (i < text.size() && p(text[i])) ++i;` -/
def advance (p : Char → Bool) (text : List Char) (i : Nat) : Nat :=
  if h : i < text.length then if p text[i] then advance p text (i + 1) else i else i
termination_by text.length - i

theorem le_advance (p : Char → Bool) (text : List Char) (i : Nat) : i ≤ advance p text i := by
  fun_induction advance p text i <;> omega

/-- The outer loop, on the cursor and the values so far. -/
def idsFrom (text : List Char) (i : Nat) (out : List Int64) : List Int64 :=
  if i < text.length then
    let start := advance isSeparator text i
    let stop := advance (fun c => c != ',' && c != ' ' && c != '\t') text start
    if start = stop then out
    else
      idsFrom text stop (match parseInt ((text.drop start).take (stop - start)) with
        | some v => out ++ [v]
        | none => out)
  else out
termination_by text.length - i
decreasing_by
  have hstart : i ≤ start := le_advance _ _ _
  have hstop : start ≤ stop := le_advance _ _ _
  show text.length - stop < text.length - i
  omega

def parseIdList (text : List Char) : List Int64 := idsFrom text 0 []

/-! ### Integers -/

/-- A complete decimal integer that is in range. -/
def value (word : List Char) : Option Int64 := (integer word).bind exact

theorem complete_fromDigits (negative : Bool) (text : List Char) :
    (fromDigits negative text).bind complete =
      (natural text).bind fun n => exact (if negative then -(n : Int) else n) := by
  by_cases hall : ∀ c ∈ text, c.isDigit = true
  · have htake : text.takeWhile Char.isDigit = text := List.takeWhile_eq_self_iff.2 hall
    have hdrop : text.dropWhile Char.isDigit = [] := List.dropWhile_eq_nil_iff.2 hall
    rw [fromDigits, htake, hdrop, natural]
    by_cases hnil : text = []
    · subst hnil
      rfl
    · have hdigits : text ≠ [] ∧ text.all Char.isDigit = true := ⟨hnil, List.all_eq_true.2 hall⟩
      rw [if_neg (by simpa using hnil), if_pos hdigits, Option.bind_some, Option.bind_map]
      exact Option.bind_fun_some _
  · have hleft : text.dropWhile Char.isDigit ≠ [] := fun h => hall (List.dropWhile_eq_nil_iff.1 h)
    have hnatural : natural text = none := if_neg fun h => hall (List.all_eq_true.1 h.2)
    rw [hnatural, Option.bind_none, fromDigits]
    by_cases hempty : (text.takeWhile Char.isDigit).isEmpty = true
    · rw [if_pos hempty]
      rfl
    · rw [if_neg hempty, Option.bind_map]
      exact Option.bind_eq_none_iff.2 fun v _ => if_neg (by simpa using hleft)

theorem parseInt_eq (word : List Char) : parseInt word = value word := by
  rw [parseInt, value, fromChars.eq_def]
  split
  · rw [complete_fromDigits, integer, Option.bind_map]
    rfl
  · rename_i hminus
    rw [complete_fromDigits, integer.eq_2 _ hminus, Option.bind_map]
    rfl

/-! ### The cursor -/

variable {text run rest : List Char} {i : Nat} {p : Char → Bool}

theorem lt_length_of_drop {c : Char} (h : text.drop i = c :: rest) :
    ∃ hi : i < text.length, text[i] = c ∧ text.drop (i + 1) = rest := by
  have hi : i < text.length := by
    by_contra hge
    rw [List.drop_eq_nil_of_le (not_lt.1 hge)] at h
    cases h
  rw [List.drop_eq_getElem_cons hi, List.cons.injEq] at h
  exact ⟨hi, h⟩

theorem drop_add_length (h : text.drop i = run ++ rest) : text.drop (i + run.length) = rest := by
  rw [← List.drop_drop, h, List.drop_left]

/-- The cursor stops at the end of the run. -/
theorem advance_run (h : text.drop i = run ++ rest) (hrun : ∀ c ∈ run, p c = true)
    (hrest : ∀ c ∈ rest.head?, p c = false) : advance p text i = i + run.length := by
  induction run generalizing i with
  | nil =>
    rw [advance]
    split_ifs with hi hp
    · have hhead : text[i] ∈ rest.head? := by
        rw [← List.nil_append rest, ← h, List.drop_eq_getElem_cons hi]
        rfl
      rw [hrest _ hhead] at hp
      cases hp
    · rfl
    · rfl
  | cons c run ih =>
    obtain ⟨hi, hc, hdrop⟩ := lt_length_of_drop h
    rw [advance, dif_pos hi, hc, if_pos (hrun c List.mem_cons_self),
      ih hdrop fun c' hc' => hrun c' (List.mem_cons_of_mem c hc'), List.length_cons]
    omega

/-! ### The outer loop -/

variable {words : List (List Char)} {out : List Int64}

theorem notSeparator (c : Char) : (c != ',' && c != ' ' && c != '\t') = !isSeparator c := by
  simp [isSeparator, bne]

/-- The values so far and what one word adds. -/
theorem append_value (word : List Char) :
    (match parseInt word with
      | some v => out ++ [v]
      | none => out) = out ++ (value word).toList := by
  rw [parseInt_eq]
  cases value word with
  | none => simp
  | some v => rfl

theorem idsFrom_last (hrun : ∀ c ∈ run, isSeparator c = true) (hdrop : text.drop i = run) :
    idsFrom text i out = out := by
  have hdrop' : text.drop i = run ++ [] := by rw [hdrop, List.append_nil]
  have hstart : advance isSeparator text i = i + run.length := advance_run hdrop' hrun (by simp)
  have hend : text.drop (i + run.length) = [] ++ [] := drop_add_length hdrop'
  have hstop : advance (fun c => c != ',' && c != ' ' && c != '\t') text (i + run.length) =
      i + run.length := advance_run hend (by simp) (by simp)
  rw [idsFrom]
  split_ifs with hi
  · simp only [hstart, hstop, if_true]
  · rfl

/-- One turn of the loop. -/
theorem idsFrom_word {word : List Char} (hrun : ∀ c ∈ run, isSeparator c = true)
    (hword : IsWord isSeparator word) (hrest : ∀ c ∈ rest.head?, isSeparator c = true)
    (hdrop : text.drop i = run ++ (word ++ rest)) :
    idsFrom text i out =
      idsFrom text (i + run.length + word.length) (out ++ (value word).toList) := by
  obtain ⟨c, tail, rfl⟩ := List.exists_cons_of_ne_nil hword.ne_nil
  have hbody := drop_add_length hdrop
  have hstart : advance isSeparator text i = i + run.length :=
    advance_run hdrop hrun (by simpa using hword.not_sep c List.mem_cons_self)
  have hstop : advance (fun c => c != ',' && c != ' ' && c != '\t') text (i + run.length) =
      i + run.length + (c :: tail).length :=
    advance_run hbody (fun c hc => by rw [notSeparator, hword.not_sep c hc]; rfl)
      (fun c hc => by rw [notSeparator, hrest c hc]; rfl)
  have hi : i < text.length := by
    obtain ⟨hlt, -⟩ := lt_length_of_drop hbody
    omega
  have htake : (text.drop (i + run.length)).take (c :: tail).length = c :: tail := by
    rw [hbody, List.take_left]
  rw [idsFrom, if_pos hi]
  simp only [hstart, hstop, Nat.add_sub_cancel_left, htake, append_value]
  rw [if_neg (by simp)]

/-- From the end of a word, or from the beginning, on. -/
theorem idsFrom_followed (h : Followed isSeparator words rest)
    (hwords : ∀ w ∈ words, IsWord isSeparator w) (hrun : ∀ c ∈ run, isSeparator c = true)
    (hdrop : text.drop i = run ++ rest) : idsFrom text i out = out ++ words.filterMap value := by
  induction h generalizing i run out with
  | nil => rw [idsFrom_last hrun (by simpa using hdrop), List.filterMap_nil, List.append_nil]
  | @cons word run' rest words hrun' hne hrest ih =>
    rw [idsFrom_word hrun (hwords word List.mem_cons_self) (hrest.head_run hrun' hne) hdrop,
      ih (fun w hw => hwords w (List.mem_cons_of_mem word hw)) hrun'
        (drop_add_length (drop_add_length hdrop)), List.append_assoc]
    cases hvalue : value word <;> simp [hvalue]

theorem parseIdList_eq (h : WordsOf isSeparator words text) :
    parseIdList text = words.filterMap value := by
  obtain ⟨before, rest, hbefore, hrest, rfl⟩ := h.spaced
  exact idsFrom_followed hrest h.word hbefore rfl

/-! ### Lists of integers -/

theorem isSeparator_of_isDigit {c : Char} (h : c.isDigit = true) : isSeparator c = false := by
  have hne : ∀ d : Char, d.isDigit = false → c ≠ d := by
    rintro d hd rfl
    simp [h] at hd
  simp [isSeparator, hne ',' rfl, hne ' ' rfl, hne '\t' rfl]

/-- An integer as it is written. -/
def decimal (v : Int64) : List Char := (toString v.toInt).toList

theorem isWord_decimal (v : Int64) : IsWord isSeparator (decimal v) where
  ne_nil := Decimal.ne_nil_of_integer (Decimal.integer_toString v.toInt)
  not_sep c hc := by
    rcases Decimal.mem_of_integer (Decimal.integer_toString v.toInt) hc with hdigit | rfl
    · exact isSeparator_of_isDigit hdigit
    · rfl

theorem value_decimal (v : Int64) : value (decimal v) = some v := by
  obtain ⟨c, hc, htoInt⟩ := CheckedInt.exact_of_bounds (CheckedInt.bounds v)
  rw [value, decimal, Decimal.integer_toString, Option.bind_some, hc, Int64.toInt_inj.1 htoInt]

/-- A list of integers is read back however they are spaced, and from any text its words that are
integers are read. -/
theorem parseIdList_words (text : List Char) :
    (∀ values : List Int64,
      Spaced isSeparator (values.map decimal) text → parseIdList text = values) ∧
    ∃ words, (∀ ws, WordsOf isSeparator ws text ↔ ws = words) ∧
      parseIdList text = words.filterMap value := by
  constructor
  · rintro values h
    have hwords : WordsOf isSeparator (values.map decimal) text := ⟨h, fun w hw => by
      obtain ⟨v, -, rfl⟩ := List.mem_map.1 hw
      exact isWord_decimal v⟩
    have hread : value ∘ decimal = some := funext value_decimal
    rw [parseIdList_eq hwords, List.filterMap_map, hread, List.filterMap_some]
  · obtain ⟨words, h⟩ := Words.exists_wordsOf isSeparator text
    refine ⟨words, fun ws => ⟨fun h' => h'.unique h, ?_⟩, parseIdList_eq h⟩
    rintro rfl
    exact h

theorem parseIdList_twelve_and_minus_seven : parseIdList "\t12, -7 ".toList = [12, -7] := by
  have hfollowed : Followed isSeparator ([12, -7].map decimal)
      (decimal 12 ++ ([',', ' '] ++ (decimal (-7) ++ ([' '] ++ [])))) :=
    .cons (by simp [isSeparator]) (by simp) (.cons (by simp [isSeparator]) (by simp) .nil)
  exact (parseIdList_words _).1 [12, -7]
    ⟨['\t'], _, by simp [isSeparator], hfollowed, by decide +kernel⟩

end Cmlb.Configuration
