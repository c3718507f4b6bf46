import Mathlib.Tactic.SplitIfs
import Mathlib.Tactic.Tauto
import Cmlb.Core.Text
import Cmlb.Lib.Markup

/-!
# Formatting for chat copy (`core/formatting.cpp`)

A `double` is Lean's `Float`; what `fmt` makes of one with `{:.nf}` is a parameter (`Fmt`). The
scales of `format_binary` are powers of two, so that its `long double` quotient and the `double`
below are the same. Texts are valid UTF-8. `format_decimal` has no caller here.

Everything these functions write is plain: it has no character that `escape_html` replaces.
-/

namespace Cmlb

open Markup (Escaping)

def escapeChar : Char → List Char
  | '&' => "&amp;".toList
  | '<' => "&lt;".toList
  | '>' => "&gt;".toList
  | ch => [ch]

theorem escapeChar_eq_iff {c : Char} : escapeChar c = [c] ↔ c ≠ '&' ∧ c ≠ '<' ∧ c ≠ '>' := by
  unfold escapeChar
  split <;> simp_all

/-- `escape_html`. -/
def escapeHtml : Escaping where
  esc := escapeChar
  inert c := by
    unfold escapeChar
    split
    all_goals simp_all
  longer c := by
    unfold escapeChar
    split
    all_goals simp

/-- `fmt::format("{:.nf}", x)`: a sign, digits and a point, `inf` or `nan`. -/
structure Fmt where
  fixed : Nat → Float → String
  plain : ∀ n x, escapeHtml.Plain (fixed n x)

/-- What `fmt` makes of zero, with one or two decimals. -/
def Fmt.zero : Fmt where
  fixed n _ := if n = 1 then "0.0" else "0.00"
  plain n _ := by split <;> decide

/-- The units after `unit`, up to the last one that `bytes` reaches. -/
def pickUnit (bytes : Nat) (unit : Nat × String) : List (Nat × String) → Nat × String
  | [] => unit
  | next :: rest => if next.1 ≤ bytes then pickUnit bytes next rest else unit

def kib : Nat := 1024
def mib : Nat := 1024 * kib
def gib : Nat := 1024 * mib
def tib : Nat := 1024 * gib
def pib : Nat := 1024 * tib

/-- `kUnits` after its first entry, the byte. -/
def binaryUnits : List (Nat × String) :=
  [(kib, "KiB"), (mib, "MiB"), (gib, "GiB"), (tib, "TiB"), (pib, "PiB")]

variable (F : Fmt)

def formatBinary (bytes : Int) (suffix : String) : String :=
  let unit := pickUnit bytes.natAbs (1, "B") binaryUnits
  let number :=
    if unit.1 = 1 then toString bytes.natAbs
    else F.fixed 2 (Float.ofNat bytes.natAbs / Float.ofNat unit.1)
  (if bytes < 0 then "-" else "") ++ number ++ " " ++ unit.2 ++ suffix

def formatBytes (bytes : Int) : String := formatBinary F bytes ""

def formatRate (bytesPerSecond : Int) : String := formatBinary F (max bytesPerSecond 0) "/s"

def formatDuration (duration : Int) : String :=
  let total := duration.natAbs
  let days := total / 86400
  let hours := total % 86400 / 3600
  let minutes := total % 3600 / 60
  let seconds := total % 60
  if 0 < days then
    toString days ++ "d " ++ toString hours ++ "h " ++ toString minutes ++ "m " ++ toString seconds ++ "s"
  else if 0 < hours then toString hours ++ "h " ++ toString minutes ++ "m " ++ toString seconds ++ "s"
  else if 0 < minutes then toString minutes ++ "m " ++ toString seconds ++ "s"
  else toString seconds ++ "s"

def formatEta (duration : Int) : String :=
  let total := duration.toNat
  let days := total / 86400
  let hours := total % 86400 / 3600
  let minutes := total % 3600 / 60
  if duration ≤ 0 then "--"
  else if 0 < days then "~" ++ toString days ++ "d " ++ toString hours ++ "h"
  else if 0 < hours then "~" ++ toString hours ++ "h " ++ toString minutes ++ "m"
  else if 0 < minutes then "~" ++ toString minutes ++ "m " ++ toString (total % 60) ++ "s"
  else "~" ++ toString (total % 3600) ++ "s"

def clampFraction (f : Float) : Float :=
  if f.isNaN then 0.0 else if f < 0.0 then 0.0 else if 1.0 < f then 1.0 else f

/-- With the default width and characters. -/
def renderProgressBar (fraction : Float) : String :=
  let width := 12
  let fillCount := (clampFraction fraction * Float.ofNat width).floor.toUInt64.toNat
  let clamped := min fillCount width
  String.ofList ('[' :: List.replicate clamped '#' ++ List.replicate (width - clamped) '-' ++ [']'])

/-- With the default number of decimals. -/
def formatPercent (fraction : Float) : String := F.fixed 1 (clampFraction fraction * 100.0) ++ "%"

/-- The longest prefix of whole characters in `n` bytes. -/
def takeBytes : Nat → List Char → List Char
  | _, [] => []
  | n, c :: text => if c.utf8Size ≤ n then c :: takeBytes (n - c.utf8Size) text else []

def truncateForDisplay (text : String) (maxBytes : Nat) : String :=
  if text.utf8ByteSize ≤ maxBytes then text
  else if maxBytes ≤ 3 then String.ofList ("...".toList.take maxBytes)
  else String.ofList (takeBytes (maxBytes - 3) text.toList) ++ "..."

/-! ### Plain texts -/

/-- None of the three characters that `escape_html` replaces. -/
def NoMarkup (s : String) : Prop := ∀ c ∈ s.toList, c ≠ '&' ∧ c ≠ '<' ∧ c ≠ '>'

theorem plain_iff_noMarkup {s : String} : escapeHtml.Plain s ↔ NoMarkup s :=
  Escaping.plain_iff.trans (forall₂_congr fun _ _ => escapeChar_eq_iff)

@[simp] theorem plain_natRepr (n : Nat) : escapeHtml.Plain n.repr := by
  refine plain_iff_noMarkup.2 fun c hc => ?_
  have hd : c.isDigit = true := by
    refine Nat.isDigit_of_mem_toDigits (b := 10) (n := n) (by decide) (by decide) ?_
    simpa [Nat.repr] using hc
  refine ⟨?_, ?_, ?_⟩ <;> rintro rfl <;> cases hd

@[simp] theorem plain_intRepr (n : Int) : escapeHtml.Plain n.repr := by
  cases n with
  | ofNat n => exact plain_natRepr n
  | negSucc n =>
    show escapeHtml.Plain ("-" ++ (n + 1).repr)
    simp only [Escaping.plain_append, plain_natRepr, and_true]
    decide

theorem plain_pickUnit {bytes : Nat} {unit : Nat × String} {units : List (Nat × String)}
    (h : ∀ u ∈ unit :: units, escapeHtml.Plain u.2) : escapeHtml.Plain (pickUnit bytes unit units).2 := by
  induction units generalizing unit with
  | nil => exact h unit List.mem_cons_self
  | cons next rest ih =>
    unfold pickUnit
    split
    · exact ih fun u hu => h u (List.mem_cons_of_mem _ hu)
    · exact h unit List.mem_cons_self

theorem plain_formatBinary (bytes : Int) {suffix : String} (h : escapeHtml.Plain suffix) :
    escapeHtml.Plain (formatBinary F bytes suffix) := by
  unfold formatBinary
  simp only [Escaping.plain_append]
  refine ⟨⟨⟨⟨?_, ?_⟩, by decide⟩, plain_pickUnit (by decide)⟩, h⟩
  · split <;> decide
  · split
    · exact plain_natRepr _
    · exact F.plain _ _

@[simp] theorem plain_formatBytes (bytes : Int) : escapeHtml.Plain (formatBytes F bytes) :=
  plain_formatBinary F bytes (by decide)

@[simp] theorem plain_formatRate (bps : Int) : escapeHtml.Plain (formatRate F bps) :=
  plain_formatBinary F _ (by decide)

@[simp] theorem plain_formatPercent (fraction : Float) : escapeHtml.Plain (formatPercent F fraction) :=
  Escaping.plain_append.2 ⟨F.plain _ _, by decide⟩

@[simp] theorem plain_formatDuration (duration : Int) : escapeHtml.Plain (formatDuration duration) := by
  dsimp only [formatDuration]
  split_ifs <;> simp only [Escaping.plain_append, Nat.toString_eq_repr, plain_natRepr, true_and, and_true] <;> decide

@[simp] theorem plain_formatEta (duration : Int) : escapeHtml.Plain (formatEta duration) := by
  dsimp only [formatEta]
  split_ifs
  · decide
  all_goals simp only [Escaping.plain_append, Nat.toString_eq_repr, plain_natRepr, and_true]
  all_goals decide

@[simp] theorem plain_renderProgressBar (fraction : Float) :
    escapeHtml.Plain (renderProgressBar fraction) := by
  refine plain_iff_noMarkup.2 fun c hc => ?_
  unfold renderProgressBar at hc
  have hbar : c = '[' ∨ c = '#' ∨ c = '-' ∨ c = ']' := by
    simp only [String.toList_ofList, List.mem_append, List.mem_cons, List.mem_replicate,
      List.not_mem_nil] at hc
    tauto
  rcases hbar with rfl | rfl | rfl | rfl <;> decide

end Cmlb
