import Mathlib.Data.List.GetD
import Cmlb.Core.Formatting
import Cmlb.Lib.Utf8

/-!
# Display texts, byte by byte (`core/formatting.cpp`)

`truncate_for_display` and `escape_html` on the bytes that a `std::string` has. On the bytes of a text
they do what the functions of `Formatting` do on its characters (`truncateForDisplay_encode`,
`escapeHtml_encode`): the cut is moved back to the first byte of a character, so that a whole number
of characters is left.
-/

namespace Cmlb.DisplayText

open Utf8 (encode Valid continuation)

def ellipsis : List UInt8 := encode "...".toList

/-- The loop that moves `cut` back while `text[cut]` is a continuation byte. -/
def backUp (text : List UInt8) : Nat → Nat
  | 0 => 0
  | cut + 1 => if continuation (text.getD (cut + 1) 0) then backUp text cut else cut + 1

def truncateForDisplay (text : List UInt8) (maxBytes : Nat) : List UInt8 :=
  if text.length ≤ maxBytes then text
  else if maxBytes ≤ ellipsis.length then ellipsis.take maxBytes
  else text.take (backUp text (maxBytes - ellipsis.length)) ++ ellipsis

def amp : List UInt8 := encode "&amp;".toList
def lt : List UInt8 := encode "&lt;".toList
def gt : List UInt8 := encode "&gt;".toList

def escapeByte (ch : UInt8) : List UInt8 :=
  if ch = '&'.toUInt8 then amp
  else if ch = '<'.toUInt8 then lt
  else if ch = '>'.toUInt8 then gt
  else [ch]

def escapeHtml (text : List UInt8) : List UInt8 := text.flatMap escapeByte

/-! ### The cut -/

variable {text : List Char} {bytes rest : List UInt8} {maxBytes : Nat}

theorem backUp_le (bytes : List UInt8) (cut : Nat) : backUp bytes cut ≤ cut := by
  induction cut with
  | zero => exact Nat.le_refl 0
  | succ cut ih =>
    unfold backUp
    split
    · exact Nat.le_succ_of_le ih
    · exact Nat.le_refl _

/-- The loop stops where a character begins. -/
theorem backUp_append (h : continuation (rest.getD 0 0) = false) (cut : Nat) :
    backUp (bytes ++ rest) (bytes.length + cut) = bytes.length + backUp rest cut := by
  induction cut with
  | zero =>
    rw [backUp, Nat.add_zero]
    cases hlen : bytes.length with
    | zero => rfl
    | succ k =>
      have hget : (bytes ++ rest).getD (k + 1) 0 = rest.getD 0 0 := by
        rw [← hlen, List.getD_append_right _ _ _ _ (Nat.le_refl _), Nat.sub_self]
      rw [backUp, hget, h]
      rfl
  | succ cut ih =>
    have hget : (bytes ++ rest).getD (bytes.length + (cut + 1)) 0 = rest.getD (cut + 1) 0 := by
      rw [List.getD_append_right _ _ _ _ (Nat.le_add_right _ _), Nat.add_sub_cancel_left]
    rw [← Nat.add_assoc] at hget ⊢
    rw [backUp, backUp, hget, ih]
    split
    · rfl
    · rw [Nat.add_assoc]

/-- In the middle of a character the loop goes back to its first byte. -/
theorem backUp_of_lt {b : UInt8} {tail : List UInt8} (h : ∀ d ∈ tail, continuation d = true) {cut : Nat}
    (hcut : cut < (b :: tail).length) : backUp (b :: tail ++ rest) cut = 0 := by
  induction cut with
  | zero => rfl
  | succ cut ih =>
    have hlt : cut < tail.length := Nat.lt_of_succ_lt_succ hcut
    have hget : (b :: tail ++ rest).getD (cut + 1) 0 = tail[cut] := by
      rw [List.getD_eq_getElem?_getD, List.getElem?_append_left hcut, List.getElem?_cons_succ,
        List.getElem?_eq_getElem hlt]
      rfl
    rw [backUp, hget, h _ (List.getElem_mem hlt), if_pos rfl]
    exact ih (Nat.lt_of_succ_lt hcut)

theorem not_continuation_head (text : List Char) : continuation ((encode text).getD 0 0) = false := by
  cases text with
  | nil => rfl
  | cons c text =>
    obtain ⟨b, tail, hc, hb, -⟩ := Utf8.encodeChar_eq_cons c
    rw [Utf8.encode_cons, hc]
    exact hb

/-- The cut leaves the characters that fit. -/
theorem take_backUp (text : List Char) (n : Nat) :
    (encode text).take (backUp (encode text) n) = encode (takeBytes n text) := by
  induction text generalizing n with
  | nil => exact List.take_nil
  | cons c text ih =>
    obtain ⟨b, tail, hc, -, htail⟩ := Utf8.encodeChar_eq_cons c
    have hsize : (String.utf8EncodeChar c).length = c.utf8Size := String.length_utf8EncodeChar c
    rw [takeBytes, Utf8.encode_cons]
    by_cases hfits : c.utf8Size ≤ n
    · obtain ⟨m, rfl⟩ := Nat.exists_eq_add_of_le hfits
      rw [if_pos hfits, Nat.add_sub_cancel_left, ← hsize, backUp_append (not_continuation_head text),
        List.take_length_add_append, ih, Utf8.encode_cons]
    · rw [if_neg hfits, hc, backUp_of_lt htail (by rw [← hc, hsize]; exact Nat.lt_of_not_le hfits)]
      rfl

theorem length_encode (s : String) : (encode s.toList).length = s.utf8ByteSize := by
  rw [String.utf8ByteSize, ← String.utf8Encode_toList, List.utf8Encode, List.size_toByteArray]
  rfl

/-- The bytes of what the model on characters cuts. -/
theorem truncateForDisplay_encode (s : String) (maxBytes : Nat) :
    truncateForDisplay (encode s.toList) maxBytes =
      encode (Cmlb.truncateForDisplay s maxBytes).toList := by
  unfold truncateForDisplay Cmlb.truncateForDisplay
  rw [length_encode, show ellipsis.length = 3 from rfl]
  split_ifs with hfits hdots
  · rfl
  · have htake : ∀ n ≤ 3, ellipsis.take n = encode ("...".toList.take n) := by decide
    rw [String.toList_ofList]
    exact htake maxBytes hdots
  · rw [take_backUp, String.toList_append, String.toList_ofList, Utf8.encode_append]
    rfl

theorem valid_truncateForDisplay (h : Valid bytes) (maxBytes : Nat) :
    Valid (truncateForDisplay bytes maxBytes) := by
  obtain ⟨text, rfl⟩ := h
  have henc := truncateForDisplay_encode (String.ofList text) maxBytes
  rw [String.toList_ofList] at henc
  rw [henc]
  exact Utf8.valid_encode

theorem truncateForDisplay_of_le (h : bytes.length ≤ maxBytes) :
    truncateForDisplay bytes maxBytes = bytes := if_pos h

/-- What does not fit is cut, and as much of the dots as there is room for stands after it. -/
theorem truncateForDisplay_of_lt (h : maxBytes < bytes.length) : ∃ cut, cut + 3 ≤ max maxBytes 3 ∧
    truncateForDisplay bytes maxBytes = bytes.take cut ++ ellipsis.take maxBytes := by
  unfold truncateForDisplay
  rw [if_neg (Nat.not_le.2 h)]
  split_ifs with hdots
  · exact ⟨0, by omega, rfl⟩
  · have hlen : ellipsis.length = 3 := rfl
    have hle := backUp_le bytes (maxBytes - ellipsis.length)
    refine ⟨backUp bytes (maxBytes - ellipsis.length), by omega, ?_⟩
    rw [List.take_of_length_le (show ellipsis.length ≤ maxBytes by omega)]

theorem length_truncateForDisplay_le (bytes : List UInt8) (maxBytes : Nat) :
    (truncateForDisplay bytes maxBytes).length ≤ maxBytes := by
  by_cases hfits : bytes.length ≤ maxBytes
  · rw [truncateForDisplay_of_le hfits]
    exact hfits
  · obtain ⟨cut, hcut, heq⟩ := truncateForDisplay_of_lt (Nat.lt_of_not_le hfits)
    have hlen : ellipsis.length = 3 := rfl
    rw [heq, List.length_append, List.length_take, List.length_take]
    omega

theorem truncateForDisplay_eq_iff :
    truncateForDisplay bytes maxBytes = bytes ↔ bytes.length ≤ maxBytes := by
  refine ⟨fun h => ?_, truncateForDisplay_of_le⟩
  have hle := length_truncateForDisplay_le bytes maxBytes
  rwa [h] at hle

/-! ### The entities -/

def entities : List (List UInt8) := [amp, lt, gt]

/-- A reader of what `escape_html` writes. -/
def unescapeHtml : List UInt8 → List UInt8
  | [] => []
  -- `&amp;`, `&lt;`, `&gt;`
  | 38 :: 97 :: 109 :: 112 :: 59 :: rest => 38 :: unescapeHtml rest
  | 38 :: 108 :: 116 :: 59 :: rest => 60 :: unescapeHtml rest
  | 38 :: 103 :: 116 :: 59 :: rest => 62 :: unescapeHtml rest
  | ch :: rest => ch :: unescapeHtml rest

variable {ch : UInt8}

theorem escapeByte_cases (ch : UInt8) : ch = 38 ∧ escapeByte ch = amp ∨ ch = 60 ∧ escapeByte ch = lt ∨
    ch = 62 ∧ escapeByte ch = gt ∨ ch ≠ 38 ∧ ch ≠ 60 ∧ ch ≠ 62 ∧ escapeByte ch = [ch] := by
  unfold escapeByte
  split_ifs with h₁ h₂ h₃
  · exact .inl ⟨h₁, rfl⟩
  · exact .inr (.inl ⟨h₂, rfl⟩)
  · exact .inr (.inr (.inl ⟨h₃, rfl⟩))
  · exact .inr (.inr (.inr ⟨h₁, h₂, h₃, rfl⟩))

theorem escapeByte_eq_self (hamp : ch ≠ 38) (hlt : ch ≠ 60) (hgt : ch ≠ 62) : escapeByte ch = [ch] :=
  (if_neg hamp).trans ((if_neg hlt).trans (if_neg hgt))

/-- The bytes of a character that stays as it is stay as they are. -/
theorem flatMap_escapeByte (c : Char) :
    (String.utf8EncodeChar c).flatMap escapeByte = encode (escapeChar c) := by
  by_cases hplain : escapeChar c = [c]
  · obtain ⟨hamp, hlt, hgt⟩ := escapeChar_eq_iff.1 hplain
    rw [hplain, Utf8.encode_cons, Utf8.encode_nil, List.append_nil]
    by_cases hascii : c.toNat < 0x80
    · have hne {d : Char} (hd : d.toNat < 0x80) (hcd : c ≠ d) : UInt8.ofNat c.toNat ≠ UInt8.ofNat d.toNat := by
        intro h
        have hnat := congrArg UInt8.toNat h
        rw [UInt8.toNat_ofNat_of_lt' (Nat.lt_trans hascii (by decide)),
          UInt8.toNat_ofNat_of_lt' (Nat.lt_trans hd (by decide))] at hnat
        exact hcd (Char.toNat_inj.1 hnat)
      rw [Utf8.encodeChar_of_ascii hascii, List.flatMap_singleton]
      exact escapeByte_eq_self (hne (by decide) hamp) (hne (by decide) hlt) (hne (by decide) hgt)
    · have hbytes := Utf8.le_of_mem_encodeChar (Nat.not_lt.1 hascii)
      have hself : ∀ b ∈ String.utf8EncodeChar c, escapeByte b = [b] := by
        intro b hb
        have hle := hbytes b hb
        refine escapeByte_eq_self ?_ ?_ ?_ <;> rintro rfl <;> exact absurd hle (by decide)
      rw [List.flatMap_congr hself, List.flatMap_singleton']
  · unfold escapeChar at hplain ⊢
    split at hplain
    all_goals first | rfl | exact absurd rfl hplain

/-- The bytes of what the model on characters escapes. -/
theorem escapeHtml_encode (s : String) :
    escapeHtml (encode s.toList) = encode (Cmlb.escapeHtml.escape s).toList := by
  rw [Markup.Escaping.toList_escape, Utf8.encode_flatMap, escapeHtml, encode, List.flatMap_assoc]
  exact List.flatMap_congr fun c _ => flatMap_escapeByte c

@[simp] theorem escapeHtml_cons : escapeHtml (ch :: bytes) = escapeByte ch ++ escapeHtml bytes := rfl

theorem unescapeHtml_cons (h : ch ≠ 38) (rest : List UInt8) :
    unescapeHtml (ch :: rest) = ch :: unescapeHtml rest := by
  rw [unescapeHtml]
  all_goals
    intro _ hch
    exact absurd hch h

theorem unescapeHtml_escapeByte (ch : UInt8) (rest : List UInt8) :
    unescapeHtml (escapeByte ch ++ rest) = ch :: unescapeHtml rest := by
  rcases escapeByte_cases ch with ⟨rfl, h⟩ | ⟨rfl, h⟩ | ⟨rfl, h⟩ | ⟨hamp, -, -, h⟩
  · rw [h]
    exact unescapeHtml.eq_2 rest
  · rw [h]
    exact unescapeHtml.eq_3 rest
  · rw [h]
    exact unescapeHtml.eq_4 rest
  · rw [h]
    exact unescapeHtml_cons hamp rest

theorem unescapeHtml_escapeHtml : Function.LeftInverse unescapeHtml escapeHtml := by
  intro bytes
  induction bytes with
  | nil => rfl
  | cons ch bytes ih => rw [escapeHtml_cons, unescapeHtml_escapeByte, ih]

theorem no_brackets : ∀ ch ∈ escapeHtml bytes, ch ≠ '<'.toUInt8 ∧ ch ≠ '>'.toUInt8 := by
  intro d hd
  obtain ⟨ch, -, hd⟩ := List.mem_flatMap.1 hd
  have hall : ∀ e ∈ entities, ∀ d ∈ e, d ≠ '<'.toUInt8 ∧ d ≠ '>'.toUInt8 := by decide +kernel
  rcases escapeByte_cases ch with ⟨-, h⟩ | ⟨-, h⟩ | ⟨-, h⟩ | ⟨-, hlt, hgt, h⟩
  · exact hall amp (by decide) d (h ▸ hd)
  · exact hall lt (by decide) d (h ▸ hd)
  · exact hall gt (by decide) d (h ▸ hd)
  · rw [h, List.mem_singleton] at hd
    rw [hd]
    exact ⟨hlt, hgt⟩

/-- An `&` stands in an entity at its front only. -/
theorem eq_of_suffix_entity {e rest : List UInt8} (he : e ∈ entities) (h : 38 :: rest <:+ e) :
    38 :: rest = e := by
  have hall : ∀ e ∈ entities, 38 ∉ e.tail := by decide
  cases e with
  | nil => exact absurd (List.suffix_nil.1 h) (List.cons_ne_nil _ _)
  | cons d e =>
    rcases List.suffix_cons_iff.1 h with h | h
    · exact h
    · exact absurd (h.subset List.mem_cons_self) (hall _ he)

theorem escapeByte_of_suffix {rest : List UInt8} (h : 38 :: rest <:+ escapeByte ch) :
    escapeByte ch ∈ entities ∧ 38 :: rest = escapeByte ch := by
  have hmem : escapeByte ch ∈ entities := by
    rcases escapeByte_cases ch with ⟨-, hesc⟩ | ⟨-, hesc⟩ | ⟨-, hesc⟩ | ⟨hamp, -, -, hesc⟩
    · exact hesc ▸ by decide
    · exact hesc ▸ by decide
    · exact hesc ▸ by decide
    · rw [hesc] at h
      exact absurd (List.mem_singleton.1 (h.subset List.mem_cons_self)).symm hamp
  exact ⟨hmem, eq_of_suffix_entity hmem h⟩

theorem starts_entity (bytes : List UInt8) {rest : List UInt8}
    (h : '&'.toUInt8 :: rest <:+ escapeHtml bytes) : ∃ e ∈ entities, e <+: '&'.toUInt8 :: rest := by
  induction bytes with
  | nil => exact absurd (List.suffix_nil.1 h) (List.cons_ne_nil _ _)
  | cons ch bytes ih =>
    obtain ⟨front, hfront⟩ := h
    rw [escapeHtml_cons] at hfront
    rcases List.append_eq_append_iff.1 hfront with ⟨z, hz, hrest⟩ | ⟨z, -, hz⟩
    · cases z with
      | nil => exact ih ⟨[], hrest⟩
      | cons d z =>
        -- the `&` is in what this character gives
        obtain ⟨rfl, rfl⟩ := List.cons.inj hrest
        obtain ⟨hmem, heq⟩ := escapeByte_of_suffix ⟨front, hz.symm⟩
        refine ⟨_, hmem, ?_⟩
        rw [← heq]
        exact List.prefix_append _ _
    · exact ih ⟨z, hz.symm⟩

/-- `truncate_for_display` cuts valid text to valid text that fits, and `escape_html` can be read
back. -/
theorem display_text : (∀ text, Valid text → ∀ maxBytes,
      Valid (truncateForDisplay text maxBytes) ∧ (truncateForDisplay text maxBytes).length ≤ maxBytes ∧
      (truncateForDisplay text maxBytes = text ↔ text.length ≤ maxBytes) ∧
      (maxBytes < text.length → ∃ front, front <+: text ∧
        truncateForDisplay text maxBytes = front ++ ellipsis.take maxBytes)) ∧
    Function.Injective escapeHtml ∧ ∀ text,
      (∀ ch ∈ escapeHtml text, ch ≠ '<'.toUInt8 ∧ ch ≠ '>'.toUInt8) ∧
      (∀ rest, '&'.toUInt8 :: rest <:+ escapeHtml text → ∃ e ∈ entities, e <+: '&'.toUInt8 :: rest) ∧
      unescapeHtml (escapeHtml text) = text := by
  refine ⟨fun text hvalid maxBytes => ⟨?_, ?_, ?_, ?_⟩, ?_, fun text => ⟨?_, ?_, ?_⟩⟩
  · exact valid_truncateForDisplay hvalid maxBytes
  · exact length_truncateForDisplay_le text maxBytes
  · exact truncateForDisplay_eq_iff
  · intro hlt
    obtain ⟨cut, -, heq⟩ := truncateForDisplay_of_lt hlt
    exact ⟨text.take cut, List.take_prefix _ _, heq⟩
  · exact unescapeHtml_escapeHtml.injective
  · exact no_brackets
  · exact fun rest => starts_entity text
  · exact unescapeHtml_escapeHtml text

end Cmlb.DisplayText
