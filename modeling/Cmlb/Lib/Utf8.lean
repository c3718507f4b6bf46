import Mathlib.Data.List.Basic
import Mathlib.Tactic.SplitIfs

/-!
# UTF-8, byte by byte

`encode text` are the bytes of a text, and the valid byte strings are those. Of the bytes of a
character only the first is no continuation byte (`encodeChar_eq_cons`), and those of a character
outside ASCII are all above it (`encodeChar_of_ascii`, `le_of_mem_encodeChar`).
-/

namespace Utf8

def encode (text : List Char) : List UInt8 := text.flatMap String.utf8EncodeChar

def Valid (bytes : List UInt8) : Prop := ∃ text, encode text = bytes

/-- `10xxxxxx` -/
def continuation (b : UInt8) : Bool := b &&& 0xC0 == 0x80

variable {c : Char} {text text' : List Char}

@[simp] theorem encode_nil : encode [] = [] := rfl

@[simp] theorem encode_cons : encode (c :: text) = String.utf8EncodeChar c ++ encode text := rfl

@[simp] theorem encode_append : encode (text ++ text') = encode text ++ encode text' :=
  List.flatMap_append

theorem valid_encode : Valid (encode text) := ⟨text, rfl⟩

theorem encode_flatMap (f : Char → List Char) (text : List Char) :
    encode (text.flatMap f) = text.flatMap fun c => encode (f c) :=
  List.flatMap_assoc

/-- Bytes with six bits of the character each. -/
theorem continuation_of_mem (ns : List Nat) :
    ∀ d ∈ ns.map (fun n => UInt8.ofNat (n % 0x40 + 0x80)), continuation d = true := by
  have hall : ∀ k : Fin 0x40, continuation (UInt8.ofNat (k.val + 0x80)) = true := by decide
  intro d hd
  obtain ⟨n, -, rfl⟩ := List.mem_map.1 hd
  exact hall ⟨n % 0x40, Nat.mod_lt _ (by decide)⟩

/-- A first byte, then continuation bytes. -/
theorem encodeChar_eq_cons (c : Char) : ∃ b tail, String.utf8EncodeChar c = b :: tail ∧
    continuation b = false ∧ ∀ d ∈ tail, continuation d = true := by
  have hone : ∀ k : Fin 0x80, continuation (UInt8.ofNat k.val) = false := by decide
  have htwo : ∀ k : Fin 0x20, continuation (UInt8.ofNat (k.val + 0xc0)) = false := by decide
  have hthree : ∀ k : Fin 0x10, continuation (UInt8.ofNat (k.val + 0xe0)) = false := by decide
  have hfour : ∀ k : Fin 0x08, continuation (UInt8.ofNat (k.val + 0xf0)) = false := by decide
  unfold String.utf8EncodeChar
  dsimp only
  split_ifs with h
  · exact ⟨_, _, rfl, hone ⟨_, Nat.lt_succ_of_le h⟩, by simp⟩
  · exact ⟨_, _, rfl, htwo ⟨_, Nat.mod_lt _ (by decide)⟩, continuation_of_mem [_]⟩
  · exact ⟨_, _, rfl, hthree ⟨_, Nat.mod_lt _ (by decide)⟩, continuation_of_mem [_, _]⟩
  · exact ⟨_, _, rfl, hfour ⟨_, Nat.mod_lt _ (by decide)⟩, continuation_of_mem [_, _, _]⟩

theorem encodeChar_of_ascii (h : c.toNat < 0x80) : String.utf8EncodeChar c = [UInt8.ofNat c.toNat] := by
  unfold String.utf8EncodeChar
  exact if_pos (show c.toNat ≤ 0x7f by omega)

theorem le_of_mem_encodeChar (h : 0x80 ≤ c.toNat) : ∀ b ∈ String.utf8EncodeChar c, 0x80 ≤ b := by
  have hge {n m k : Nat} (hm : 0 < m) (hk : 0x80 ≤ k ∧ m + k ≤ 0x100) :
      0x80 ≤ UInt8.ofNat (n % m + k) := by
    have hmod : n % m < m := Nat.mod_lt n hm
    rw [UInt8.le_iff_toNat_le, UInt8.toNat_ofNat_of_lt' (show n % m + k < 0x100 by omega)]
    exact Nat.le_trans hk.1 (Nat.le_add_left _ _)
  have hnot : ¬c.val.toNat ≤ 0x7f := Nat.not_le.2 (Nat.lt_of_succ_le h)
  unfold String.utf8EncodeChar
  dsimp only
  rw [if_neg hnot]
  intro b hb
  split_ifs at hb
  all_goals
    simp only [List.mem_cons, List.not_mem_nil, or_false] at hb
    rcases hb with rfl | hb
    · exact hge (by decide) (by decide)
  · rw [hb]
    exact hge (by decide) (by decide)
  · rcases hb with rfl | rfl <;> exact hge (by decide) (by decide)
  · rcases hb with rfl | rfl | rfl <;> exact hge (by decide) (by decide)

end Utf8
