import Mathlib.Data.List.Basic
import Mathlib.Tactic.SplitIfs

/-!
# Base 64 (RFC 4648)

Six bits a character, four characters for three bytes. The last group is padded, and the bits in it
that stand for no byte are zero; `decode` takes nothing else, and it takes what `encode` makes
(`decode_encode`).
-/

namespace Base64

def alphabet : List Char :=
  "ABCDEFGHIJKLMNOPQRSTUVWXYZabcdefghijklmnopqrstuvwxyz0123456789+/".toList

/-- The character for six bits. -/
def char (s : Fin 64) : Char := alphabet.getD s '='

def value (c : Char) : Option ℕ := alphabet.idxOf? c

/-! ### Encoding -/

def first (b0 : UInt8) : Fin 64 := ⟨b0.toNat / 4, by have := b0.toNat_lt; omega⟩

def second (b0 b1 : UInt8) : Fin 64 :=
  ⟨b0.toNat % 4 * 16 + b1.toNat / 16, by have := b1.toNat_lt; omega⟩

def third (b1 b2 : UInt8) : Fin 64 :=
  ⟨b1.toNat % 16 * 4 + b2.toNat / 64, by have := b2.toNat_lt; omega⟩

def fourth (b2 : UInt8) : Fin 64 := ⟨b2.toNat % 64, by omega⟩

theorem first_val (b0 : UInt8) : (first b0).val = b0.toNat / 4 := rfl

theorem second_val (b0 b1 : UInt8) : (second b0 b1).val = b0.toNat % 4 * 16 + b1.toNat / 16 := rfl

theorem third_val (b1 b2 : UInt8) : (third b1 b2).val = b1.toNat % 16 * 4 + b2.toNat / 64 := rfl

theorem fourth_val (b2 : UInt8) : (fourth b2).val = b2.toNat % 64 := rfl

def encode : List UInt8 → List Char
  | b0 :: b1 :: b2 :: rest =>
    char (first b0) :: char (second b0 b1) :: char (third b1 b2) :: char (fourth b2) :: encode rest
  | [b0, b1] => [char (first b0), char (second b0 b1), char (third b1 0), '=']
  | [b0] => [char (first b0), char (second b0 0), '=', '=']
  | [] => []

/-! ### Decoding -/

/-- The bytes of a full group. -/
def triple (s0 s1 s2 s3 : ℕ) : List UInt8 :=
  [.ofNat (s0 * 4 + s1 / 16), .ofNat (s1 % 16 * 16 + s2 / 4), .ofNat (s2 % 4 * 64 + s3)]

/-- A last group for one byte. -/
def single (c0 c1 : Char) : Option (List UInt8) := do
  let s0 ← value c0
  let s1 ← value c1
  if s1 % 16 = 0 then some [.ofNat (s0 * 4 + s1 / 16)] else none

/-- A last group for two bytes. -/
def double (c0 c1 c2 : Char) : Option (List UInt8) := do
  let s0 ← value c0
  let s1 ← value c1
  let s2 ← value c2
  if s2 % 4 = 0 then some [.ofNat (s0 * 4 + s1 / 16), .ofNat (s1 % 16 * 16 + s2 / 4)] else none

def decode : List Char → Option (List UInt8)
  | [] => some []
  | c0 :: c1 :: c2 :: c3 :: rest =>
    if c3 = '=' ∧ rest = [] then if c2 = '=' then single c0 c1 else double c0 c1 c2
    else do
      let s0 ← value c0
      let s1 ← value c1
      let s2 ← value c2
      let s3 ← value c3
      let bytes ← decode rest
      return triple s0 s1 s2 s3 ++ bytes
  | _ => none

/-! ### What is encoded -/

theorem value_char (s : Fin 64) : value (char s) = some s.val := by
  have hall : ∀ s, value (char s) = some s.val := by decide +kernel
  exact hall s

theorem char_mem (s : Fin 64) : char s ∈ alphabet := by
  have hall : ∀ s, char s ∈ alphabet := by decide +kernel
  exact hall s

theorem char_ne_pad (s : Fin 64) : char s ≠ '=' := by
  intro h
  have hmem := char_mem s
  rw [h] at hmem
  exact absurd hmem (by decide)

/-- Three bytes at a time. -/
theorem triples_induction {P : List UInt8 → Prop} (nil : P []) (one : ∀ b0, P [b0])
    (two : ∀ b0 b1, P [b0, b1]) (cons : ∀ b0 b1 b2 rest, P rest → P (b0 :: b1 :: b2 :: rest)) :
    ∀ data, P data
  | [] => nil
  | [b0] => one b0
  | [b0, b1] => two b0 b1
  | b0 :: b1 :: b2 :: rest => cons b0 b1 b2 rest (triples_induction nil one two cons rest)

theorem length_encode (data : List UInt8) : (encode data).length = 4 * ((data.length + 2) / 3) := by
  induction data using triples_induction with
  | nil => rfl
  | one b0 => simp [encode]
  | two b0 b1 => simp [encode]
  | cons b0 b1 b2 rest ih =>
    simp only [encode, List.length_cons, ih]
    omega

theorem padded_encode (data : List UInt8) : ∃ body,
    encode data = body ++ List.replicate ((3 - data.length % 3) % 3) '=' ∧ ∀ c ∈ body, c ∈ alphabet := by
  induction data using triples_induction with
  | nil => exact ⟨[], rfl, nofun⟩
  | one b0 => exact ⟨[char (first b0), char (second b0 0)], rfl, by simp [char_mem]⟩
  | two b0 b1 =>
    exact ⟨[char (first b0), char (second b0 b1), char (third b1 0)], rfl, by simp [char_mem]⟩
  | cons b0 b1 b2 rest ih =>
    obtain ⟨body, hbody, hall⟩ := ih
    refine ⟨char (first b0) :: char (second b0 b1) :: char (third b1 b2) :: char (fourth b2) :: body,
      ?_, ?_⟩
    · have hlength : (b0 :: b1 :: b2 :: rest).length % 3 = rest.length % 3 := by
        simp only [List.length_cons]
        omega
      rw [encode, hbody, hlength]
      rfl
    · simpa [char_mem] using hall

variable (b0 b1 b2 : UInt8)

theorem first_second : UInt8.ofNat ((first b0).val * 4 + (second b0 b1).val / 16) = b0 := by
  have h0 := b0.toNat_lt
  have h1 := b1.toNat_lt
  have heq : (first b0).val * 4 + (second b0 b1).val / 16 = b0.toNat := by
    rw [first_val, second_val]
    omega
  rw [heq, UInt8.ofNat_toNat]

theorem second_third :
    UInt8.ofNat ((second b0 b1).val % 16 * 16 + (third b1 b2).val / 4) = b1 := by
  have h1 := b1.toNat_lt
  have h2 := b2.toNat_lt
  have heq : (second b0 b1).val % 16 * 16 + (third b1 b2).val / 4 = b1.toNat := by
    rw [second_val, third_val]
    omega
  rw [heq, UInt8.ofNat_toNat]

theorem third_fourth : UInt8.ofNat ((third b1 b2).val % 4 * 64 + (fourth b2).val) = b2 := by
  have h2 := b2.toNat_lt
  have heq : (third b1 b2).val % 4 * 64 + (fourth b2).val = b2.toNat := by
    rw [third_val, fourth_val]
    omega
  rw [heq, UInt8.ofNat_toNat]

theorem decode_encode (data : List UInt8) : decode (encode data) = some data := by
  induction data using triples_induction with
  | nil => rfl
  | one b0 =>
    have hzero : (second b0 0).val % 16 = 0 := by simp [second_val]
    show single _ _ = _
    simp only [single, value_char, Option.bind_eq_bind, Option.bind_some, if_pos hzero, first_second]
  | two b0 b1 =>
    have hzero : (third b1 0).val % 4 = 0 := by simp [third_val]
    rw [encode, decode, if_pos ⟨rfl, rfl⟩, if_neg (char_ne_pad _)]
    simp only [double, value_char, Option.bind_eq_bind, Option.bind_some, if_pos hzero, first_second,
      second_third]
  | cons b0 b1 b2 rest ih =>
    rw [encode, decode, if_neg fun h => char_ne_pad _ h.1, ih]
    simp only [value_char, triple, Option.bind_eq_bind, Option.bind_some, first_second, second_third,
      third_fourth]
    rfl

end Base64
