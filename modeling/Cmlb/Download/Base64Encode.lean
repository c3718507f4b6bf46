import Mathlib.Algebra.Order.Ring.Nat
import Cmlb.Lib.Base64

/-!
# `base64_encode` (`aria2_downloader.cpp`)

Three bytes at a time, and a tail of one or two. The `unsigned` values stay below 2^12, so they are
natural numbers. What is shifted and masked are the six bits of RFC 4648 (`base64Encode_eq`).
-/

namespace Cmlb.Aria2

open Base64 (char first second third fourth)

def tab : List Char := "ABCDEFGHIJKLMNOPQRSTUVWXYZabcdefghijklmnopqrstuvwxyz0123456789+/".toList

/-- `tab[x & 0x3F]` -/
def tabAt (x : ℕ) : Char := tab.getD (x &&& 0x3F) '='

/-- What is left when fewer than three bytes are. -/
def base64Tail : List UInt8 → List Char
  | [] => []
  | b0 :: rest =>
    let b1 := rest.head?.elim 0 UInt8.toNat
    [tabAt (b0.toNat >>> 2), tabAt (b0.toNat <<< 4 ||| b1 >>> 4),
      if rest.isEmpty then '=' else tabAt (b1 <<< 2), '=']

def base64Encode : List UInt8 → List Char
  | b0 :: b1 :: b2 :: rest =>
    tabAt (b0.toNat >>> 2) :: tabAt (b0.toNat <<< 4 ||| b1.toNat >>> 4) ::
      tabAt (b1.toNat <<< 2 ||| b2.toNat >>> 6) :: tabAt b2.toNat :: base64Encode rest
  | data => base64Tail data

/-! ### The shifts -/

theorem tabAt_of_mod {x : ℕ} {s : Fin 64} (h : x % 64 = s.val) : tabAt x = char s := by
  have hmask : x &&& 63 = s.val := (Nat.and_two_pow_sub_one_eq_mod x 6).trans h
  show tab.getD (x &&& 63) '=' = _
  rw [hmask]
  rfl

theorem or_shift {a b i : ℕ} (h : b < 2 ^ i) : a <<< i ||| b = a * 2 ^ i + b := by
  rw [← Nat.shiftLeft_add_eq_or_of_lt h, Nat.shiftLeft_eq]

variable (b0 b1 b2 : UInt8) (data : List UInt8)

theorem tabAt_first : tabAt (b0.toNat >>> 2) = char (first b0) := by
  have hlt := b0.toNat_lt
  refine tabAt_of_mod ?_
  rw [Nat.shiftRight_eq_div_pow, Base64.first_val]
  omega

theorem tabAt_second : tabAt (b0.toNat <<< 4 ||| b1.toNat >>> 4) = char (second b0 b1) := by
  have hlt := b1.toNat_lt
  refine tabAt_of_mod ?_
  rw [Nat.shiftRight_eq_div_pow, or_shift (by omega), Base64.second_val]
  omega

theorem tabAt_third : tabAt (b1.toNat <<< 2 ||| b2.toNat >>> 6) = char (third b1 b2) := by
  have hlt := b2.toNat_lt
  refine tabAt_of_mod ?_
  rw [Nat.shiftRight_eq_div_pow, or_shift (by omega), Base64.third_val]
  omega

theorem tabAt_fourth : tabAt b2.toNat = char (fourth b2) := tabAt_of_mod rfl

/-- The tail has nothing to add to the bits of its last byte. -/
theorem tabAt_tail : tabAt (b1.toNat <<< 2) = char (third b1 0) := by
  have hnone : (0 : UInt8).toNat >>> 6 = 0 := rfl
  rw [← tabAt_third, hnone, Nat.or_zero]

theorem base64Encode_eq : base64Encode data = Base64.encode data := by
  induction data using Base64.triples_induction with
  | nil => rfl
  | one b0 =>
    show [tabAt _, tabAt (b0.toNat <<< 4 ||| (0 : UInt8).toNat >>> 4), '=', '='] = _
    rw [tabAt_first, tabAt_second]
    rfl
  | two b0 b1 =>
    show [tabAt _, tabAt (b0.toNat <<< 4 ||| b1.toNat >>> 4), tabAt (b1.toNat <<< 2), '='] = _
    rw [tabAt_first, tabAt_second, tabAt_tail]
    rfl
  | cons b0 b1 b2 rest ih =>
    rw [base64Encode, tabAt_first, tabAt_second, tabAt_third, tabAt_fourth, ih]
    rfl

/-- The text has the length, the alphabet and the padding of RFC 4648, and it is decoded to the
bytes. -/
theorem base64_rfc4648 (data : List UInt8) :
    (base64Encode data).length = 4 * ((data.length + 2) / 3) ∧
      (∃ body, base64Encode data = body ++ List.replicate ((3 - data.length % 3) % 3) '=' ∧
        ∀ c ∈ body, c ∈ Base64.alphabet) ∧
      Base64.decode (base64Encode data) = some data := by
  rw [base64Encode_eq]
  exact ⟨Base64.length_encode data, Base64.padded_encode data, Base64.decode_encode data⟩

end Cmlb.Aria2
