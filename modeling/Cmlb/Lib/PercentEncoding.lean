import Mathlib.Tactic.SplitIfs
import Cmlb.Lib.Delimited

/-!
# Percent-encoding (RFC 3986, sections 2.1 and 2.3)

An octet is written as the unreserved character that it is, or as a `%` and two hexadecimal digits.
Neither `&` nor `=` is unreserved, so the pairs of a form can be told apart however their octets are
(`parseForm_form`).
-/

namespace PercentEncoding

/-- `unreserved = ALPHA / DIGIT / "-" / "." / "_" / "~"` -/
def unreserved (c : Char) : Bool := c.isAlphanum || c ∈ ['-', '.', '_', '~']

def hexDigits : List Char := "0123456789ABCDEF".toList

def digit (n : Fin 16) : Char := hexDigits.getD n '0'

/-- Small letters stand for the same digits. -/
def digitValue (c : Char) : Option ℕ := hexDigits.idxOf? c.toUpper

/-! ### Texts -/

/-- Unreserved characters and `%XX` triples. -/
inductive Encoded : List Char → Prop
  | nil : Encoded []
  | plain {c rest} : unreserved c = true → Encoded rest → Encoded (c :: rest)
  | triple {hi lo rest} : hi ∈ hexDigits → lo ∈ hexDigits → Encoded rest →
      Encoded ('%' :: hi :: lo :: rest)

/-- What has no `%` before it stands for itself. -/
def decode : List Char → Option (List UInt8)
  | '%' :: hi :: lo :: rest => do
    let h ← digitValue hi
    let l ← digitValue lo
    let octets ← decode rest
    return .ofNat (16 * h + l) :: octets
  | c :: rest => if c = '%' then none else (decode rest).map (c.toUInt8 :: ·)
  | [] => some []

def octet (b : UInt8) : List Char :=
  if unreserved (.ofUInt8 b) then [.ofUInt8 b]
  else ['%', digit ⟨b.toNat / 16, by have := b.toNat_lt; omega⟩, digit ⟨b.toNat % 16, by omega⟩]

def encode (octets : List UInt8) : List Char := octets.flatMap octet

variable {c : Char} {text : List Char} {octets : List UInt8}

theorem Encoded.append {text' : List Char} (h : Encoded text) (h' : Encoded text') :
    Encoded (text ++ text') := by
  induction h with
  | nil => exact h'
  | plain hc _ ih => exact .plain hc ih
  | triple hhi hlo _ ih => exact .triple hhi hlo ih

theorem unreserved_of_hex (h : c ∈ hexDigits) : unreserved c = true := by
  have hall : hexDigits.all unreserved = true := by decide +kernel
  exact List.all_eq_true.1 hall c h

theorem Encoded.mem (h : Encoded text) (hc : c ∈ text) : unreserved c = true ∨ c = '%' := by
  induction h with
  | nil => simp at hc
  | plain hx _ ih =>
    rcases List.mem_cons.1 hc with rfl | hc
    · exact .inl hx
    · exact ih hc
  | triple hhi hlo _ ih =>
    simp only [List.mem_cons] at hc
    rcases hc with rfl | rfl | rfl | hc
    · exact .inr rfl
    · exact .inl (unreserved_of_hex hhi)
    · exact .inl (unreserved_of_hex hlo)
    · exact ih hc

theorem Encoded.notMem (h : Encoded text) (hc : unreserved c = false) (hpercent : c ≠ '%') :
    c ∉ text := by
  intro hmem
  rcases h.mem hmem with hplain | heq
  · simp [hplain] at hc
  · exact hpercent heq

/-! ### What is encoded -/

theorem digit_mem (n : Fin 16) : digit n ∈ hexDigits := by
  have hall : ∀ n, digit n ∈ hexDigits := by decide +kernel
  exact hall n

theorem digitValue_digit (n : Fin 16) : digitValue (digit n) = some n.val := by
  have hall : ∀ n, digitValue (digit n) = some n.val := by decide +kernel
  exact hall n

theorem encode_cons (b : UInt8) (octets : List UInt8) :
    encode (b :: octets) = octet b ++ encode octets := rfl

theorem encoded_octet (b : UInt8) : Encoded (octet b) := by
  rw [octet]
  split_ifs with hb
  · exact .plain hb .nil
  · exact .triple (digit_mem _) (digit_mem _) .nil

theorem encoded_encode (octets : List UInt8) : Encoded (encode octets) := by
  induction octets with
  | nil => exact .nil
  | cons b octets ih => exact (encoded_octet b).append ih

theorem toUInt8_ofUInt8 (b : UInt8) : (Char.ofUInt8 b).toUInt8 = b := UInt8.toUInt8_toUInt32 b

theorem decode_plain (hc : c ≠ '%') (rest : List Char) :
    decode (c :: rest) = (decode rest).map (c.toUInt8 :: ·) := by
  rw [decode, if_neg hc]
  rintro hi lo tail rfl
  exact absurd rfl hc

theorem decode_octet (b : UInt8) (rest : List Char) :
    decode (octet b ++ rest) = (decode rest).map (b :: ·) := by
  rw [octet]
  split_ifs with hb
  · have hne : Char.ofUInt8 b ≠ '%' := by
      intro h
      rw [h] at hb
      exact absurd hb (by decide)
    rw [List.singleton_append, decode_plain hne, toUInt8_ofUInt8]
  · have hlt := b.toNat_lt
    have hval : 16 * (b.toNat / 16) + b.toNat % 16 = b.toNat := by omega
    show decode ('%' :: _ :: _ :: rest) = _
    simp only [decode, digitValue_digit, Option.bind_eq_bind, Option.bind_some, hval, UInt8.ofNat_toNat]
    cases decode rest <;> rfl

theorem decode_encode (octets : List UInt8) : decode (encode octets) = some octets := by
  induction octets with
  | nil => rfl
  | cons b octets ih => rw [encode_cons, decode_octet, ih, Option.map_some]

/-! ### Forms -/

/-- A pair is parted at the first `=`. -/
def parsePair (piece : List Char) : Option (List UInt8 × List UInt8) := do
  let (key, value) ← piece.dropInfix? ['=']
  return (← decode key, ← decode value)

def parseForm (text : List Char) : Option (List (List UInt8 × List UInt8)) :=
  (text.splitOn '&').mapM parsePair

def pair (field : List UInt8 × List UInt8) : List Char := encode field.1 ++ '=' :: encode field.2

def form (fields : List (List UInt8 × List UInt8)) : List Char := ['&'].intercalate (fields.map pair)

variable (field : List UInt8 × List UInt8) {fields : List (List UInt8 × List UInt8)}

theorem parsePair_pair : parsePair (pair field) = some field := by
  have hkey : '=' ∉ encode field.1 := (encoded_encode _).notMem (by decide) (by decide)
  have hcut : (pair field).dropInfix? ['='] = some (encode field.1, encode field.2) :=
    (Delimited.first_of_not_mem hkey).dropInfix?
  rw [parsePair, hcut]
  simp [decode_encode]

theorem notMem_pair : '&' ∉ pair field := by
  have hnot : ∀ octets, '&' ∉ encode octets := fun octets =>
    (encoded_encode octets).notMem (by decide) (by decide)
  simp [pair, hnot]

theorem parseForm_form (h : fields ≠ []) : parseForm (form fields) = some fields := by
  have hsplit : (form fields).splitOn '&' = fields.map pair := by
    refine List.splitOn_intercalate '&' ?_ (by simpa using h)
    rintro piece hpiece
    obtain ⟨field, -, rfl⟩ := List.mem_map.1 hpiece
    exact notMem_pair field
  rw [parseForm, hsplit]
  clear hsplit h
  induction fields with
  | nil => rfl
  | cons field fields ih => simp [parsePair_pair, ih]

end PercentEncoding
