import Cmlb.Lib.PercentEncoding

/-!
# `url_encode`, `make_form` (`qbittorrent_downloader.cpp`) and `url_escape` (`google_drive_uploader.cpp`)

Two encoders, written apart. A string is read as its bytes; the text that is made of them has only
ASCII characters. The one asks for the ranges of the unreserved bytes and shifts the digits out, the
other looks for the `char`, which may be negative, in a table and has the digits formatted. They make
the same text, which is that of RFC 3986 (`urlEncode_eq`, `urlEscape_eq`).
-/

namespace Cmlb

open PercentEncoding (Encoded unreserved digit encode octet decode pair form parseForm)

namespace Qbittorrent

/-- `hex[x & 0x0F]` -/
def hexAt (x : UInt8) : Char := "0123456789ABCDEF".toList.getD (x &&& 0x0F).toNat '0'

def isUnreserved (c : UInt8) : Bool :=
  (c ≥ 'A'.toUInt8 && c ≤ 'Z'.toUInt8) || (c ≥ 'a'.toUInt8 && c ≤ 'z'.toUInt8) ||
    (c ≥ '0'.toUInt8 && c ≤ '9'.toUInt8) || c == '-'.toUInt8 || c == '_'.toUInt8 ||
    c == '.'.toUInt8 || c == '~'.toUInt8

def urlEncodeByte (c : UInt8) : List Char :=
  if isUnreserved c then [.ofUInt8 c] else ['%', hexAt (c >>> 4), hexAt c]

def urlEncode (text : List UInt8) : List Char := text.flatMap urlEncodeByte

/-- One turn of the loop, on the text so far and the flag `first`. -/
def appendField (s : List Char × Bool) (field : List UInt8 × List UInt8) : List Char × Bool :=
  let out := if s.2 then s.1 else s.1 ++ ['&']
  (out ++ urlEncode field.1 ++ ['='] ++ urlEncode field.2, false)

def makeForm (fields : List (List UInt8 × List UInt8)) : List Char :=
  (fields.foldl appendField ([], true)).1

end Qbittorrent

namespace Upload.GoogleDrive

def safe : List Char := "ABCDEFGHIJKLMNOPQRSTUVWXYZabcdefghijklmnopqrstuvwxyz0123456789-_.~".toList

/-- `fmt::format("%{:02X}", c)` -/
def formatByte (c : UInt8) : List Char :=
  let digits := (Nat.toDigits 16 c.toNat).map Char.toUpper
  '%' :: (List.replicate (2 - digits.length) '0' ++ digits)

/-- A `char` is signed, and so are those of the table. -/
def urlEscapeByte (c : UInt8) : List Char :=
  let raw := c.toInt8
  if safe.any fun s => s.toUInt8.toInt8 == raw then [.ofUInt8 c] else formatByte c

def urlEscape (text : List UInt8) : List Char := text.flatMap urlEscapeByte

end Upload.GoogleDrive

open Qbittorrent (urlEncodeByte urlEncode appendField makeForm)
open Upload.GoogleDrive (safe formatByte urlEscapeByte urlEscape)

/-! ### One text -/

theorem urlEncodeByte_eq (c : UInt8) : urlEncodeByte c = octet c := by
  have hall : ∀ n, urlEncodeByte (.ofFin n) = octet (.ofFin n) := by decide +kernel
  exact hall c.toFin

/-- Two bytes are the same `char` if they are the same byte. -/
theorem toInt8_beq (a b : UInt8) : (a.toInt8 == b.toInt8) = (a.toNat == b.toNat) := by
  have hiff : a.toInt8 = b.toInt8 ↔ a.toNat = b.toNat :=
    ⟨fun h => congrArg (fun x => x.toUInt8.toNat) h, fun h => congrArg _ (UInt8.toNat_inj.1 h)⟩
  rw [Bool.eq_iff_iff, beq_iff_eq, beq_iff_eq, hiff]

theorem any_safe (c : UInt8) :
    (safe.any fun s => s.toUInt8.toInt8 == c.toInt8) = unreserved (.ofUInt8 c) := by
  have hall : ∀ n, (safe.any fun s => s.toUInt8.toNat == Fin.val n) = unreserved (.ofUInt8 (.ofFin n)) := by
    decide +kernel
  simp only [toInt8_beq]
  exact hall c.toFin

theorem urlEscapeByte_eq (c : UInt8) : urlEscapeByte c = octet c := by
  have hformat : ∀ n : Fin 256, formatByte (.ofFin n) =
      ['%', digit ⟨n / 16, by omega⟩, digit ⟨n % 16, by omega⟩] := by
    decide +kernel
  rw [urlEscapeByte, octet, any_safe]
  split_ifs
  · rfl
  · exact hformat c.toFin

theorem urlEncode_eq (text : List UInt8) : urlEncode text = encode text := by
  rw [urlEncode, encode, funext urlEncodeByte_eq]

theorem urlEscape_eq (text : List UInt8) : urlEscape text = encode text := by
  rw [urlEscape, encode, funext urlEscapeByte_eq]

/-! ### Forms -/

variable (fields : List (List UInt8 × List UInt8))

theorem appendField_first (field : List UInt8 × List UInt8) :
    appendField ([], true) field = (pair field, false) := by
  simp [appendField, pair, urlEncode_eq]

theorem appendField_later (out : List Char) (field : List UInt8 × List UInt8) :
    appendField (out, false) field = (out ++ '&' :: pair field, false) := by
  simp [appendField, pair, urlEncode_eq]

/-- Once the flag is down every field comes after an `&`. -/
theorem foldl_appendField (out : List Char) :
    fields.foldl appendField (out, false) =
      (out ++ fields.flatMap (fun field => '&' :: pair field), false) := by
  induction fields generalizing out with
  | nil => simp
  | cons field fields ih =>
    rw [List.foldl_cons, appendField_later, ih, List.flatMap_cons, List.append_assoc]

theorem form_cons (field : List UInt8 × List UInt8) :
    form (field :: fields) = pair field ++ fields.flatMap fun field => '&' :: pair field := by
  induction fields generalizing field with
  | nil => simp [form]
  | cons field' fields ih =>
    have hcons : form (field :: field' :: fields) = pair field ++ '&' :: form (field' :: fields) := by
      simp [form]
    rw [hcons, ih, List.flatMap_cons]
    rfl

theorem makeForm_eq : makeForm fields = form fields := by
  cases fields with
  | nil => rfl
  | cons field fields =>
    rw [makeForm, List.foldl_cons, appendField_first, foldl_appendField, form_cons]

/-- Both encoders make one text of unreserved characters and triples that is decoded to the bytes, and
what a form was made of is read back from it. -/
theorem urlEncode_makeForm_decoded (text : List UInt8) (field : List UInt8 × List UInt8) :
    urlEncode text = urlEscape text ∧ Encoded (urlEncode text) ∧
      decode (urlEncode text) = some text ∧
      parseForm (makeForm (field :: fields)) = some (field :: fields) := by
  rw [urlEncode_eq, urlEscape_eq, makeForm_eq]
  exact ⟨rfl, PercentEncoding.encoded_encode text, PercentEncoding.decode_encode text,
    PercentEncoding.parseForm_form (List.cons_ne_nil field fields)⟩

end Cmlb
