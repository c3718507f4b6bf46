import Cmlb.Lib.Delimited
import Cmlb.Upload.GoogleDrive

/-!
# The body of a multipart upload (`GoogleDriveUploader::upload_multipart`)

The body puts the metadata and the file's bytes between delimiter lines with one fixed boundary, and
nothing looks for that boundary in the bytes. `splitBody` reads a body as RFC 2046 says: a delimiter is
a CRLF, two dashes and the boundary, wherever they stand, and the rest of its line does not count. The
two parts come out as they went in exactly if the file has no such delimiter, where the line break
before the file's first byte counts as part of it (`multipart_decodes_iff`).
-/

namespace Cmlb.Upload.GoogleDrive

open Delimited

/-- The bytes of an ASCII text. -/
def ascii (s : String) : List UInt8 := s.toList.map fun ch => ch.toNat.toUInt8

def crlf : List UInt8 := [13, 10]

def dashes : List UInt8 := [45, 45]

/-! ### RFC 2046 -/

structure Part where
  headers : List UInt8
  content : List UInt8
deriving DecidableEq

/-- A body part: the header fields, and after an empty line the content. -/
def Part.ofBodyPart (p : List UInt8) : Part :=
  if crlf.isPrefixOf p then ⟨[], p.drop 2⟩
  else
    match p.dropInfix? (crlf ++ crlf) with
    | some (headers, content) => ⟨headers, content⟩
    | none => ⟨p, []⟩

/-- The parts from a delimiter on. Two more dashes close the body, and without them it is not complete;
otherwise the part begins on the next line. -/
def parts : List (List UInt8) → Option (List Part)
  | [] => none
  | segment :: rest =>
    if dashes.isPrefixOf segment then some []
    else
      match segment.dropInfix? crlf with
      | none => none
      | some (_, p) => (parts rest).map (Part.ofBodyPart p :: ·)

def delimiter (boundary : List UInt8) : List UInt8 := crlf ++ (dashes ++ boundary)

/-- What stands before the first delimiter is a preamble; that delimiter may begin the body. -/
def splitBody (boundary body : List UInt8) : Option (List Part) :=
  match segments (delimiter boundary) (crlf ++ body) with
  | [] => none
  | _ :: rest => parts rest

/-- The boundary that a `Content-Type` declares. -/
def boundaryOf (contentType : String) : Option (List UInt8) :=
  ((ascii contentType).dropInfix? (ascii "boundary=")).map Prod.snd

/-! ### The request -/

/-- `json::dump`, which escapes the control characters of strings and puts no white space between the
tokens. It throws on a string that is not UTF-8. -/
structure JsonDump where
  dump : Json → Except String (List UInt8)
  plain : ∀ j text, dump j = .ok text → ∀ b ∈ text, 32 ≤ b
  object : ∀ fields text, dump (.object fields) = .ok text → text.head? = some 123

structure MultipartRequest where
  url : String
  headers : List (String × String)
  body : List UInt8

def boundary : String := "cmlb-mp-7af3b1-XXyy"

def metadata (name parentFolder : String) : Json :=
  .object [("name", .string name), ("parents", .array [.string parentFolder])]

def multipartBody (text content : List UInt8) : List UInt8 :=
  ascii ("--" ++ boundary ++ "\r\n") ++
  ascii "Content-Type: application/json; charset=UTF-8\r\n\r\n" ++
  text ++
  ascii ("\r\n--" ++ boundary ++ "\r\nContent-Type: application/octet-stream\r\n\r\n") ++
  content ++
  ascii ("\r\n--" ++ boundary ++ "--\r\n")

def multipartRequest (D : JsonDump) (bearer name parentFolder : String) (content : List UInt8) :
    Except String MultipartRequest :=
  (D.dump (metadata name parentFolder)).map fun text =>
    { url := "https://www.googleapis.com/upload/drive/v3/files?uploadType=multipart" ++
        "&supportsAllDrives=true&fields=id,name,size,webViewLink,mimeType"
      headers := [("Authorization", bearer),
        ("Content-Type", "multipart/related; boundary=" ++ boundary)]
      body := multipartBody text content }

/-- What the client is given for a request of `upload_multipart`. -/
def DriveRequest.multipart? (D : JsonDump) : DriveRequest → Option (Except String MultipartRequest)
  | .multipart bearer name parent content => some (multipartRequest D bearer name parent content)
  | .tokenExchange _ | .resumableInit _ _ _ _ | .createFolder _ _ _ => none

/-- The parts of the request's body, at the boundary that it declares. -/
def MultipartRequest.decode (r : MultipartRequest) : Option (List Part) :=
  ((r.headers.lookup "Content-Type").bind boundaryOf).bind fun boundary => splitBody boundary r.body

def jsonHeader : List UInt8 := ascii "Content-Type: application/json; charset=UTF-8"

def octetsHeader : List UInt8 := ascii "Content-Type: application/octet-stream"

/-! ### Where the delimiters are -/

/-- The delimiter after its first byte. -/
def delimiterRest : List UInt8 := 10 :: (dashes ++ ascii boundary)

theorem delimiter_eq : delimiter (ascii boundary) = 13 :: delimiterRest := rfl

theorem not_mem_delimiterRest : 13 ∉ delimiterRest := by decide

theorem boundaryOf_declared :
    boundaryOf ("multipart/related; boundary=" ++ boundary) = some (ascii boundary) := by decide

/-- The body from the file's line break on. -/
def fileText (content : List UInt8) : List UInt8 :=
  crlf ++ content ++ (13 :: delimiterRest ++ (dashes ++ crlf))

theorem multipartBody_eq (text content : List UInt8) :
    crlf ++ multipartBody text content =
      [] ++ (13 :: delimiterRest ++ (crlf ++ (jsonHeader ++ (crlf ++ crlf ++ text)) ++
        (13 :: delimiterRest ++ (crlf ++ (octetsHeader ++ (crlf ++ fileText content)))))) := by
  have hopen : crlf ++ ascii ("--" ++ boundary ++ "\r\n") = 13 :: delimiterRest ++ crlf := rfl
  have hjson : ascii "Content-Type: application/json; charset=UTF-8\r\n\r\n" =
    jsonHeader ++ (crlf ++ crlf) := rfl
  have hfile : ascii ("\r\n--" ++ boundary ++ "\r\nContent-Type: application/octet-stream\r\n\r\n") =
    13 :: delimiterRest ++ (crlf ++ (octetsHeader ++ (crlf ++ crlf))) := rfl
  have hclose : ascii ("\r\n--" ++ boundary ++ "--\r\n") = 13 :: delimiterRest ++ (dashes ++ crlf) := rfl
  unfold multipartBody fileText
  rw [hjson, hfile, hclose]
  simp only [← List.append_assoc, List.nil_append]
  rw [hopen]

variable {D : JsonDump} {bearer name parent : String} {text content s : List UInt8} {r : MultipartRequest}

theorem not_isInfix_nil : ¬ 13 :: delimiterRest <:+: [] := by simp

theorem not_isInfix_crlf (hhead : s.head? ≠ some 45) (hs : ¬ 13 :: delimiterRest <:+: s) :
    ¬ 13 :: delimiterRest <:+: crlf ++ s := by
  show ¬ 13 :: delimiterRest <:+: 13 :: ([10] ++ s)
  rw [List.infix_cons_iff]
  rintro (hpre | hin)
  · have hrest : 45 :: (45 :: ascii boundary) <+: s :=
      (List.cons_prefix_cons.1 (List.cons_prefix_cons.1 hpre).2).2
    obtain ⟨v, rfl⟩ := hrest
    exact hhead rfl
  · exact not_isInfix_append (by decide) hs hin

/-- A header field between its line breaks, and what follows it. -/
theorem not_isInfix_header {header : List UInt8} (hmem : 13 ∉ header) (hhead : header.head? = some 67)
    (hs : ¬ 13 :: delimiterRest <:+: s) : ¬ 13 :: delimiterRest <:+: crlf ++ (header ++ s) := by
  refine not_isInfix_crlf ?_ (not_isInfix_append hmem hs)
  cases header with
  | nil => cases hhead
  | cons b header =>
    cases hhead
    simp

theorem not_isInfix_json (hplain : ∀ b ∈ text, 32 ≤ b) (hhead : text.head? = some 123) :
    ¬ 13 :: delimiterRest <:+: crlf ++ (jsonHeader ++ (crlf ++ crlf ++ text)) := by
  have hmem : 13 ∉ text := fun h => absurd (hplain 13 h) (by decide)
  have htext : ¬ 13 :: delimiterRest <:+: text := by
    have hnil := not_isInfix_append hmem not_isInfix_nil
    rwa [List.append_nil] at hnil
  refine not_isInfix_header (by decide) rfl ?_
  rw [List.append_assoc]
  refine not_isInfix_crlf (by simp [crlf]) (not_isInfix_crlf ?_ htext)
  rw [hhead]
  decide

/-! ### What the parts are -/

theorem parts_header {header : List UInt8} (hmem : 13 ∉ header) (hhead : header.head? = some 67)
    (content : List UInt8) (rest : List (List UInt8)) :
    parts ((crlf ++ (header ++ (crlf ++ crlf ++ content))) :: rest) =
      (parts rest).map (⟨header, content⟩ :: ·) := by
  have hline : (crlf ++ (header ++ (crlf ++ crlf ++ content))).dropInfix? crlf =
      some ([], header ++ (crlf ++ crlf ++ content)) :=
    First.dropInfix? (first_of_not_mem (c := 13) (d := [10]) List.not_mem_nil)
  have hblank : (header ++ (crlf ++ crlf ++ content)).dropInfix? (crlf ++ crlf) = some (header, content) :=
    First.dropInfix? (first_of_not_mem (c := 13) (d := [10, 13, 10]) hmem)
  have hfield : crlf.isPrefixOf (header ++ (crlf ++ crlf ++ content)) = false := by
    cases header with
    | nil => cases hhead
    | cons b header =>
      cases hhead
      rfl
  have hopen : dashes.isPrefixOf (crlf ++ (header ++ (crlf ++ crlf ++ content))) = false := rfl
  simp only [parts, hopen, hline, Part.ofBodyPart, hfield, hblank, Bool.false_eq_true, if_false]

/-- The delimiter comes right after the line of the header. -/
theorem parts_no_content (rest : List (List UInt8)) :
    parts ((crlf ++ (octetsHeader ++ crlf)) :: rest) =
      (parts rest).map (⟨octetsHeader ++ crlf, []⟩ :: ·) := by
  have hline : (crlf ++ (octetsHeader ++ crlf)).dropInfix? crlf = some ([], octetsHeader ++ crlf) := by
    decide
  have hblank : (octetsHeader ++ crlf).dropInfix? (crlf ++ crlf) = none := by decide
  have hfield : crlf.isPrefixOf (octetsHeader ++ crlf) = false := by decide
  have hopen : dashes.isPrefixOf (crlf ++ (octetsHeader ++ crlf)) = false := by decide
  simp only [parts, hopen, hline, Part.ofBodyPart, hfield, hblank, Bool.false_eq_true, if_false]

/-- The metadata come out, whatever the file is. -/
theorem decode_eq (hplain : ∀ b ∈ text, 32 ≤ b) (hhead : text.head? = some 123) :
    splitBody (ascii boundary) (multipartBody text content) =
      (parts (segments (13 :: delimiterRest) (crlf ++ (octetsHeader ++ (crlf ++ fileText content))))).map
        (⟨jsonHeader, text⟩ :: ·) := by
  unfold splitBody
  rw [delimiter_eq, multipartBody_eq, segments_append not_mem_delimiterRest not_isInfix_nil,
    segments_append not_mem_delimiterRest (not_isInfix_json hplain hhead)]
  exact parts_header (by decide) rfl text _

/-- A first delimiter in the file's text. -/
theorem parts_file {u v : List UInt8} (hhead : u.head? ≠ some 45) (hu : ¬ 13 :: delimiterRest <:+: u) :
    segments (13 :: delimiterRest) (crlf ++ (octetsHeader ++ (crlf ++ (u ++ (13 :: delimiterRest ++ v))))) =
      (crlf ++ (octetsHeader ++ (crlf ++ u))) :: segments (13 :: delimiterRest) v := by
  have hnot : ¬ 13 :: delimiterRest <:+: crlf ++ (octetsHeader ++ (crlf ++ u)) :=
    not_isInfix_header (by decide) rfl (not_isInfix_crlf hhead hu)
  rw [← segments_append not_mem_delimiterRest hnot]
  simp only [List.append_assoc]

theorem parts_of_clean (h : ¬ 13 :: delimiterRest <:+: crlf ++ content) :
    parts (segments (13 :: delimiterRest) (crlf ++ (octetsHeader ++ (crlf ++ fileText content)))) =
      some [⟨octetsHeader, content⟩] := by
  have hclose : segments (13 :: delimiterRest) (dashes ++ crlf) = [dashes ++ crlf] :=
    segments_of_not_isInfix (by decide)
  unfold fileText
  rw [parts_file (by simp [crlf]) h, hclose, ← List.append_assoc crlf crlf, parts_header (by decide) rfl]
  rfl

theorem parts_of_delimiter (h : 13 :: delimiterRest <:+: crlf ++ content) :
    parts (segments (13 :: delimiterRest) (crlf ++ (octetsHeader ++ (crlf ++ fileText content)))) ≠
      some [⟨octetsHeader, content⟩] := by
  obtain ⟨u, v, huv, hu⟩ := exists_first h
  have hfile : fileText content = u ++ (13 :: delimiterRest ++ (v ++ (13 :: delimiterRest ++ (dashes ++ crlf)))) := by
    unfold fileText
    rw [huv]
    simp only [List.append_assoc]
  have hlen := congrArg List.length huv
  simp only [List.length_append, List.length_cons] at hlen
  rw [hfile]
  intro hparts
  match u, huv, hu, hlen, hparts with
  | [], huv, hu, hlen, hparts =>
    rw [parts_file (by simp) hu, List.append_nil, parts_no_content] at hparts
    obtain ⟨ps, -, hps⟩ := Option.map_eq_some_iff.1 hparts
    have hcontent : [] = content := congrArg Part.content (List.cons.inj hps).1
    rw [← hcontent] at hlen
    simp [crlf, delimiterRest, dashes] at hlen
    omega
  | [_], huv, hu, hlen, hparts => cases huv
  | a :: b :: w, huv, hu, hlen, hparts =>
    have hab : a = 13 ∧ b = 10 ∧ content = w ++ (13 :: delimiterRest ++ v) := by
      simp only [crlf, List.cons_append, List.nil_append, List.cons.injEq] at huv
      exact ⟨huv.1.symm, huv.2.1.symm, huv.2.2⟩
    obtain ⟨rfl, rfl, hw⟩ := hab
    rw [parts_file (by simp) hu] at hparts
    have hblank : crlf ++ (octetsHeader ++ (crlf ++ 13 :: 10 :: w)) =
      crlf ++ (octetsHeader ++ (crlf ++ crlf ++ w)) := rfl
    rw [hblank, parts_header (by decide) rfl] at hparts
    obtain ⟨ps, -, hps⟩ := Option.map_eq_some_iff.1 hparts
    have hcontent : w = content := congrArg Part.content (List.cons.inj hps).1
    rw [← hcontent] at hw
    have hlen' := congrArg List.length hw
    simp only [List.length_append, List.length_cons] at hlen'
    omega

theorem decode_request (hr : multipartRequest D bearer name parent content = .ok r) :
    ∃ text, D.dump (metadata name parent) = .ok text ∧
      r.decode = splitBody (ascii boundary) (multipartBody text content) := by
  unfold multipartRequest at hr
  cases htext : D.dump (metadata name parent) with
  | error what =>
    rw [htext] at hr
    cases hr
  | ok text =>
    rw [htext] at hr
    cases hr
    refine ⟨text, rfl, ?_⟩
    show ((boundaryOf ("multipart/related; boundary=" ++ boundary)).bind
      fun b => splitBody b (multipartBody text content)) = _
    rw [boundaryOf_declared]
    rfl

/-- The metadata and the file's bytes are what the body decodes to. -/
def Decodes (D : JsonDump) (name parent : String) (content : List UInt8) (r : MultipartRequest) : Prop :=
  ∃ text, D.dump (metadata name parent) = .ok text ∧
    r.decode = some [⟨jsonHeader, text⟩, ⟨octetsHeader, content⟩]

theorem decodes_of_clean (hr : multipartRequest D bearer name parent content = .ok r)
    (h : ¬ delimiter (ascii boundary) <:+: crlf ++ content) : Decodes D name parent content r := by
  obtain ⟨text, htext, hdecode⟩ := decode_request hr
  refine ⟨text, htext, ?_⟩
  rw [hdecode, decode_eq (D.plain _ _ htext) (D.object _ _ htext), parts_of_clean h]
  rfl

theorem not_decodes_of_delimiter (hr : multipartRequest D bearer name parent content = .ok r)
    (h : delimiter (ascii boundary) <:+: crlf ++ content) : ¬ Decodes D name parent content r := by
  rintro ⟨_, -, hparts⟩
  obtain ⟨text, htext, hdecode⟩ := decode_request hr
  rw [hdecode, decode_eq (D.plain _ _ htext) (D.object _ _ htext)] at hparts
  obtain ⟨ps, hps, hcons⟩ := Option.map_eq_some_iff.1 hparts
  rw [(List.cons.inj hcons).2] at hps
  exact parts_of_delimiter h hps

/-- The two parts of a multipart upload come out as they went in exactly if the file, with the line
break before it, has no delimiter of the body. -/
theorem multipart_decodes_iff
    (hr : (DriveRequest.multipart bearer name parent content).multipart? D = some (.ok r)) :
    Decodes D name parent content r ↔ ¬ delimiter (ascii boundary) <:+: crlf ++ content := by
  have hrequest := Option.some.inj hr
  constructor
  · exact fun hdecodes hin => not_decodes_of_delimiter hrequest hin hdecodes
  · exact decodes_of_clean hrequest

/-- A `dump` that knows the metadata of the file `a` in the folder `p`. -/
def sampleDump : JsonDump where
  dump
    | .object [("name", .string "a"), ("parents", .array [.string "p"])] =>
      .ok (ascii "\x7b\"name\":\"a\",\"parents\":[\"p\"]\x7d")
    | _ => .error "unknown"
  plain j text h := by
    split at h
    · cases h
      have hall : (ascii "\x7b\"name\":\"a\",\"parents\":[\"p\"]\x7d").all (32 ≤ ·) = true := rfl
      simpa using hall
    · cases h
  object fields text h := by
    split at h
    · cases h
      rfl
    · cases h

theorem multipart_decodes_hello : ∃ r,
    (DriveRequest.multipart "Bearer t" "a" "p" (ascii "hello\r\n--")).multipart? sampleDump = some (.ok r) ∧
    Decodes sampleDump "a" "p" (ascii "hello\r\n--") r :=
  ⟨_, rfl, (multipart_decodes_iff (D := sampleDump) rfl).2 (by decide)⟩

/-- A file that is a delimiter line. -/
theorem multipart_not_decoded : ∃ r, (DriveRequest.multipart "Bearer t" "a" "p"
      (ascii ("--" ++ boundary))).multipart? sampleDump = some (.ok r) ∧
    (ascii ("--" ++ boundary)).length ≤ kMultipartThreshold ∧
    ¬ Decodes sampleDump "a" "p" (ascii ("--" ++ boundary)) r := by
  have hrequest : multipartRequest sampleDump "Bearer t" "a" "p" (ascii ("--" ++ boundary)) = .ok _ := rfl
  exact ⟨_, rfl, by decide, not_decodes_of_delimiter hrequest List.infix_rfl⟩

end Cmlb.Upload.GoogleDrive
