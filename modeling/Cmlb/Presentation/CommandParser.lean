import Cmlb.Lib.LetterCase
import Cmlb.Lib.Trimming
import Cmlb.Presentation.CommandDispatcher

/-!
# `CommandParser`

A message is a command when its text, trimmed, has a `/` and a head behind it: what stands before the
first white space, cut at the first `@`. A `std::string` is a `String` whose characters are its bytes,
and the locale is "C".

`parse_normal_form` says which texts are parsed and what a request has; the request, written out, is
parsed to itself.
-/

namespace Cmlb.CommandParser

open Trimming

/-- `std::isspace`. -/
def isSpace (c : Char) : Bool :=
  c == ' ' || c == '\t' || c == '\n' || c == '\x0b' || c == '\x0c' || c == '\r'

def toLowerAscii (text : List Char) : List Char := text.map Char.toLower

def parse (text : String) (sender : UserId) (chat : ChatId) (msg : MessageId) : Option CommandRequest :=
  match trim isSpace text.toList with
  | '/' :: body =>
    if body = [] then none
    else
      let head := body.takeWhile (!isSpace ·)
      -- without the white space that ended the head
      let tail := (body.dropWhile (!isSpace ·)).tail
      let head := head.takeWhile (· != '@')
      if head = [] then none
      else some
        { command := String.ofList (toLowerAscii head)
          arguments := String.ofList (trim isSpace tail)
          fullText := text
          sender := sender
          chat := chat
          sourceMessage := msg }
  | _ => none

variable {text : String} {sender : UserId} {chat : ChatId} {msg : MessageId} {r : CommandRequest}
  {body head : List Char} {c : Char}

/-! ### Letters -/

theorem not_isAlpha_of_isSpace (h : isSpace c = true) : c.isAlpha = false := by
  simp only [isSpace, Bool.or_eq_true, beq_iff_eq] at h
  rcases h with ((((rfl | rfl) | rfl) | rfl) | rfl) | rfl
  all_goals decide

/-- Lower case neither makes a white space nor takes one away. -/
theorem isSpace_toLower (c : Char) : isSpace c.toLower = isSpace c := by
  rcases LetterCase.toLower_cases c with h | ⟨hlower, h⟩
  · rw [h]
  · have hno : ∀ d : Char, d.isAlpha = true → isSpace d = false := by
      intro d hd
      refine Bool.eq_false_iff.2 fun hspace => ?_
      rw [not_isAlpha_of_isSpace hspace] at hd
      cases hd
    rw [hno _ hlower, hno _ h]

theorem toLowerAscii_idem (text : List Char) : toLowerAscii (toLowerAscii text) = toLowerAscii text := by
  simp [toLowerAscii]

/-! ### The parts of a text -/

/-- The characters up to the first white space, cut at the first `@`. -/
def headOf (body : List Char) : List Char := (body.takeWhile (!isSpace ·)).takeWhile (· != '@')

/-- What stands behind the characters up to the first white space. -/
def restOf (body : List Char) : List Char := body.dropWhile (!isSpace ·)

theorem mem_headOf (h : c ∈ headOf body) : isSpace c = false ∧ c ≠ '@' := by
  have hat := List.mem_takeWhile_imp h
  have hspace := List.mem_takeWhile_imp ((List.takeWhile_sublist _).subset h)
  exact ⟨by simpa using hspace, by simpa using hat⟩

theorem trim_restOf_tail (body : List Char) : trim isSpace (restOf body).tail = trim isSpace (restOf body) := by
  cases hrest : restOf body with
  | nil => rfl
  | cons c rest =>
    have hc : isSpace c = true := by
      have hnot := List.head?_dropWhile_not (!isSpace ·) body
      rw [← restOf, hrest] at hnot
      simpa using hnot
    rw [trim_cons_of_pos hc]
    rfl

/-- The request of a text. -/
def request (text : String) (sender : UserId) (chat : ChatId) (msg : MessageId) (body : List Char) :
    CommandRequest :=
  { command := String.ofList (toLowerAscii (headOf body))
    arguments := String.ofList (trim isSpace (restOf body))
    fullText := text
    sender := sender
    chat := chat
    sourceMessage := msg }

theorem parse_eq_some_iff : parse text sender chat msg = some r ↔
    ∃ body, trim isSpace text.toList = '/' :: body ∧ headOf body ≠ [] ∧
      r = request text sender chat msg body := by
  unfold parse
  split
  · rename_i body htrim
    simp only [htrim, List.cons.injEq, true_and, exists_eq_left']
    by_cases hnil : body = []
    · subst hnil
      simp [headOf]
    · rw [if_neg hnil]
      show (if headOf body = [] then none else some _) = some r ↔ _
      by_cases hhead : headOf body = []
      · simp [hhead]
      · rw [if_neg hhead, Option.some.injEq, and_iff_right hhead, request, ← trim_restOf_tail, eq_comm]
        rfl
  · rename_i hno
    simp only [reduceCtorEq, false_iff, not_exists, not_and]
    intro body htrim
    exact absurd htrim (hno body)

/-! ### The text of a request -/

/-- `/`, the command, a blank and the arguments. -/
def written (r : CommandRequest) : String := "/" ++ r.command ++ " " ++ r.arguments

section Written

variable {command arguments : List Char} (hcommand : ∀ c ∈ command, isSpace c = false ∧ c ≠ '@')
  (hne : command ≠ []) (harguments : Bare isSpace arguments)

include hcommand hne harguments in
/-- Only a blank with no arguments behind it is trimmed away. -/
theorem trim_written : trim isSpace ('/' :: command ++ ' ' :: arguments) =
    '/' :: command ++ if arguments = [] then [] else ' ' :: arguments := by
  by_cases hnil : arguments = []
  · subst hnil
    have hbare : Bare isSpace ('/' :: command) := by
      refine ⟨by rintro c ⟨⟩; rfl, fun c hc => ?_⟩
      rw [List.getLast?_cons_of_ne_nil hne] at hc
      exact (hcommand c (List.mem_of_getLast? hc)).1
    have hpad : ∀ c ∈ [' '], isSpace c = true := by simp [isSpace]
    rw [if_pos rfl, List.append_nil, ← List.nil_append ('/' :: command)]
    exact trim_pad (by simp) hpad hbare
  · rw [if_neg hnil]
    refine trim_eq_self ⟨by rintro c ⟨⟩; rfl, fun c hc => harguments.last c ?_⟩
    rwa [List.getLast?_append_cons, List.getLast?_cons_of_ne_nil hnil] at hc

include hcommand in
theorem headOf_written (rest : List Char) (hrest : ∀ c, rest.head? = some c → isSpace c = true) :
    headOf (command ++ rest) = command ∧ restOf (command ++ rest) = rest := by
  have hspace : ∀ c ∈ command, (!isSpace c) = true := by
    intro c hc
    rw [(hcommand c hc).1]
    rfl
  have hstop : rest.takeWhile (!isSpace ·) = [] ∧ rest.dropWhile (!isSpace ·) = rest := by
    cases rest with
    | nil => exact ⟨rfl, rfl⟩
    | cons c rest => simp [hrest c rfl]
  constructor
  · rw [headOf, List.takeWhile_append_of_pos hspace, hstop.1, List.append_nil]
    refine List.takeWhile_eq_self_iff.2 fun c hc => ?_
    simpa using (hcommand c hc).2
  · rw [restOf, List.dropWhile_append_of_pos hspace, hstop.2]

end Written

theorem mem_request_command (h : c ∈ (request text sender chat msg body).command.toList) :
    isSpace c = false ∧ c ≠ '@' := by
  rw [request, String.toList_ofList, toLowerAscii] at h
  obtain ⟨d, hd, rfl⟩ := List.mem_map.1 h
  obtain ⟨hspace, hat⟩ := mem_headOf hd
  rw [isSpace_toLower, ne_eq, LetterCase.toLower_eq_iff (by decide)]
  exact ⟨hspace, hat⟩

/-- A request, written out, is parsed to its command and arguments. -/
theorem parse_written (hhead : headOf body ≠ []) (hr : r = request text sender chat msg body) :
    ∃ r', parse (written r) sender chat msg = some r' ∧ r'.command = r.command ∧
      r'.arguments = r.arguments := by
  have hcommand : ∀ c ∈ toLowerAscii (headOf body), isSpace c = false ∧ c ≠ '@' := by
    intro c hc
    have hmem : c ∈ (request text sender chat msg body).command.toList := by
      rwa [request, String.toList_ofList]
    exact mem_request_command hmem
  have hne : toLowerAscii (headOf body) ≠ [] := by simpa [toLowerAscii] using hhead
  have hbare := bare_trim isSpace (restOf body)
  have hwritten : (written r).toList =
      '/' :: toLowerAscii (headOf body) ++ ' ' :: trim isSpace (restOf body) := by
    rw [hr]
    simp [written, request]
  obtain ⟨rest, hrest⟩ : ∃ rest, rest = if trim isSpace (restOf body) = [] then [] else
      ' ' :: trim isSpace (restOf body) := ⟨_, rfl⟩
  have hblank : ∀ c, rest.head? = some c → isSpace c = true := by
    intro c hc
    split at hrest
    · simp [hrest] at hc
    · simp only [hrest, List.head?_cons, Option.some.injEq] at hc
      rw [← hc]
      rfl
  have htrim : trim isSpace rest = trim isSpace (restOf body) := by
    split at hrest
    · rename_i hnil
      rw [hrest, hnil]
      rfl
    · rw [hrest, trim_cons_of_pos (by rfl), trim_eq_self hbare]
  obtain ⟨hhead', hrest'⟩ := headOf_written hcommand rest hblank
  refine ⟨request (written r) sender chat msg (toLowerAscii (headOf body) ++ rest),
    parse_eq_some_iff.2 ⟨_, ?_, ?_, rfl⟩, ?_, ?_⟩
  · rw [hwritten, trim_written hcommand hne hbare, hrest]
    rfl
  · rwa [hhead']
  · rw [hr]
    simp only [request, hhead', toLowerAscii_idem]
  · rw [hr]
    simp [request, hrest', htrim]

/-- A text is parsed exactly if it is a `/` with a head behind it, once trimmed. The command is the head
in lower case, the arguments are the trimmed rest, and written out they are parsed to the same. -/
theorem parse_normal_form (text : String) (sender : UserId) (chat : ChatId) (msg : MessageId) :
    ((∃ r, parse text sender chat msg = some r) ↔
      ∃ body, trim isSpace text.toList = '/' :: body ∧ headOf body ≠ []) ∧
    ∀ r body, parse text sender chat msg = some r → trim isSpace text.toList = '/' :: body →
      r.command.toList = toLowerAscii (headOf body) ∧ r.command ≠ "" ∧
      (∀ c ∈ r.command.toList, isSpace c = false ∧ c ≠ '@') ∧
      r.arguments.toList = trim isSpace (restOf body) ∧
      ∃ r', parse (written r) sender chat msg = some r' ∧ r'.command = r.command ∧
        r'.arguments = r.arguments := by
  refine ⟨?_, fun r body hr hbody => ?_⟩
  · simp only [parse_eq_some_iff]
    constructor
    · rintro ⟨r, body, hbody, hhead, -⟩
      exact ⟨body, hbody, hhead⟩
    · rintro ⟨body, hbody, hhead⟩
      exact ⟨_, body, hbody, hhead, rfl⟩
  · obtain ⟨body', hbody', hhead, hrequest⟩ := parse_eq_some_iff.1 hr
    rw [hbody, List.cons.injEq, eq_self, true_and] at hbody'
    subst hbody'
    refine ⟨by simp [hrequest, request], ?_, ?_, by simp [hrequest, request], parse_written hhead hrequest⟩
    · rw [hrequest]
      simpa [request, toLowerAscii] using hhead
    · rw [hrequest]
      exact fun c hc => mem_request_command hc

end Cmlb.CommandParser
