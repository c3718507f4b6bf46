import Mathlib.Algebra.Order.Ring.Int
import Cmlb.Lib.Runs

/-!
# The command line of a child on Windows (`quote_arg_w`)

`quote_arg_w` writes an argument so that the rules of `CommandLineToArgvW` read it back: backslashes
mean themselves unless a quote follows, 2n of them before a quote are n and the quote toggles quoting,
2n + 1 are n and a quote. It counts the backslashes of a run in an `int`, which the doubling leaves
from 2^30 backslashes on; shorter runs are read back, whatever stands around them
(`read_back_iff`).
-/

namespace Cmlb.System

open Runs

/-- A result in the 32 bits of an `int`. -/
def int32 (n : Int) : Int := Int.bmod n (2 ^ 32)

namespace QuoteArg

def backslash : UInt8 := 92
def quote : UInt8 := 34
def space : UInt8 := 32
def tab : UInt8 := 9

/-- `static_cast<wchar_t>(static_cast<unsigned char>(c))` -/
def widen (c : UInt8) : UInt16 := c.toUInt16

/-- `for (int i = 0; i < count; ++i) out.push_back(L'\\');` -/
def pushBackslashes (count : Int) : List UInt16 := List.replicate count.toNat (widen backslash)

def needsQuote (arg : List UInt8) : Bool :=
  arg.isEmpty || arg.any fun c => c = space || c = tab || c = quote

/-- The loop over the bytes, after `backslashes`: what it writes, and `backslashes` behind it. -/
def quoteBytes : Int → List UInt8 → List UInt16 × Int
  | backslashes, [] => ([], backslashes)
  | backslashes, c :: arg =>
    if c = backslash then quoteBytes (int32 (backslashes + 1)) arg
    else if c = quote then
      let (out, rest) := quoteBytes 0 arg
      (pushBackslashes (int32 (int32 (backslashes * 2) + 1)) ++ widen quote :: out, rest)
    else
      let (out, rest) := quoteBytes 0 arg
      (pushBackslashes backslashes ++ widen c :: out, rest)

def quoteArgW (arg : List UInt8) : List UInt16 :=
  let (out, backslashes) := quoteBytes 0 arg
  if needsQuote arg then
    widen quote :: out ++ pushBackslashes (int32 (backslashes * 2)) ++ [widen quote]
  else out ++ pushBackslashes backslashes

/-- `cmdline` in `spawn_sync`. -/
def commandLine (executable : List UInt8) (arguments : List (List UInt8)) : List UInt16 :=
  quoteArgW executable ++ arguments.flatMap fun arg => widen space :: quoteArgW arg

/-! ### The rules of `CommandLineToArgvW` -/

/-- A character of an argument, or a quote that begins or ends a quoted part. -/
inductive Token
  | char (c : UInt16)
  | toggle
deriving DecidableEq

/-- The run of `n` backslashes, and the character behind it. -/
def runTokens (n : Nat) (c : UInt16) : List Token :=
  if c = widen quote then
    List.replicate (n / 2) (.char (widen backslash)) ++
      [if n % 2 = 0 then .toggle else .char (widen quote)]
  else List.replicate n (.char (widen backslash)) ++ [.char c]

/-- After `n` backslashes. -/
def tokens : Nat → List UInt16 → List Token
  | n, [] => List.replicate n (.char (widen backslash))
  | n, c :: line => if c = widen backslash then tokens (n + 1) line else runTokens n c ++ tokens 0 line

/-- Spaces and tabs outside quoted parts separate the arguments; `current` is the one that is begun. -/
def split : Bool → Option (List UInt16) → List Token → List (List UInt16)
  | _, current, [] => current.toList
  | quoting, current, .toggle :: line => split (!quoting) (some (current.getD [])) line
  | quoting, current, .char c :: line =>
    if !quoting && (c = widen space || c = widen tab) then current.toList ++ split false none line
    else split quoting (some (current.getD [] ++ [c])) line

def argv (line : List UInt16) : List (List UInt16) := split false none (tokens 0 line)

/-! ### What is written for a run -/

variable {arg : List UInt8} {n : Nat} {c : UInt8}

/-- The backslashes that are pushed for a run. -/
def written (run : Nat × UInt8) : Int :=
  if run.2 = quote then int32 (int32 (int32 run.1 * 2) + 1) else int32 run.1

theorem int32_succ (n : Nat) : int32 (int32 n + 1) = int32 (n + 1 : Nat) := by
  unfold int32
  rw [Int.bmod_add_bmod]
  rfl

theorem quoteBytes_eq (n : Nat) (arg : List UInt8) : quoteBytes (int32 n) arg =
    ((cut backslash n arg).runs.flatMap fun run => pushBackslashes (written run) ++ [widen run.2],
      int32 (cut backslash n arg).last) := by
  induction arg generalizing n with
  | nil => rfl
  | cons c arg ih =>
    have hrest := ih 0
    rw [show int32 (0 : Nat) = 0 from rfl] at hrest
    by_cases hback : c = backslash
    · rw [hback, quoteBytes, if_pos rfl, int32_succ, ih, cut_cons_self]
    · rw [quoteBytes, if_neg hback, cut_cons_of_ne hback, List.flatMap_cons, hrest, written]
      by_cases hquote : c = quote
      · rw [if_pos hquote, if_pos hquote, hquote, List.append_assoc]
        rfl
      · rw [if_neg hquote, if_neg hquote, List.append_assoc]
        rfl

/-! ### What is read of an argument -/

theorem space_ne_backslash : space ≠ backslash := by decide

theorem quote_ne_backslash : quote ≠ backslash := by decide

theorem widen_inj {c d : UInt8} : widen c = widen d ↔ c = d := by
  refine ⟨fun h => ?_, congrArg widen⟩
  have hnat : c.toNat = d.toNat := congrArg UInt16.toNat h
  exact UInt8.toNat_inj.1 hnat

theorem tokens_replicate (n k : Nat) (line : List UInt16) :
    tokens n (List.replicate k (widen backslash) ++ line) = tokens (n + k) line := by
  induction k generalizing n with
  | zero => rfl
  | succ k ih =>
    rw [List.replicate_succ, List.cons_append, tokens, if_pos rfl, ih, Nat.add_right_comm]
    rfl

/-- A run is read for itself. -/
theorem tokens_run (h : c ≠ backslash) (k : Nat) (line : List UInt16) :
    tokens 0 (List.replicate k (widen backslash) ++ widen c :: line) =
      runTokens k (widen c) ++ tokens 0 line := by
  rw [tokens_replicate, Nat.zero_add, tokens, if_neg (mt widen_inj.1 h)]

theorem tokens_runs {runs : List (Nat × UInt8)} (h : ∀ run ∈ runs, run.2 ≠ backslash) (line : List UInt16) :
    tokens 0 ((runs.flatMap fun run => pushBackslashes (written run) ++ [widen run.2]) ++ line) =
      (runs.flatMap fun run => runTokens (written run).toNat (widen run.2)) ++ tokens 0 line := by
  induction runs with
  | nil => rfl
  | cons run runs ih =>
    rw [List.forall_mem_cons] at h
    rw [List.flatMap_cons, List.flatMap_cons, List.append_assoc, List.append_assoc, List.append_assoc,
      List.singleton_append, pushBackslashes, tokens_run h.1, ih h.2]

def argTokens (arg : List UInt8) : List Token :=
  let c := cut backslash 0 arg
  let body := c.runs.flatMap fun run => runTokens (written run).toNat (widen run.2)
  if needsQuote arg then
    .toggle :: body ++ runTokens (int32 (int32 c.last * 2)).toNat (widen quote)
  else body ++ List.replicate (int32 c.last).toNat (.char (widen backslash))

/-- Backslashes at the end of an argument that is not quoted. -/
theorem tokens_pushBackslashes {line : List UInt16} (h : line = [] ∨ ∃ rest, line = widen space :: rest)
    (count : Int) : tokens 0 (pushBackslashes count ++ line) =
      List.replicate count.toNat (.char (widen backslash)) ++ tokens 0 line := by
  unfold pushBackslashes
  rcases h with rfl | ⟨rest, rfl⟩
  · rw [tokens_replicate, Nat.zero_add]
    exact (List.append_nil _).symm
  · have hsep := tokens_run space_ne_backslash 0 rest
    rw [List.replicate_zero, List.nil_append] at hsep
    rw [tokens_run space_ne_backslash, hsep, ← List.append_assoc]
    rfl

/-- What follows an argument is not read with it. -/
theorem tokens_quoteArgW {line : List UInt16} (h : line = [] ∨ ∃ rest, line = widen space :: rest) :
    tokens 0 (quoteArgW arg ++ line) = argTokens arg ++ tokens 0 line := by
  have hruns : ∀ run ∈ (cut backslash 0 arg).runs, run.2 ≠ backslash := ne_of_mem_cut
  have hbytes := quoteBytes_eq 0 arg
  rw [show int32 (0 : Nat) = 0 from rfl] at hbytes
  unfold quoteArgW argTokens
  rw [hbytes]
  dsimp only
  split_ifs with hneeds
  · have hopen (line : List UInt16) : tokens 0 (widen quote :: line) = .toggle :: tokens 0 line :=
      tokens_run quote_ne_backslash 0 line
    rw [List.cons_append, List.append_assoc, List.cons_append, List.append_assoc, List.append_assoc,
      List.singleton_append, hopen, tokens_runs hruns, pushBackslashes, tokens_run quote_ne_backslash,
      List.cons_append]
  · rw [List.append_assoc, tokens_runs hruns, List.append_assoc, tokens_pushBackslashes h]

/-! ### Runs that are read back -/

/-- No run of the argument is so long that its backslashes, or twice as many before a quote, do not
fit an `int`. -/
structure RunsFit (arg : List UInt8) : Prop where
  runs : ∀ run ∈ (cut backslash 0 arg).runs, run.1 < if run.2 = quote then 2 ^ 30 else 2 ^ 31
  last : (cut backslash 0 arg).last < if needsQuote arg then 2 ^ 30 else 2 ^ 31

/-- The characters with a meaning of their own. -/
def special (c : UInt16) : Bool := c = widen backslash || c = widen quote

def Token.special : Token → Bool
  | .char c => QuoteArg.special c
  | .toggle => false

theorem special_backslash : special (widen backslash) = true := by decide

theorem token_special_backslash : Token.special (.char (widen backslash)) = true := special_backslash

theorem toNat_int32 (n : Nat) :
    (int32 n).toNat = if n % 4294967296 < 2147483648 then n % 4294967296 else 0 := by
  unfold int32
  rw [Int.bmod_def]
  split_ifs <;> omega

theorem toNat_int32_of_lt (h : n < 2147483648) : (int32 n).toNat = n := by
  rw [toNat_int32, Nat.mod_eq_of_lt (Nat.lt_trans h (by decide)), if_pos h]

theorem written_quote {run : Nat × UInt8} (h : run.2 = quote) :
    written run = int32 (2 * run.1 + 1 : Nat) := by
  unfold written int32
  rw [if_pos h, Int.bmod_add_bmod, ← Int.bmod_add_bmod, Int.bmod_mul_bmod, Int.bmod_add_bmod,
    Int.mul_comm]
  rfl

theorem int32_double (n : Nat) : int32 (int32 n * 2) = int32 (2 * n : Nat) := by
  unfold int32
  rw [Int.bmod_mul_bmod, Int.mul_comm]
  rfl

/-- What is written for a run that fits is read as the run. -/
theorem runTokens_written {run : Nat × UInt8} (h : run.1 < if run.2 = quote then 2 ^ 30 else 2 ^ 31) :
    runTokens (written run).toNat (widen run.2) =
      (List.replicate run.1 backslash ++ [run.2]).map fun c => .char (widen c) := by
  rw [List.map_append, List.map_replicate, runTokens]
  by_cases hquote : run.2 = quote
  · rw [if_pos hquote] at h
    have hcount : (int32 (2 * run.1 + 1 : Nat)).toNat = 2 * run.1 + 1 := toNat_int32_of_lt (by omega)
    rw [if_pos (congrArg widen hquote), written_quote hquote, hcount, if_neg (by omega), hquote,
      show (2 * run.1 + 1) / 2 = run.1 by omega]
    rfl
  · rw [if_neg hquote] at h
    have hcount : (int32 run.1).toNat = run.1 := toNat_int32_of_lt (by omega)
    rw [if_neg (mt widen_inj.1 hquote), written, if_neg hquote, hcount]
    rfl

theorem countP_runTokens {c : UInt8} (h : c ≠ backslash) (n : Nat) :
    (runTokens n (widen c)).countP Token.special = if c = quote then n / 2 + n % 2 else n := by
  unfold runTokens
  by_cases hquote : c = quote
  · rw [if_pos (congrArg widen hquote), if_pos hquote, List.countP_append, List.countP_replicate,
      if_pos token_special_backslash]
    split_ifs with heven
    · rw [heven]
      rfl
    · rw [Nat.mod_two_ne_zero.1 heven]
      rfl
  · have hplain : Token.special (.char (widen c)) = false := by
      simp [Token.special, special, widen_inj, h, hquote]
    rw [if_neg (mt widen_inj.1 hquote), if_neg hquote, List.countP_append, List.countP_replicate,
      if_pos token_special_backslash, List.countP_singleton, hplain]
    rfl

/-- No more backslashes and quotes are read than there are, and as many only if the run fits. -/
theorem countP_written {run : Nat × UInt8} (h : run.2 ≠ backslash) :
    (runTokens (written run).toNat (widen run.2)).countP Token.special ≤
        ((List.replicate run.1 backslash ++ [run.2]).map widen).countP special ∧
      ((runTokens (written run).toNat (widen run.2)).countP Token.special =
          ((List.replicate run.1 backslash ++ [run.2]).map widen).countP special →
        run.1 < if run.2 = quote then 2 ^ 30 else 2 ^ 31) := by
  have hcount : ((List.replicate run.1 backslash ++ [run.2]).map widen).countP special =
      run.1 + if run.2 = quote then 1 else 0 := by
    have hend : special (widen run.2) = decide (run.2 = quote) := by
      simp [special, widen_inj, h]
    rw [List.map_append, List.map_replicate, List.countP_append, List.countP_replicate,
      if_pos special_backslash, List.map_singleton, List.countP_singleton, hend]
    simp only [decide_eq_true_eq]
  rw [countP_runTokens h, hcount]
  by_cases hquote : run.2 = quote
  · rw [if_pos hquote, if_pos hquote, if_pos hquote, written_quote hquote, toNat_int32]
    split_ifs <;> omega
  · rw [if_neg hquote, if_neg hquote, if_neg hquote, written, if_neg hquote, toNat_int32]
    split_ifs <;> omega

/-- The characters of an argument, cut into its runs. -/
theorem map_widen_eq (arg : List UInt8) : arg.map widen =
    ((cut backslash 0 arg).runs.flatMap fun run =>
        (List.replicate run.1 backslash ++ [run.2]).map widen) ++
      List.replicate (cut backslash 0 arg).last (widen backslash) := by
  have hglue := glue_cut backslash 0 arg
  rw [List.replicate_zero, List.nil_append] at hglue
  conv_lhs => rw [← hglue]
  rw [Cut.glue, List.map_append, List.map_flatMap, List.map_replicate]

/-- The tokens of the quotes around an argument. -/
def enclosed (arg : List UInt8) (body : List Token) : List Token :=
  if needsQuote arg then .toggle :: body ++ [.toggle] else body

theorem argTokens_of_fit (h : RunsFit arg) :
    argTokens arg = enclosed arg ((arg.map widen).map .char) := by
  have hruns : ((cut backslash 0 arg).runs.flatMap fun run => runTokens (written run).toNat (widen run.2)) =
      (cut backslash 0 arg).runs.flatMap fun run =>
        (List.replicate run.1 backslash ++ [run.2]).map fun c => .char (widen c) :=
    List.flatMap_congr fun run hrun => runTokens_written (h.runs run hrun)
  have hlast := h.last
  unfold argTokens enclosed
  dsimp only
  rw [hruns, map_widen_eq, List.map_append, List.map_flatMap, List.map_replicate]
  simp only [List.map_map, Function.comp_def]
  split_ifs at hlast ⊢ with hneeds
  · have hcount : (int32 (2 * (cut backslash 0 arg).last : Nat)).toNat = 2 * (cut backslash 0 arg).last := by
      rw [toNat_int32]
      split_ifs <;> omega
    rw [int32_double, hcount, runTokens, if_pos rfl, if_pos (by omega),
      show 2 * (cut backslash 0 arg).last / 2 = (cut backslash 0 arg).last by omega, List.cons_append,
      List.cons_append, List.append_assoc]
  · have hcount : (int32 (cut backslash 0 arg).last).toNat = (cut backslash 0 arg).last := by
      rw [toNat_int32]
      split_ifs <;> omega
    rw [hcount]

theorem countP_argTokens (arg : List UInt8) :
    (argTokens arg).countP Token.special ≤ (arg.map widen).countP special ∧
      ((argTokens arg).countP Token.special = (arg.map widen).countP special → RunsFit arg) := by
  have hruns : ∀ run ∈ (cut backslash 0 arg).runs, run.2 ≠ backslash := ne_of_mem_cut
  have hle := countP_flatMap_le fun run hrun => (countP_written (hruns run hrun)).1
  have heq := countP_eq_of_flatMap fun run hrun => (countP_written (hruns run hrun)).1
  have hsum : (argTokens arg).countP Token.special =
      ((cut backslash 0 arg).runs.flatMap fun run =>
        runTokens (written run).toNat (widen run.2)).countP Token.special +
      if needsQuote arg then (int32 (2 * (cut backslash 0 arg).last : Nat)).toNat / 2 +
        (int32 (2 * (cut backslash 0 arg).last : Nat)).toNat % 2
      else (int32 (cut backslash 0 arg).last).toNat := by
    unfold argTokens
    dsimp only
    split_ifs
    · rw [List.cons_append, List.countP_cons, List.countP_append, int32_double,
        countP_runTokens quote_ne_backslash, if_pos rfl,
        show Token.special .toggle = false from rfl, if_neg Bool.false_ne_true, Nat.add_zero]
    · rw [List.countP_append, List.countP_replicate, if_pos token_special_backslash]
  rw [hsum, map_widen_eq, List.countP_append, List.countP_replicate, if_pos special_backslash, toNat_int32,
    toNat_int32]
  refine ⟨by split_ifs <;> omega, fun h => ⟨fun run hrun => ?_, ?_⟩⟩
  · refine (countP_written (hruns run hrun)).2 (heq ?_ run hrun)
    split_ifs at h <;> omega
  · split_ifs at h ⊢ <;> omega

/-! ### The arguments of the line -/

theorem tokens_commandLine (executable : List UInt8) (arguments : List (List UInt8)) :
    tokens 0 (commandLine executable arguments) =
      argTokens executable ++ arguments.flatMap fun arg => .char (widen space) :: argTokens arg := by
  unfold commandLine
  induction arguments generalizing executable with
  | nil => exact tokens_quoteArgW (.inl rfl)
  | cons arg arguments ih =>
    have hsep (line : List UInt16) : tokens 0 (widen space :: line) = .char (widen space) :: tokens 0 line :=
      tokens_run space_ne_backslash 0 line
    rw [List.flatMap_cons, List.flatMap_cons, List.cons_append, List.cons_append,
      tokens_quoteArgW (.inr ⟨_, rfl⟩), hsep, ih]

theorem split_chars {quoting : Bool} {chars : List UInt16} {current : List UInt16}
    (h : quoting = true ∨ ∀ c ∈ chars, c ≠ widen space ∧ c ≠ widen tab) (line : List Token) :
    split quoting (some current) (chars.map .char ++ line) = split quoting (some (current ++ chars)) line := by
  induction chars generalizing current with
  | nil => rw [List.append_nil]; rfl
  | cons c chars ih =>
    have hnot : ¬(!quoting && (c = widen space || c = widen tab)) = true := by
      rcases h with rfl | h
      · simp
      · simp [(h c List.mem_cons_self).1, (h c List.mem_cons_self).2]
    rw [List.map_cons, List.cons_append, split, if_neg hnot, ih (h.imp_right fun h d hd => h d (.tail _ hd)),
      Option.getD_some, List.append_assoc]
    rfl

/-- An argument that is read as it is. -/
theorem split_enclosed (arg : List UInt8) (line : List Token) :
    split false none (enclosed arg ((arg.map widen).map .char) ++ line) =
      split false (some (arg.map widen)) line := by
  unfold enclosed
  split_ifs with hneeds
  · rw [List.cons_append, List.cons_append, List.append_assoc]
    show split true (some []) _ = _
    rw [split_chars (.inl rfl)]
    rfl
  · cases arg with
    | nil => exact absurd rfl hneeds
    | cons c arg =>
      simp only [needsQuote, List.isEmpty_cons, Bool.false_or, Bool.not_eq_true, List.any_eq_false,
        Bool.or_eq_true, decide_eq_true_eq, not_or] at hneeds
      have hplain : ∀ d ∈ (c :: arg).map widen, d ≠ widen space ∧ d ≠ widen tab := by
        rw [List.forall_mem_map]
        intro d hd
        exact ⟨mt widen_inj.1 (hneeds d hd).1.1, mt widen_inj.1 (hneeds d hd).1.2⟩
      rw [List.map_cons, List.forall_mem_cons] at hplain
      have hfirst : ¬(!false && (widen c = widen space || widen c = widen tab)) = true := by
        simp [hplain.1.1, hplain.1.2]
      rw [List.map_cons, List.map_cons, List.cons_append, split, if_neg hfirst,
        split_chars (.inr hplain.2)]
      rfl

theorem split_separated (current : List UInt16) (arguments : List (List UInt8)) :
    split false (some current) (arguments.flatMap fun arg =>
      .char (widen space) :: enclosed arg ((arg.map widen).map .char)) =
        current :: arguments.map (List.map widen) := by
  induction arguments generalizing current with
  | nil => rfl
  | cons arg arguments ih =>
    have hsep : (!false && (widen space = widen space || widen space = widen tab)) = true := rfl
    rw [List.flatMap_cons, List.cons_append, split, if_pos hsep, split_enclosed, ih]
    rfl

/-- Every backslash and every quote that is read comes from a token. -/
theorem countP_split (quoting : Bool) (current : Option (List UInt16)) (line : List Token) :
    (split quoting current line).flatten.countP special =
      (current.getD []).countP special + line.countP Token.special := by
  induction line generalizing quoting current with
  | nil => cases current <;> simp [split]
  | cons t line ih =>
    cases t with
    | toggle =>
      rw [split, ih, List.countP_cons_of_neg (by decide)]
      rfl
    | char c =>
      rw [split]
      split_ifs with hsep
      · have hplain : ¬Token.special (.char c) = true := by
          simp only [Bool.and_eq_true, Bool.or_eq_true, decide_eq_true_eq] at hsep
          rcases hsep.2 with rfl | rfl <;> decide
        rw [List.flatten_append, List.countP_append, ih, List.countP_cons_of_neg hplain]
        cases current <;> simp
      · rw [ih, Option.getD_some, List.countP_append, List.countP_singleton, List.countP_cons,
          Nat.add_right_comm, ← Nat.add_assoc]
        rfl

theorem fit_of_read_back {executable : List UInt8} {arguments : List (List UInt8)}
    (h : argv (commandLine executable arguments) = (executable :: arguments).map (List.map widen)) :
    ∀ arg ∈ executable :: arguments, RunsFit arg := by
  have hline : (tokens 0 (commandLine executable arguments)).countP Token.special =
      ((executable :: arguments).flatMap argTokens).countP Token.special := by
    rw [tokens_commandLine, List.flatMap_cons, List.countP_append, List.countP_append,
      List.countP_flatMap, List.countP_flatMap]
    rfl
  have hcount := congrArg (fun args => args.flatten.countP special) h
  rw [argv, countP_split, hline, ← List.flatMap_def] at hcount
  have hparts := countP_eq_of_flatMap (fun arg _ => (countP_argTokens arg).1)
    ((Nat.zero_add _).symm.trans hcount)
  exact fun arg harg => (countP_argTokens arg).2 (hparts arg harg)

/-- The line is read back exactly if no run of backslashes is too long for the `int`. -/
theorem read_back_iff (executable : List UInt8) (arguments : List (List UInt8)) :
    argv (commandLine executable arguments) = (executable :: arguments).map (List.map widen) ↔
      ∀ arg ∈ executable :: arguments, RunsFit arg := by
  refine ⟨fit_of_read_back, fun h => ?_⟩
  rw [List.forall_mem_cons] at h
  have harguments : (arguments.flatMap fun arg => Token.char (widen space) :: argTokens arg) =
      arguments.flatMap fun arg =>
        Token.char (widen space) :: enclosed arg ((arg.map widen).map .char) :=
    List.flatMap_congr fun arg harg => by rw [argTokens_of_fit (h.2 arg harg)]
  rw [argv, tokens_commandLine, argTokens_of_fit h.1, harguments, split_enclosed, split_separated]
  rfl

/-- 2^30 backslashes before a quote. -/
def longRun : List UInt8 := List.replicate (2 ^ 30) backslash ++ [quote]

theorem longRun_not_read : ¬∀ executable arguments, quote ∉ executable →
    argv (commandLine executable arguments) = (executable :: arguments).map (List.map widen) := by
  intro h
  have hfit := fit_of_read_back (h [97] [longRun] (by decide)) longRun (by simp)
  have hrun := hfit.runs (2 ^ 30, quote)
  rw [longRun, cut_replicate_append, cut_cons_of_ne (by decide)] at hrun
  have hlt := hrun (List.mem_cons_self ..)
  rw [if_pos rfl] at hlt
  exact Nat.lt_irrefl _ hlt

end QuoteArg

end Cmlb.System
