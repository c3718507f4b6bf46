import Mathlib.Data.List.Induction
import Mathlib.Data.List.TakeWhile
import Mathlib.Data.Option.Basic
import Cmlb.Persistence.TimeCodec

/-!
# What `parse_iso8601` accepts

The fields of a text are its first 19 characters (`takeFields_iff`), and the date among them has to be
a real one; the hour, the minute and the second are added as they are, and the sum is cast to the 64
bits of a `time_point`. So a text is the text of the time that it is read as only if it names a time
of a day, within the clock's range (`accepts_real_iff`).
-/

namespace Cmlb.TimeCodec

open Calendar

/-- `parse_iso8601`, with the cast of the sum to the 64-bit nanoseconds of `SysTime`. -/
def parseSysTime (text : String) : Result Time :=
  (parseIso8601 text).map fun ns => Int.bmod ns (2 ^ 64)

/-- The characters that fields are read from. -/
def Fields.stamp (f : Fields) : List Char :=
  pad4 f.year ++ '-' :: pad2 f.mon ++ '-' :: pad2 f.day ++ 'T' :: pad2 f.hh ++ ':' :: pad2 f.mm ++
    ':' :: pad2 f.ss

def Fields.date (f : Fields) : Date := ⟨f.year, f.mon, f.day⟩

/-- Numbers of four and of two digits. -/
structure Fields.InDigits (f : Fields) : Prop where
  year : f.year < 10000
  mon : f.mon < 100
  day : f.day < 100
  hh : f.hh < 100
  mm : f.mm < 100
  ss : f.ss < 100

/-- The milliseconds from the epoch. -/
def Fields.millis (f : Fields) (fraction : Nat) : Int :=
  f.date.toDays * msPerDay + f.hh * 3600000 + f.mm * 60000 + f.ss * 1000 + fraction

/-! ### Digits -/

/-- The last `len` digits of a number. -/
def pad : Nat → Nat → List Char
  | 0, _ => []
  | len + 1, n => pad len (n / 10) ++ [digit n]

theorem length_pad (len n : Nat) : (pad len n).length = len := by
  induction len generalizing n with
  | zero => rfl
  | succ len ih => rw [pad, List.length_append, ih, List.length_singleton]

theorem isDigit_of_mem_pad {len n : Nat} : ∀ c ∈ pad len n, isDigit c = true := by
  induction len generalizing n with
  | zero => simp [pad]
  | succ len ih =>
    rw [pad, List.forall_mem_append]
    exact ⟨ih, by simp [isDigit_digit]⟩

theorem foldl_pad (len n : Nat) : (pad len n).foldl pushDigit 0 = n % 10 ^ len := by
  induction len generalizing n with
  | zero => simp [pad, Nat.mod_one]
  | succ len ih =>
    rw [pad, List.foldl_append, ih, List.foldl_cons, List.foldl_nil, pushDigit_digit, Nat.pow_succ',
      Nat.mod_mul]
    omega

theorem digit_of_isDigit {c : Char} (h : isDigit c = true) (v : Nat) : digit (pushDigit v c) = c := by
  simp only [isDigit, Bool.and_eq_true, decide_eq_true_eq] at h
  have hlow : 48 ≤ c.toNat := h.1
  have hhigh : c.toNat ≤ 57 := h.2
  rw [← Char.toNat_inj, digit_toNat, pushDigit, show '0'.toNat = 48 from rfl]
  omega

theorem pushDigit_div {c : Char} (h : isDigit c = true) (v : Nat) : pushDigit v c / 10 = v := by
  simp only [isDigit, Bool.and_eq_true, decide_eq_true_eq] at h
  have hlow : 48 ≤ c.toNat := h.1
  have hhigh : c.toNat ≤ 57 := h.2
  rw [pushDigit, show '0'.toNat = 48 from rfl]
  omega

/-- Digits are the digits of the number they are read as. -/
theorem pad_foldl {digits : List Char} (h : ∀ c ∈ digits, isDigit c = true) :
    pad digits.length (digits.foldl pushDigit 0) = digits := by
  induction digits using List.reverseRecOn with
  | nil => rfl
  | append_singleton digits c ih =>
    rw [List.forall_mem_append, List.forall_mem_singleton] at h
    rw [List.length_append, List.foldl_append, List.length_singleton, pad, List.foldl_cons,
      List.foldl_nil, pushDigit_div h.2, digit_of_isDigit h.2, ih h.1]

theorem pad_two (n : Nat) : pad 2 n = pad2 n := rfl

theorem pad_four (n : Nat) : pad 4 n = pad4 n := by
  simp only [pad, pad4, Nat.div_div_eq_div_mul, List.nil_append, List.cons_append]

/-- A field that is read is the digits of its number. -/
theorem takeInt_iff {s : List Char} {off n : Nat} (len : Nat) (hpos : 0 < len) :
    takeInt s off len = some n ↔ (s.drop off).take len = pad len n ∧ n < 10 ^ len := by
  unfold takeInt
  dsimp only
  constructor
  · intro h
    split_ifs at h with hbad
    rw [not_or, Bool.not_eq_true, List.any_eq_false] at hbad
    cases h
    have hlen : ((s.drop off).take len).length = len := by
      rw [List.length_take, List.length_drop]
      omega
    have hall : ∀ c ∈ (s.drop off).take len, isDigit c = true := by simpa using hbad.2
    have hdigits := pad_foldl hall
    rw [hlen] at hdigits
    refine ⟨hdigits.symm, ?_⟩
    rw [← hdigits, foldl_pad]
    exact Nat.mod_lt _ (Nat.pow_pos (by decide))
  · rintro ⟨hpad, hlt⟩
    have hlen := congrArg List.length hpad
    rw [length_pad, List.length_take, List.length_drop] at hlen
    rw [hpad, if_neg, foldl_pad, Nat.mod_eq_of_lt hlt]
    rw [not_or, Bool.not_eq_true, List.any_eq_false]
    exact ⟨by omega, fun c hc => by simp [isDigit_of_mem_pad c hc]⟩

/-! ### Fields -/

variable {s : List Char} {f g : Fields}

/-- The fields and the separators after them. -/
theorem take_fields (s : List Char) : s.take 19 = (s.drop 0).take 4 ++ (s[4]?.toList ++
    ((s.drop 5).take 2 ++ (s[7]?.toList ++ ((s.drop 8).take 2 ++ (s[10]?.toList ++
    ((s.drop 11).take 2 ++ (s[13]?.toList ++ ((s.drop 14).take 2 ++ (s[16]?.toList ++
    (s.drop 17).take 2))))))))) := by
  rw [show 19 = 4 + (1 + (2 + (1 + (2 + (1 + (2 + (1 + (2 + (1 + 2))))))))) from rfl]
  simp only [List.take_add, List.drop_drop, List.take_one, List.head?_drop, List.drop_zero]

theorem takeFields_iff : takeFields s = some f ↔ s.take 19 = f.stamp ∧ f.InDigits := by
  have hunfold : takeFields s = some f ↔ takeInt s 0 4 = some f.year ∧ s[4]? = some '-' ∧
      takeInt s 5 2 = some f.mon ∧ s[7]? = some '-' ∧ takeInt s 8 2 = some f.day ∧ s[10]? = some 'T' ∧
      takeInt s 11 2 = some f.hh ∧ s[13]? = some ':' ∧ takeInt s 14 2 = some f.mm ∧
      s[16]? = some ':' ∧ takeInt s 17 2 = some f.ss := by
    obtain ⟨year, mon, day, hh, mm, ss⟩ := f
    simp only [takeFields, Option.bind_eq_bind, Option.bind_eq_some_iff, Option.guard_eq_some',
      Option.pure_def, Option.some.injEq, Fields.mk.injEq, exists_const]
    constructor
    · rintro ⟨_, hyear, h4, _, hmon, h7, _, hday, h10, _, hhh, h13, _, hmm, h16, _, hss, rfl, rfl, rfl, rfl,
        rfl, rfl⟩
      exact ⟨hyear, h4, hmon, h7, hday, h10, hhh, h13, hmm, h16, hss⟩
    · rintro ⟨hyear, h4, hmon, h7, hday, h10, hhh, h13, hmm, h16, hss⟩
      exact ⟨_, hyear, h4, _, hmon, h7, _, hday, h10, _, hhh, h13, _, hmm, h16, _, hss, rfl, rfl, rfl, rfl,
        rfl, rfl⟩
  rw [hunfold]
  simp only [takeInt_iff 4 (by decide), takeInt_iff 2 (by decide), pad_two, pad_four]
  constructor
  · rintro ⟨⟨hyear, hyear'⟩, h4, ⟨hmon, hmon'⟩, h7, ⟨hday, hday'⟩, h10, ⟨hhh, hhh'⟩, h13, ⟨hmm, hmm'⟩,
      h16, hss, hss'⟩
    refine ⟨?_, ⟨hyear', hmon', hday', hhh', hmm', hss'⟩⟩
    rw [take_fields, hyear, h4, hmon, h7, hday, h10, hhh, h13, hmm, h16, hss]
    rfl
  · rintro ⟨hstamp, hdigits⟩
    have hpart (off len : Nat) (h : off + len ≤ 19) :
        (s.drop off).take len = (f.stamp.drop off).take len := by
      rw [← hstamp, List.drop_take, List.take_take, Nat.min_eq_left (by omega)]
    have hsign (i : Nat) (h : i < 19) : s[i]? = f.stamp[i]? := by
      rw [← hstamp, List.getElem?_take_of_lt h]
    exact ⟨⟨hpart 0 4 (by decide), hdigits.year⟩, hsign 4 (by decide),
      ⟨hpart 5 2 (by decide), hdigits.mon⟩, hsign 7 (by decide),
      ⟨hpart 8 2 (by decide), hdigits.day⟩, hsign 10 (by decide),
      ⟨hpart 11 2 (by decide), hdigits.hh⟩, hsign 13 (by decide),
      ⟨hpart 14 2 (by decide), hdigits.mm⟩, hsign 16 (by decide),
      ⟨hpart 17 2 (by decide), hdigits.ss⟩⟩

theorem takeFields_stamp_iff (hf : f.InDigits) : takeFields s = some f ↔ s.take 19 = f.stamp := by
  rw [takeFields_iff, and_iff_left hf]

theorem length_of_stamp (h : s.take 19 = f.stamp) : 19 ≤ s.length := by
  have hlen : (s.take 19).length = 19 := congrArg List.length h
  rw [List.length_take] at hlen
  omega

theorem fraction_lt (s : List Char) : fraction s < 1000 := by
  unfold fraction
  split_ifs
  · dsimp only
    generalize hdigits : ((s.drop 20).takeWhile isDigit).take 3 = digits
    have hlen : digits.length ≤ 3 := by
      rw [← hdigits]
      exact List.length_take_le 3 _
    have hall : ∀ c ∈ digits, isDigit c = true := by
      intro c hc
      rw [← hdigits] at hc
      exact List.mem_takeWhile_imp (List.mem_of_mem_take hc)
    have hlt : digits.foldl pushDigit 0 < 10 ^ digits.length := by
      rw [← pad_foldl hall, foldl_pad, length_pad]
      exact Nat.mod_lt _ (Nat.pow_pos (by decide))
    calc digits.foldl pushDigit 0 * 10 ^ (3 - digits.length)
        < 10 ^ digits.length * 10 ^ (3 - digits.length) :=
          Nat.mul_lt_mul_of_pos_right hlt (Nat.pow_pos (by decide))
      _ = 1000 := by rw [← Nat.pow_add, Nat.add_sub_of_le hlen]
  · decide

theorem parseSysTime_iff {text : String} {t : Int} : parseSysTime text = .ok t ↔
    ∃ f, takeFields text.toList = some f ∧ f.date.ok = true ∧
      t = Int.bmod (f.millis (fraction text.toList) * ticksPerMs) (2 ^ 64) := by
  unfold parseSysTime parseIso8601
  dsimp only
  split_ifs with hshort
  · refine ⟨nofun, ?_⟩
    rintro ⟨f, hf, -, -⟩
    exact absurd (length_of_stamp (takeFields_iff.1 hf).1) (Nat.not_le.2 hshort)
  · cases takeFields text.toList with
    | none =>
      refine ⟨nofun, ?_⟩
      rintro ⟨f, hf, -, -⟩
      cases hf
    | some f =>
      show (if !f.date.ok then _ else _ : Result Time).map _ = _ ↔ _
      constructor
      · intro h
        cases hok : f.date.ok with
        | false =>
          rw [hok] at h
          cases h
        | true =>
          rw [hok] at h
          cases h
          exact ⟨f, rfl, hok, rfl⟩
      · rintro ⟨_, hf, hok, rfl⟩
        cases hf
        rw [hok]
        rfl

/-! ### The times that a text names -/

/-- The cast to 64 bits. -/
theorem bmod_spec (x : Int) : (∃ k, Int.bmod x (2 ^ 64) = x - k * 18446744073709551616) ∧
    -9223372036854775808 ≤ Int.bmod x (2 ^ 64) ∧ Int.bmod x (2 ^ 64) < 9223372036854775808 :=
  ⟨⟨_, Int.bmod_eq_self_sub_bdiv_mul x _⟩, Int.le_bmod (by decide), Int.bmod_lt (by decide)⟩

/-- The fields of the time come back exactly when they are those of a time of a day that the clock
reaches. -/
theorem takeFields_toIso8601_iff {frac : Nat} (hf : f.InDigits) (hok : f.date.ok = true) (hfrac : frac < 1000) :
    takeFields (toIso8601 (Int.bmod (f.millis frac * ticksPerMs) (2 ^ 64))).toList = some f ↔
      f.hh < 24 ∧ f.mm < 60 ∧ f.ss < 60 ∧ Time.Fits (f.millis frac * ticksPerMs) := by
  obtain ⟨⟨k, hk⟩, hlow, hhigh⟩ := bmod_spec (f.millis frac * ticksPerMs)
  generalize Int.bmod (f.millis frac * ticksPerMs) (2 ^ 64) = t at *
  unfold toIso8601
  dsimp only
  rw [String.toList_ofList, takeFields_formatted, Option.some.injEq]
  constructor
  · intro h
    have hyear : 0 ≤ (Date.ofDays (t / ticksPerMs / msPerDay)).year ∧
        (Date.ofDays (t / ticksPerMs / msPerDay)).year < 10000 := by
      refine Date.ofDays_year ?_ ?_ <;> unfold msPerDay ticksPerMs <;> omega
    have hdate : f.date = Date.ofDays (t / ticksPerMs / msPerDay) := by
      rw [← h]
      exact date_of_fields (Date.ofDays_ok _) hyear.1 hyear.2
    have hdays : f.date.toDays = t / ticksPerMs / msPerDay := by
      rw [hdate, Date.toDays_ofDays]
    have hhh := congrArg Fields.hh h
    have hmm := congrArg Fields.mm h
    have hss := congrArg Fields.ss h
    unfold Fields.millis at hk ⊢
    rw [hdays] at hk ⊢
    unfold Time.Fits msPerDay ticksPerMs at *
    dsimp only at hhh hmm hss
    omega
  · rintro ⟨hhh, hmm, hss, hfits⟩
    have hmillis : t / ticksPerMs = f.millis frac := by
      unfold Time.Fits ticksPerMs at *
      omega
    have hday : f.millis frac / msPerDay = f.date.toDays := by
      unfold Fields.millis msPerDay
      omega
    rw [hmillis, hday, Date.ofDays_toDays hok]
    obtain ⟨hyear', hmon', hday', -, -, -⟩ := hf
    obtain ⟨year, mon, day, hh, mm, ss⟩ := f
    unfold Fields.millis Fields.date msPerDay
    rw [Fields.mk.injEq]
    dsimp only at *
    omega

/-- If the text begins with the stamp of a real date, its time is one of a day that the clock
reaches. -/
def InRange (text : String) : Prop := ∀ f : Fields, f.InDigits → text.toList.take 19 = f.stamp →
  f.date.ok = true → f.hh < 24 ∧ f.mm < 60 ∧ f.ss < 60 ∧
    Time.Fits (f.millis (fraction text.toList) * ticksPerMs)

/-- A text that is accepted begins as the text of the time that it is read as, or its time is out of
range. -/
theorem accepts_real_iff (text : String) :
    (∀ t, parseSysTime text = .ok t → text.toList.take 19 = (toIso8601 t).toList.take 19) ↔
      InRange text := by
  have hcore {f : Fields} (hf : f.InDigits) (hstamp : text.toList.take 19 = f.stamp) (hok : f.date.ok = true) :
      text.toList.take 19 = (toIso8601 (Int.bmod (f.millis (fraction text.toList) * ticksPerMs)
        (2 ^ 64))).toList.take 19 ↔ f.hh < 24 ∧ f.mm < 60 ∧ f.ss < 60 ∧
          Time.Fits (f.millis (fraction text.toList) * ticksPerMs) := by
    rw [← takeFields_toIso8601_iff hf hok (fraction_lt _), takeFields_stamp_iff hf, hstamp, eq_comm]
  constructor
  · intro h f hf hstamp hok
    exact (hcore hf hstamp hok).1
      (h _ (parseSysTime_iff.2 ⟨f, (takeFields_stamp_iff hf).2 hstamp, hok, rfl⟩))
  · intro h t ht
    obtain ⟨f, hfields, hok, rfl⟩ := parseSysTime_iff.1 ht
    obtain ⟨hstamp, hf⟩ := takeFields_iff.1 hfields
    exact (hcore hf hstamp hok).2 (h f hf hstamp hok)

/-- One o'clock of the next day. -/
theorem hour_25_shifted : ¬∀ text t, parseSysTime text = .ok t →
    text.toList.take 19 = (toIso8601 t).toList.take 19 := by
  intro h
  have hread : parseSysTime "2024-01-01T25:00:00" = .ok 1704157200000000000 := by decide
  exact absurd (h _ _ hread) (by decide)

end Cmlb.TimeCodec
