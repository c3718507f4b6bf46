import Cmlb.Domain.Task
import Cmlb.Lib.Calendar

/-!
# Time stamps as text (`persistence/time_codec.hpp`)

A `system_clock::time_point` is a 64-bit count of nanoseconds (`Time.Fits`), which reaches from 1677
to 2262. `to_iso8601` writes it floored to milliseconds, `parse_iso8601` reads it back
(`parseIso8601_toIso8601`).
-/

namespace Cmlb

open Calendar

/-- The ticks that a `time_point` can hold, from its first whole millisecond on. -/
def Time.Fits (t : Int) : Prop := -9223372036854000000 ≤ t ∧ t < 9223372036854775808

instance (t : Time) : Decidable (Time.Fits t) := inferInstanceAs (Decidable (_ ∧ _))

def ticksPerMs : Int := 1000000

def msPerDay : Int := 86400000

/-- `floor<milliseconds>`, in ticks. -/
def Time.floorMs (t : Int) : Time := t / ticksPerMs * ticksPerMs

namespace TimeCodec

def digit (n : Nat) : Char := Char.ofNat (48 + n % 10)

def pad2 (n : Nat) : List Char := [digit (n / 10), digit n]

def pad3 (n : Nat) : List Char := [digit (n / 100), digit (n / 10), digit n]

/-- `%Y`, for the years that the clock reaches. -/
def pad4 (n : Nat) : List Char := [digit (n / 1000), digit (n / 100), digit (n / 10), digit n]

/-- `fmt::format("{:%Y-%m-%dT%H:%M:%S}Z", …)`, where `%S` has the milliseconds too. -/
def formatted (date : Date) (rest : Nat) : List Char :=
  pad4 date.year.toNat ++ '-' :: pad2 date.month.toNat ++ '-' :: pad2 date.day.toNat ++
    'T' :: pad2 (rest / 3600000) ++ ':' :: pad2 (rest / 60000 % 60) ++
    ':' :: pad2 (rest / 1000 % 60) ++ '.' :: pad3 (rest % 1000) ++ ['Z']

def toIso8601 (tp : Int) : String :=
  let ms := tp / ticksPerMs
  String.ofList (formatted (Date.ofDays (ms / msPerDay)) (ms % msPerDay).toNat)

def isDigit (c : Char) : Bool := '0' ≤ c && c ≤ '9'

def pushDigit (v : Nat) (c : Char) : Nat := v * 10 + (c.toNat - '0'.toNat)

/-- The lambda `take_int`. -/
def takeInt (s : List Char) (off len : Nat) : Option Nat :=
  let digits := (s.drop off).take len
  if s.length < off + len ∨ digits.any (fun c => !isDigit c) then none
  else some (digits.foldl pushDigit 0)

/-- The fields before the fraction, with the separators at 4, 7, 10, 13 and 16. -/
structure Fields where
  year : Nat
  mon : Nat
  day : Nat
  hh : Nat
  mm : Nat
  ss : Nat
deriving DecidableEq

def takeFields (s : List Char) : Option Fields := do
  let year ← takeInt s 0 4
  guard (s[4]? = some '-')
  let mon ← takeInt s 5 2
  guard (s[7]? = some '-')
  let day ← takeInt s 8 2
  guard (s[10]? = some 'T')
  let hh ← takeInt s 11 2
  guard (s[13]? = some ':')
  let mm ← takeInt s 14 2
  guard (s[16]? = some ':')
  let ss ← takeInt s 17 2
  return ⟨year, mon, day, hh, mm, ss⟩

/-- The milliseconds after a `.` at 19: three digits, missing ones count as zeros. -/
def fraction (s : List Char) : Nat :=
  if s[19]? = some '.' then
    let digits := ((s.drop 20).takeWhile isDigit).take 3
    digits.foldl pushDigit 0 * 10 ^ (3 - digits.length)
  else 0

def parseIso8601 (text : String) : Result Time :=
  let s := text.toList
  if s.length < 19 then .error ⟨.deserialization, "ISO8601 timestamp too short: " ++ text⟩
  else match takeFields s with
    | none => .error ⟨.deserialization, "Malformed ISO8601 timestamp: " ++ text⟩
    | some f =>
      let ymd : Date := ⟨f.year, f.mon, f.day⟩
      if !ymd.ok then .error ⟨.deserialization, "Out-of-range Y/M/D in timestamp: " ++ text⟩
      else .ok ((ymd.toDays * msPerDay + f.hh * 3600000 + f.mm * 60000 + f.ss * 1000 + fraction s)
        * ticksPerMs)

/-! ### The round trip -/

theorem digit_toNat (n : Nat) : (digit n).toNat = 48 + n % 10 := by
  have h : n % 10 < 10 := Nat.mod_lt n (by decide)
  unfold digit
  generalize n % 10 = k at h
  interval_cases k <;> rfl

theorem isDigit_digit (n : Nat) : isDigit (digit n) = true := by
  have h : n % 10 < 10 := Nat.mod_lt n (by decide)
  unfold digit
  generalize n % 10 = k at h
  interval_cases k <;> rfl

theorem pushDigit_digit (v n : Nat) : pushDigit v (digit n) = v * 10 + n % 10 := by
  have h0 : ('0' : Char).toNat = 48 := rfl
  rw [pushDigit, digit_toNat, h0]
  omega

theorem formatted_length (date : Date) (rest : Nat) : (formatted date rest).length = 24 := rfl

/-- The fields of a text are read back as they were written. -/
theorem takeFields_formatted (date : Date) (rest : Nat) : takeFields (formatted date rest) =
    some ⟨date.year.toNat % 10000, date.month.toNat % 100, date.day.toNat % 100,
      rest / 3600000 % 100, rest / 60000 % 60, rest / 1000 % 60⟩ := by
  have hfields : takeFields (formatted date rest) = some
      ⟨((date.year.toNat / 1000 % 10 * 10 + date.year.toNat / 100 % 10) * 10 +
          date.year.toNat / 10 % 10) * 10 + date.year.toNat % 10,
        date.month.toNat / 10 % 10 * 10 + date.month.toNat % 10,
        date.day.toNat / 10 % 10 * 10 + date.day.toNat % 10,
        rest / 3600000 / 10 % 10 * 10 + rest / 3600000 % 10,
        rest / 60000 % 60 / 10 % 10 * 10 + rest / 60000 % 10,
        rest / 1000 % 60 / 10 % 10 * 10 + rest / 1000 % 10⟩ := by
    simp [takeFields, formatted, pad4, pad3, pad2, takeInt, isDigit_digit, pushDigit_digit]
  rw [hfields, Option.some.injEq, Fields.mk.injEq]
  omega

theorem fraction_formatted (date : Date) (rest : Nat) : fraction (formatted date rest) = rest % 1000 := by
  simp [fraction, formatted, pad4, pad2, pad3, isDigit_digit, pushDigit_digit]
  omega

/-- The fields of a date with a year of four digits, as they come back. -/
theorem date_of_fields {d : Date} (hok : d.ok = true) (h0 : 0 ≤ d.year) (h1 : d.year < 10000) :
    (⟨((d.year.toNat % 10000 : Nat) : Int), ((d.month.toNat % 100 : Nat) : Int),
      ((d.day.toNat % 100 : Nat) : Int)⟩ : Date) = d := by
  obtain ⟨hm1, hm12, hd1, hd31⟩ := Date.ok_bounds hok
  obtain ⟨year, month, day⟩ := d
  simp only [Date.mk.injEq] at *
  omega

theorem parseIso8601_toIso8601 {t : Int} (h : Time.Fits t) : parseIso8601 (toIso8601 t) = .ok (Time.floorMs t) := by
  obtain ⟨h0, h1⟩ := h
  unfold toIso8601 parseIso8601 Time.floorMs
  simp only [String.toList_ofList, formatted_length, takeFields_formatted, fraction_formatted]
  have hms : -9223372036855 ≤ t / ticksPerMs ∧ t / ticksPerMs < 9223372036855 := by
    unfold ticksPerMs
    omega
  generalize t / ticksPerMs = ms at hms
  have hok := Date.ofDays_ok (ms / msPerDay)
  have hyear : 0 ≤ (Date.ofDays (ms / msPerDay)).year ∧ (Date.ofDays (ms / msPerDay)).year < 10000 := by
    refine Date.ofDays_year ?_ ?_ <;> unfold msPerDay <;> omega
  rw [date_of_fields hok hyear.1 hyear.2, hok, Date.toDays_ofDays]
  -- the time of day, put together again
  have hday : ms / msPerDay * msPerDay + ((ms % msPerDay).toNat / 3600000 % 100 : Nat) * 3600000 +
      ((ms % msPerDay).toNat / 60000 % 60 : Nat) * 60000 +
      ((ms % msPerDay).toNat / 1000 % 60 : Nat) * 1000 + ((ms % msPerDay).toNat % 1000 : Nat) = ms := by
    unfold msPerDay
    omega
  rw [hday]
  rfl

/-- The text has no more than the milliseconds. -/
theorem toIso8601_floorMs (t : Int) : toIso8601 (Time.floorMs t) = toIso8601 t := by
  have hms : t / ticksPerMs * ticksPerMs / ticksPerMs = t / ticksPerMs :=
    Int.mul_ediv_cancel _ (by decide)
  unfold toIso8601 Time.floorMs
  rw [hms]

end TimeCodec

end Cmlb
