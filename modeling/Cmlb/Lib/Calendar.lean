import Mathlib.Tactic.IntervalCases
import Mathlib.Order.Monotone.Basic

/-!
# The proleptic Gregorian calendar

Days are counted from 1970-01-01. `Date.ofDays` splits a count into cycles of 400, 100, 4 and 1 years
that begin on 1 March, so that a leap day is the last day of its year; `Date.toDays` goes back. Every
count is the count of a valid date (`ofDays_ok`, `toDays_ofDays`), and valid dates are in the order of
their counts (`toDays_lt_toDays_iff`).
-/

namespace Calendar

structure Date where
  year : Int
  month : Int
  day : Int
deriving DecidableEq, Repr

def isLeap (year : Int) : Bool := year % 4 == 0 && (year % 100 != 0 || year % 400 == 0)

def lastDay (year month : Int) : Int :=
  if month = 2 then if isLeap year then 29 else 28
  else if month = 4 ∨ month = 6 ∨ month = 9 ∨ month = 11 then 30
  else 31

namespace Date

/-- `year_month_day::ok`. -/
def ok (d : Date) : Bool :=
  1 ≤ d.month && d.month ≤ 12 && 1 ≤ d.day && d.day ≤ lastDay d.year d.month

/-- A day of a 400-year era, as a year of the era and a day of that year. -/
structure EraDay where
  year : Int
  day : Int

/-- The last century of an era and the last year of a cycle of four take the day that is left over. -/
def EraDay.of (doe : Int) : EraDay :=
  let century := min (doe / 36524) 3
  let doc := doe - century * 36524
  let cycle := doc / 1461
  let doy := doc - cycle * 1461
  let year := min (doy / 365) 3
  ⟨100 * century + 4 * cycle + year, doy - year * 365⟩

/-- The day before month `m` of a year that begins in March, for `m` from 0. -/
def monthStart (m : Int) : Int := (153 * m + 2) / 5

def ofDays (days : Int) : Date :=
  let z := days + 719468
  let d := EraDay.of (z % 146097)
  let m := (5 * d.day + 2) / 153
  { year := 400 * (z / 146097) + d.year + if m < 10 then 0 else 1
    month := if m < 10 then m + 3 else m - 9
    day := d.day - monthStart m + 1 }

def toDays (d : Date) : Int :=
  let y := if d.month ≤ 2 then d.year - 1 else d.year
  let m := if d.month ≤ 2 then d.month + 9 else d.month - 3
  let yoe := y % 400
  y / 400 * 146097 + (365 * yoe + yoe / 4 - yoe / 100) + monthStart m + d.day - 1 - 719468

/-- What a day of an era is: the years before it and the days of its own year. -/
structure EraDay.Spec (doe : Int) (d : EraDay) : Prop where
  year_nonneg : 0 ≤ d.year
  year_lt : d.year < 400
  day_nonneg : 0 ≤ d.day
  day_le : d.day ≤ 365
  leap : d.day = 365 → isLeap (d.year + 1) = true
  sum : doe = 365 * d.year + d.year / 4 - d.year / 100 + d.day

theorem isLeap_iff {year : Int} :
    isLeap year = true ↔ year % 4 = 0 ∧ (year % 100 ≠ 0 ∨ year % 400 = 0) := by
  simp [isLeap]

/-- Leap years repeat with the eras. -/
theorem isLeap_era (era year : Int) : isLeap (400 * era + year) = isLeap year := by
  rw [Bool.eq_iff_iff, isLeap_iff, isLeap_iff]
  omega

theorem EraDay.of_spec {doe : Int} (h0 : 0 ≤ doe) (h1 : doe < 146097) : (EraDay.of doe).Spec doe := by
  unfold EraDay.of
  simp only
  generalize hc : min (doe / 36524) 3 = c
  generalize hq : (doe - c * 36524) / 1461 = q
  generalize ha : min ((doe - c * 36524 - q * 1461) / 365) 3 = a
  have hc : 0 ≤ c ∧ c ≤ 3 ∧ 0 ≤ doe - c * 36524 ∧ (c ≠ 3 → doe - c * 36524 < 36524) := by omega
  have hq : 0 ≤ q ∧ q ≤ 24 := by omega
  have ha : 0 ≤ a ∧ a ≤ 3 := by omega
  constructor
  case leap =>
    intro hday
    simp only at hday ⊢
    -- day 365 is the last day of a cycle of four years, and a century that has it ends its era
    have hlast : a = 3 ∧ (q = 24 → c = 3) := by omega
    rw [isLeap_iff]
    omega
  all_goals
    simp only
    omega

variable {days : Int}

/-- The month and its day, from the day of a year that begins in March. -/
theorem month_spec {doy : Int} (h0 : 0 ≤ doy) (h1 : doy ≤ 365) :
    let m := (5 * doy + 2) / 153
    0 ≤ m ∧ m ≤ 11 ∧ monthStart m ≤ doy ∧ (m ≤ 10 → doy < monthStart (m + 1)) := by
  simp only [monthStart]
  omega

theorem toDays_ofDays (days : Int) : (ofDays days).toDays = days := by
  have hd := EraDay.of_spec (Int.emod_nonneg (days + 719468) (by decide : (146097 : Int) ≠ 0))
    (Int.emod_lt_of_pos _ (by decide))
  obtain ⟨hm0, hm11, -, -⟩ := month_spec hd.day_nonneg hd.day_le
  have hsum := hd.sum
  have hlt := hd.year_lt
  have hnn := hd.year_nonneg
  unfold ofDays toDays
  simp only
  generalize EraDay.of ((days + 719468) % 146097) = d at *
  generalize hm : (5 * d.day + 2) / 153 = m at *
  generalize hera : (days + 719468) / 146097 = era at *
  have hdiv : (400 * era + d.year) / 400 = era := by omega
  have hmod : (400 * era + d.year) % 400 = d.year := by omega
  by_cases h10 : m < 10
  · have hmon : ¬ m + 3 ≤ 2 := by omega
    have hback : m + 3 - 3 = m := by omega
    simp only [if_pos h10, if_neg hmon, hback, add_zero, hdiv, hmod]
    omega
  · have hmon : m - 9 ≤ 2 := by omega
    have hback : m - 9 + 9 = m := by omega
    simp only [if_neg h10, if_pos hmon, hback, add_sub_cancel_right, hdiv, hmod]
    omega

theorem ofDays_ok (days : Int) : (ofDays days).ok = true := by
  have hd := EraDay.of_spec (Int.emod_nonneg (days + 719468) (by decide : (146097 : Int) ≠ 0))
    (Int.emod_lt_of_pos _ (by decide))
  obtain ⟨hm0, hm11, hstart, hend⟩ := month_spec hd.day_nonneg hd.day_le
  have hle := hd.day_le
  have hleap := hd.leap
  unfold ofDays ok
  simp only [Bool.and_eq_true, decide_eq_true_eq]
  generalize EraDay.of ((days + 719468) % 146097) = d at *
  generalize hm : (5 * d.day + 2) / 153 = m at *
  refine ⟨⟨⟨?_, ?_⟩, ?_⟩, ?_⟩
  · split <;> omega
  · split <;> omega
  · omega
  · rcases Int.lt_or_eq_of_le hm11 with hm10 | rfl
    · -- the months before February end where the next one starts
      have hend := hend (by omega)
      clear hm hleap hm11 hle
      interval_cases m <;> simp [monthStart, lastDay] at hend ⊢ <;> omega
    · -- February has a day 29 when the day of the year is 365
      have hshift : 400 * ((days + 719468) / 146097) + d.year + 1 =
          400 * ((days + 719468) / 146097) + (d.year + 1) := by omega
      simp only [show ¬ (11 : Int) < 10 by decide, if_false, hshift, monthStart, lastDay, isLeap_era,
        show (11 : Int) - 9 = 2 by decide, if_true]
      by_cases h365 : d.day = 365
      · rw [if_pos (hleap h365)]
        omega
      · split <;> omega

theorem ok_bounds {d : Date} (h : d.ok = true) :
    1 ≤ d.month ∧ d.month ≤ 12 ∧ 1 ≤ d.day ∧ d.day ≤ 31 := by
  simp only [ok, Bool.and_eq_true, decide_eq_true_eq] at h
  have hlast : lastDay d.year d.month ≤ 31 := by
    unfold lastDay
    split_ifs <;> decide
  omega

/-- A day of the eras 0 to 23 has a year of at most four digits. -/
theorem ofDays_year (h0 : -719468 ≤ days) (h1 : days < 2786860) :
    0 ≤ (ofDays days).year ∧ (ofDays days).year < 10000 := by
  have hd := EraDay.of_spec (Int.emod_nonneg (days + 719468) (by decide : (146097 : Int) ≠ 0))
    (Int.emod_lt_of_pos _ (by decide))
  have hlt := hd.year_lt
  have hnn := hd.year_nonneg
  unfold ofDays
  simp only
  split <;> omega

/-! ### The order of dates -/

/-- The months counted from January of year 0. -/
def monthIndex (d : Date) : Int := 12 * d.year + (d.month - 1)

/-- The day before the month `i`. -/
def monthOffset (i : Int) : Int := toDays ⟨i / 12, i % 12 + 1, 0⟩

theorem monthOffset_succ (i : Int) :
    monthOffset (i + 1) = monthOffset i + lastDay (i / 12) (i % 12 + 1) := by
  have h0 : 0 ≤ i % 12 := Int.emod_nonneg i (by decide)
  have h12 : i % 12 < 12 := Int.emod_lt_of_pos i (by decide)
  have hsucc : (i + 1) % 12 = (if i % 12 = 11 then 0 else i % 12 + 1) ∧
      (i + 1) / 12 = if i % 12 = 11 then i / 12 + 1 else i / 12 := by
    split <;> omega
  unfold monthOffset
  rw [hsucc.1, hsucc.2]
  generalize i / 12 = year
  generalize i % 12 = m at h0 h12
  interval_cases m <;> simp [toDays, monthStart, lastDay, isLeap]
  all_goals omega

theorem lastDay_pos (year month : Int) : 28 ≤ lastDay year month := by
  unfold lastDay
  split_ifs <;> decide

theorem monthOffset_mono {i j : Int} (h : i ≤ j) : monthOffset i ≤ monthOffset j := by
  refine monotone_int_of_le_succ (fun i => ?_) h
  have hpos := lastDay_pos (i / 12) (i % 12 + 1)
  rw [monthOffset_succ]
  omega

theorem monthIndex_inv {d : Date} (h : d.ok = true) :
    d.monthIndex / 12 = d.year ∧ d.monthIndex % 12 + 1 = d.month := by
  obtain ⟨hm1, hm12, -, -⟩ := ok_bounds h
  unfold monthIndex
  omega

theorem toDays_eq {d : Date} (h : d.ok = true) : d.toDays = monthOffset d.monthIndex + d.day := by
  obtain ⟨hyear, hmonth⟩ := monthIndex_inv h
  unfold monthOffset
  rw [hyear, hmonth]
  simp only [toDays]
  omega

/-- A day is before the months that follow its own. -/
theorem toDays_le {d : Date} (h : d.ok = true) : d.toDays ≤ monthOffset (d.monthIndex + 1) := by
  obtain ⟨hyear, hmonth⟩ := monthIndex_inv h
  have hday : d.day ≤ lastDay d.year d.month := by
    simp only [ok, Bool.and_eq_true, decide_eq_true_eq] at h
    exact h.2
  rw [toDays_eq h, monthOffset_succ, hyear, hmonth]
  omega

theorem toDays_lt_of_monthIndex_lt {d d' : Date} (h : d.ok = true) (h' : d'.ok = true)
    (hlt : d.monthIndex < d'.monthIndex) : d.toDays < d'.toDays := by
  have hday := (ok_bounds h').2.2.1
  calc d.toDays ≤ monthOffset (d.monthIndex + 1) := toDays_le h
    _ ≤ monthOffset d'.monthIndex := monthOffset_mono hlt
    _ < monthOffset d'.monthIndex + d'.day := by omega
    _ = d'.toDays := (toDays_eq h').symm

theorem toDays_lt_toDays_iff {d d' : Date} (h : d.ok = true) (h' : d'.ok = true) :
    d.toDays < d'.toDays ↔
      d.monthIndex < d'.monthIndex ∨ d.monthIndex = d'.monthIndex ∧ d.day < d'.day := by
  rcases lt_trichotomy d.monthIndex d'.monthIndex with hlt | heq | hgt
  · simp [hlt, toDays_lt_of_monthIndex_lt h h' hlt]
  · rw [toDays_eq h, toDays_eq h', heq]
    omega
  · have hlt := toDays_lt_of_monthIndex_lt h' h hgt
    omega

/-- A valid date is the date of its day. -/
theorem ofDays_toDays {d : Date} (h : d.ok = true) : ofDays d.toDays = d := by
  have hok := ofDays_ok d.toDays
  have hlt := toDays_lt_toDays_iff hok h
  have hgt := toDays_lt_toDays_iff h hok
  rw [toDays_ofDays] at hlt hgt
  have hindex : (ofDays d.toDays).monthIndex = d.monthIndex := by omega
  have hday : (ofDays d.toDays).day = d.day := by omega
  obtain ⟨hyear, hmonth⟩ := monthIndex_inv hok
  obtain ⟨hyear', hmonth'⟩ := monthIndex_inv h
  rw [hindex] at hyear hmonth
  generalize ofDays d.toDays = e at *
  obtain ⟨year, month, day⟩ := e
  rw [Date.mk.injEq]
  exact ⟨hyear.symm.trans hyear', hmonth.symm.trans hmonth', hday⟩

end Date

end Calendar
