import Mathlib.Data.Char
import Cmlb.Lib.FixedWidth
import Cmlb.Persistence.TaskRepository

/-!
# Time stamps in the order of their texts

The queries of the task repository sort rows with `ORDER BY created_at`, that is, as texts: by their
bytes, which for these texts is the order of their characters. The texts have one width, and their
fields go from the year down to the milliseconds, so they compare as the times do, floored to
milliseconds (`timestamps_ordered`).
-/

namespace Cmlb

open Calendar

def ticksPerDay : Int := 86400000000000

/-- The civil year of a time point. -/
def Time.year (t : Int) : Int := (Date.ofDays (t / ticksPerDay)).year

/-- The years from `first` to `last`. -/
def Time.InYears (first last t : Int) : Prop := first ≤ Time.year t ∧ Time.year t ≤ last

instance (first last t : Int) : Decidable (Time.InYears first last t) :=
  inferInstanceAs (Decidable (_ ∧ _))

variable {t t₁ t₂ : Int}

/-- A day before the first of a year is of an earlier year. -/
theorem ofDays_year_lt {days year : Int} (h : days < Date.toDays ⟨year, 1, 1⟩) :
    (Date.ofDays days).year < year := by
  have hok := Date.ofDays_ok days
  obtain ⟨hm, -, hd, -⟩ := Date.ok_bounds hok
  have hfirst : Date.ok ⟨year, 1, 1⟩ = true := rfl
  rw [← Date.toDays_ofDays days, Date.toDays_lt_toDays_iff hok hfirst] at h
  simp only [Date.monthIndex] at h
  omega

theorem le_ofDays_year {days year : Int} (h : Date.toDays ⟨year, 1, 1⟩ ≤ days) :
    year ≤ (Date.ofDays days).year := by
  have hok := Date.ofDays_ok days
  obtain ⟨hm, hm12, hd, -⟩ := Date.ok_bounds hok
  have hfirst : Date.ok ⟨year, 1, 1⟩ = true := rfl
  rw [← Date.toDays_ofDays days, ← not_lt, Date.toDays_lt_toDays_iff hok hfirst] at h
  simp only [Date.monthIndex] at h
  omega

/-- The clock reaches the years 1678 to 2261. -/
theorem Time.InYears.fits (h : Time.InYears 1678 2261 t) : Time.Fits t := by
  obtain ⟨hfirst, hlast⟩ := h
  unfold Time.year at hfirst hlast
  constructor
  · by_contra hlt
    have hday : t / ticksPerDay < Date.toDays ⟨1678, 1, 1⟩ := by
      have hfirst : Date.toDays ⟨1678, 1, 1⟩ = -106650 := by decide
      rw [hfirst]
      unfold ticksPerDay
      omega
    have hyear := ofDays_year_lt hday
    omega
  · by_contra hge
    have hday : Date.toDays ⟨2262, 1, 1⟩ ≤ t / ticksPerDay := by
      have hfirst : Date.toDays ⟨2262, 1, 1⟩ = 106651 := by decide
      rw [hfirst]
      unfold ticksPerDay
      omega
    have hyear := le_ofDays_year hday
    omega

namespace TimeCodec

/-! ### Fields -/

theorem digit_lt_iff (n m : Nat) : digit n < digit m ↔ n % 10 < m % 10 := by
  have hlt : digit n < digit m ↔ (digit n).toNat < (digit m).toNat := Iff.rfl
  rw [hlt, digit_toNat, digit_toNat]
  omega

theorem digit_inj (n m : Nat) : digit n = digit m ↔ n % 10 = m % 10 := by
  rw [← Char.toNat_inj, digit_toNat, digit_toNat]
  omega

theorem ranks_digit (n m : Nat) : Ranks [digit n] [digit m] (n % 10 : Nat) (m % 10 : Nat) := by
  refine ⟨rfl, ?_, ?_⟩
  · simp only [List.cons_lt_cons_iff, List.not_lt_nil, and_false, or_false, digit_lt_iff]
    omega
  · simp only [List.cons.injEq, and_true, digit_inj]
    omega

theorem ranks_digits {a b : List Char} {x y : Int} (h : Ranks a b x y) (n m : Nat) :
    Ranks (a ++ [digit n]) (b ++ [digit m]) (x * 10 + (n % 10 : Nat)) (y * 10 + (m % 10 : Nat)) := by
  refine h.append (ranks_digit n m) ?_ ?_ <;> omega

theorem ranks_pad2 (n m : Nat) : Ranks (pad2 n) (pad2 m) (n % 100 : Nat) (m % 100 : Nat) := by
  refine (ranks_digits (ranks_digit (n / 10) (m / 10)) n m).congr ?_ ?_ <;> omega

theorem ranks_pad3 (n m : Nat) : Ranks (pad3 n) (pad3 m) (n % 1000 : Nat) (m % 1000 : Nat) := by
  have h := ranks_digits (ranks_digits (ranks_digit (n / 100) (m / 100)) (n / 10) (m / 10)) n m
  refine h.congr ?_ ?_ <;> omega

theorem ranks_pad4 (n m : Nat) : Ranks (pad4 n) (pad4 m) (n % 10000 : Nat) (m % 10000 : Nat) := by
  have h := ranks_digits (ranks_digits (ranks_digits (ranks_digit (n / 1000) (m / 1000)) (n / 100)
    (m / 100)) (n / 10) (m / 10)) n m
  refine h.congr ?_ ?_ <;> omega

/-! ### Whole texts -/

/-- Dates with years of four digits are in the order of their days. -/
theorem ranks_date {d d' : Date} (hok : d.ok = true) (hok' : d'.ok = true)
    (hyear : 0 ≤ d.year ∧ d.year < 10000) (hyear' : 0 ≤ d'.year ∧ d'.year < 10000) :
    Ranks (pad4 d.year.toNat ++ '-' :: pad2 d.month.toNat ++ '-' :: pad2 d.day.toNat)
      (pad4 d'.year.toNat ++ '-' :: pad2 d'.month.toNat ++ '-' :: pad2 d'.day.toNat) d.toDays d'.toDays := by
  obtain ⟨hm, hm12, hd, hd31⟩ := Date.ok_bounds hok
  obtain ⟨hm', hm12', hd', hd31'⟩ := Date.ok_bounds hok'
  have hmonth : Ranks (pad4 d.year.toNat ++ '-' :: pad2 d.month.toNat)
      (pad4 d'.year.toNat ++ '-' :: pad2 d'.month.toNat) d.monthIndex d'.monthIndex := by
    have hyears : Ranks (pad4 d.year.toNat) (pad4 d'.year.toNat) d.year d'.year :=
      (ranks_pad4 _ _).congr (by omega) (by omega)
    have hmonths := ((ranks_pad2 d.month.toNat d'.month.toNat).cons '-').shift 1
    refine (hyears.append (w := 12) hmonths (by omega) (by omega)).congr ?_ ?_
    all_goals
      unfold Date.monthIndex
      omega
  have hdays : Ranks ('-' :: pad2 d.day.toNat) ('-' :: pad2 d'.day.toNat) d.day d'.day :=
    ((ranks_pad2 _ _).cons '-').congr (by omega) (by omega)
  have hlt := Date.toDays_lt_toDays_iff hok hok'
  have hgt := Date.toDays_lt_toDays_iff hok' hok
  obtain ⟨hlex, heq⟩ := hmonth.append_lex hdays
  refine ⟨?_, hlex.trans hlt.symm, heq.trans ?_⟩
  · simp only [List.length_append, hmonth.width, hdays.width]
  · omega

theorem ranks_formatted {d d' : Date} {rest rest' : Nat} (hok : d.ok = true) (hok' : d'.ok = true)
    (hyear : 0 ≤ d.year ∧ d.year < 10000) (hyear' : 0 ≤ d'.year ∧ d'.year < 10000)
    (hrest : rest < 86400000) (hrest' : rest' < 86400000) :
    Ranks (formatted d rest) (formatted d' rest') (d.toDays * msPerDay + rest)
      (d'.toDays * msPerDay + rest') := by
  have hhours := (ranks_pad2 (rest / 3600000) (rest' / 3600000)).cons 'T'
  have hminutes := (ranks_pad2 (rest / 60000 % 60) (rest' / 60000 % 60)).cons ':'
  have hseconds := (ranks_pad2 (rest / 1000 % 60) (rest' / 1000 % 60)).cons ':'
  have hmillis := (ranks_pad3 (rest % 1000) (rest' % 1000)).cons '.'
  have hdate := ranks_date hok hok' hyear hyear'
  have htext := (((hdate.append (w := 24) hhours (by omega) (by omega)).append (w := 60) hminutes
    (by omega) (by omega)).append (w := 60) hseconds (by omega) (by omega)).append (w := 1000) hmillis
    (by omega) (by omega)
  refine (htext.append_right ['Z']).congr ?_ ?_
  all_goals
    unfold msPerDay
    omega

theorem year_of_fits (h : Time.Fits t) :
    0 ≤ (Date.ofDays (t / ticksPerMs / msPerDay)).year ∧
      (Date.ofDays (t / ticksPerMs / msPerDay)).year < 10000 := by
  obtain ⟨h0, h1⟩ := h
  unfold ticksPerMs msPerDay
  exact Date.ofDays_year (by omega) (by omega)

theorem ranks_toIso8601 (h₁ : Time.Fits t₁) (h₂ : Time.Fits t₂) :
    Ranks (toIso8601 t₁).toList (toIso8601 t₂).toList (t₁ / ticksPerMs) (t₂ / ticksPerMs) := by
  unfold toIso8601
  simp only [String.toList_ofList]
  refine (ranks_formatted (Date.ofDays_ok _) (Date.ofDays_ok _) (year_of_fits h₁) (year_of_fits h₂)
    ?_ ?_).congr ?_ ?_
  · unfold msPerDay
    omega
  · unfold msPerDay
    omega
  all_goals
    rw [Date.toDays_ofDays]
    unfold msPerDay
    omega

theorem toIso8601_lt_iff (h₁ : Time.Fits t₁) (h₂ : Time.Fits t₂) :
    toIso8601 t₁ < toIso8601 t₂ ↔ Time.floorMs t₁ < Time.floorMs t₂ := by
  rw [String.lt_iff, (ranks_toIso8601 h₁ h₂).lt_iff]
  unfold Time.floorMs
  exact (Int.mul_lt_mul_right (by decide)).symm

/-- A time of the years 1678 to 2261 is read back floored to milliseconds, and the texts of two such
times are in the order of the times that are read back. -/
theorem timestamps_ordered :
    (∀ t, Time.InYears 1678 2261 t → parseIso8601 (toIso8601 t) = .ok (Time.floorMs t)) ∧
    ∀ t₁ t₂, Time.InYears 1678 2261 t₁ → Time.InYears 1678 2261 t₂ →
      (toIso8601 t₁ < toIso8601 t₂ ↔ Time.floorMs t₁ < Time.floorMs t₂) :=
  ⟨fun _ h => parseIso8601_toIso8601 h.fits, fun _ _ h₁ h₂ => toIso8601_lt_iff h₁.fits h₂.fits⟩

/-- One nanosecond before the epoch, and the epoch. -/
theorem timestamps_ordered_epoch :
    parseIso8601 (toIso8601 (-1)) = .ok (-1000000) ∧ toIso8601 (-1) < toIso8601 0 := by
  obtain ⟨hback, hlt⟩ := timestamps_ordered
  exact ⟨hback (-1) (by decide), (hlt (-1) 0 (by decide) (by decide)).2 (by decide)⟩

end TimeCodec

/-! ### `ORDER BY created_at` -/

namespace Persistence

open TimeCodec

/-- The rows that `incomplete` reads were created one after the other. -/
theorem orderBy_createdAt {rows : List TaskRow} {created : TaskRow → Int}
    (h : ∀ row ∈ rows, row.createdAt = .text (toIso8601 (created row)) ∧ Time.Fits (created row)) :
    (rows.mergeSort fun r₁ r₂ => decide (r₁.createdAt.toText ≤ r₂.createdAt.toText)).Pairwise
      fun r₁ r₂ => Time.floorMs (created r₁) ≤ Time.floorMs (created r₂) := by
  have hsorted : (rows.mergeSort fun r₁ r₂ =>
      decide (r₁.createdAt.toText ≤ r₂.createdAt.toText)).Pairwise
        fun r₁ r₂ => decide (r₁.createdAt.toText ≤ r₂.createdAt.toText) = true := by
    refine List.pairwise_mergeSort (fun _ _ _ h h' => ?_) (fun _ _ => ?_) rows
    · exact decide_eq_true (String.le_trans (of_decide_eq_true h) (of_decide_eq_true h'))
    · simpa using String.le_total _ _
  refine hsorted.imp_of_mem fun hr₁ hr₂ hle => ?_
  obtain ⟨htext₁, hfits₁⟩ := h _ (List.mem_mergeSort.1 hr₁)
  obtain ⟨htext₂, hfits₂⟩ := h _ (List.mem_mergeSort.1 hr₂)
  rw [htext₁, htext₂] at hle
  exact not_lt.1 (mt (toIso8601_lt_iff hfits₂ hfits₁).2 (String.not_lt.2 (of_decide_eq_true hle)))

end Persistence

end Cmlb
