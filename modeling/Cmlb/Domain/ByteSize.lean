import Cmlb.Core.Error
import Cmlb.Lib.CheckedInt

/-!
# `ByteSize` (`domain/byte_size.hpp`)

The two operators compute in `std::int64_t`, and `none` is an operation that is undefined there. A
factor of 2^63 or more is negative after the cast; the quotient by it is not positive then, and the
result is the largest value as it should be (`saturates`).
-/

namespace Cmlb

structure ByteSize where
  bytes : Int64
  nonneg : 0 ≤ bytes.toInt
deriving DecidableEq

namespace ByteSize

open CheckedInt

def kMax : Int64 := Int64.maxValue

def make (bytes : Int64) : Result ByteSize :=
  if h : bytes.toInt < 0 then .error ⟨.invalidArgument, "ByteSize must be non-negative"⟩
  else .ok ⟨bytes, by omega⟩

/-- `operator+`: the `bytes_` of the result. -/
def plus (a other : ByteSize) : Option Int64 := do
  let room ← sub kMax a.bytes
  if other.bytes > room then return kMax
  add a.bytes other.bytes

/-- `operator*` -/
def times {ty : IntegralType} (a : ByteSize) (factor : ty.Value) : Option Int64 :=
  if factor.toInt ≤ 0 ∨ a.bytes = 0 then return 0
  else do
    let f64 := cast factor
    let quotient ← div kMax f64
    if a.bytes > quotient then return kMax
    mul a.bytes f64

variable {a b : ByteSize} {ty : IntegralType} {factor : ty.Value} {n : Int}

/-- The result is the size `n`. -/
def Yields (r : Option Int64) (n : Int) : Prop := ∃ c : ByteSize, r = some c.bytes ∧ c.bytes.toInt = n

theorem yields_exact (h : 0 ≤ n ∧ n ≤ 9223372036854775807) : Yields (exact n) n := by
  obtain ⟨c, hc, hn⟩ := exact_of_bounds (n := n) (by omega)
  exact ⟨⟨c, by omega⟩, hc, hn⟩

theorem yields_kMax : Yields (some kMax) 9223372036854775807 := ⟨⟨kMax, by decide⟩, rfl, rfl⟩

theorem plus_yields (a b : ByteSize) :
    Yields (plus a b) (min (a.bytes.toInt + b.bytes.toInt) 9223372036854775807) := by
  have ha := a.nonneg
  have hb := b.nonneg
  have hle := (bounds a.bytes).2
  have hmax : kMax.toInt = 9223372036854775807 := toInt_maxValue
  obtain ⟨room, hroom, hvalue⟩ := exact_of_bounds (n := kMax.toInt - a.bytes.toInt) (by omega)
  show Yields ((sub kMax a.bytes).bind _) _
  rw [sub, hroom, Option.bind_some]
  split_ifs with hgt
  · rw [gt_iff_lt, Int64.lt_iff_toInt_lt] at hgt
    rw [min_eq_right (by omega)]
    exact yields_kMax
  · rw [gt_iff_lt, Int64.lt_iff_toInt_lt] at hgt
    rw [min_eq_left (by omega)]
    exact yields_exact (by omega)

theorem toInt_pos (h : a.bytes ≠ 0) : 0 < a.bytes.toInt := by
  rcases Int.lt_or_eq_of_le a.nonneg with hpos | hzero
  · exact hpos
  · exact absurd (Int64.toInt_inj.1 (hzero.symm.trans Int64.toInt_zero.symm)) h

/-- What the size is compared with; by a divisor that the cast made negative it is not positive. -/
theorem quotient_spec (hpos : 0 < factor.toInt) :
    ∃ quotient, div kMax (cast factor) = some quotient ∧ ∀ a : ByteSize, a.bytes ≠ 0 →
      (quotient < a.bytes ↔ 9223372036854775807 < a.bytes.toInt * factor.toInt) := by
  have hlt := factor.lt
  have hcast := toInt_cast factor hpos
  have hne : cast factor ≠ 0 := by
    rintro h
    rw [h, Int64.toInt_zero] at hcast
    split_ifs at hcast <;> omega
  have hmax : (0 : Int) ≤ 9223372036854775807 := by decide
  have hdiv : div kMax (cast factor) = exact (Int.tdiv 9223372036854775807 (cast factor).toInt) :=
    if_neg hne
  rw [hdiv]
  split_ifs at hcast with hfits
  · obtain ⟨hnonneg, hle, -⟩ := tdiv_of_pos (k := 0) hmax hpos
    rw [hcast]
    obtain ⟨q, hq, hvalue⟩ := exact_of_bounds (n := Int.tdiv 9223372036854775807 factor.toInt) (by omega)
    refine ⟨q, hq, fun a _ => ?_⟩
    rw [Int64.lt_iff_toInt_lt, hvalue]
    exact (tdiv_of_pos hmax hpos).2.2
  · obtain ⟨hlow, hhigh⟩ := tdiv_of_neg (d := (cast factor).toInt) hmax (by omega)
    obtain ⟨q, hq, hvalue⟩ := exact_of_bounds
      (n := Int.tdiv 9223372036854775807 (cast factor).toInt) (by omega)
    refine ⟨q, hq, fun a ha => ?_⟩
    have hone := toInt_pos ha
    rw [Int64.lt_iff_toInt_lt, hvalue]
    refine iff_of_true (by omega) ?_
    calc (9223372036854775807 : Int) < factor.toInt := by omega
      _ ≤ a.bytes.toInt * factor.toInt := le_mul_of_one_le_left hpos.le hone

theorem times_yields (a : ByteSize) (factor : ty.Value) :
    Yields (times a factor) (min (a.bytes.toInt * max factor.toInt 0) 9223372036854775807) := by
  rw [times]
  split_ifs with hzero
  · have hprod : a.bytes.toInt * max factor.toInt 0 = 0 := by
      rcases hzero with h | h
      · rw [max_eq_right h, Int.mul_zero]
      · rw [h, Int64.toInt_zero, Int.zero_mul]
    rw [hprod]
    exact ⟨⟨0, Int.le_refl 0⟩, rfl, rfl⟩
  · obtain ⟨hpos, hne⟩ : 0 < factor.toInt ∧ a.bytes ≠ 0 := by simpa using hzero
    have hone := toInt_pos hne
    obtain ⟨quotient, hq, hspec⟩ := quotient_spec hpos
    show Yields ((div kMax (cast factor)).bind _) _
    rw [hq, Option.bind_some, max_eq_left hpos.le]
    split_ifs with hgt
    · rw [min_eq_right ((hspec a hne).1 hgt).le]
      exact yields_kMax
    · rw [gt_iff_lt, hspec a hne, not_lt] at hgt
      have hfits : factor.toInt ≤ 9223372036854775807 :=
        (le_mul_of_one_le_left hpos.le hone).trans hgt
      rw [min_eq_left hgt, mul, toInt_cast factor hpos, if_pos hfits]
      exact yields_exact ⟨Int.mul_nonneg hone.le hpos.le, hgt⟩

/-- Sums and products are exact up to the largest value, for factors of any integral type. Nothing
overflows on the way, no divisor is zero, and no result is negative. -/
theorem saturates (a b : ByteSize) (ty : IntegralType) (factor : ty.Value) :
    (∃ c : ByteSize, plus a b = some c.bytes ∧
      c.bytes.toInt = min (a.bytes.toInt + b.bytes.toInt) Int64.maxValue.toInt) ∧
    ∃ c : ByteSize, times a factor = some c.bytes ∧
      c.bytes.toInt = min (a.bytes.toInt * max factor.toInt 0) Int64.maxValue.toInt :=
  ⟨plus_yields a b, times_yields a factor⟩

end ByteSize

end Cmlb
