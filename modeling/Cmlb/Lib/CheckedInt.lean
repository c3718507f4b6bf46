import Mathlib.Algebra.Order.Ring.Int

/-!
# Signed 64-bit arithmetic without undefined behaviour

The operations are exact: where the exact result is no 64-bit value, or a divisor is zero, there is no
result. Division truncates. `cast` brings a value of any other integral type to 64 bits, modulo 2^64.
-/

namespace CheckedInt

variable {a b c : Int64} {n : Int}

def exact (n : Int) : Option Int64 :=
  if Int64.minValue.toInt ≤ n ∧ n ≤ Int64.maxValue.toInt then some (.ofInt n) else none

def add (a b : Int64) : Option Int64 := exact (a.toInt + b.toInt)

def sub (a b : Int64) : Option Int64 := exact (a.toInt - b.toInt)

def mul (a b : Int64) : Option Int64 := exact (a.toInt * b.toInt)

def div (a b : Int64) : Option Int64 := if b = 0 then none else exact (a.toInt.tdiv b.toInt)

theorem toInt_maxValue : Int64.maxValue.toInt = 9223372036854775807 := rfl

/-- The range of the type. -/
theorem bounds (a : Int64) : -9223372036854775808 ≤ a.toInt ∧ a.toInt ≤ 9223372036854775807 :=
  ⟨a.le_toInt, a.toInt_le⟩

theorem toInt_ofInt_of_bounds (h : -9223372036854775808 ≤ n ∧ n ≤ 9223372036854775807) :
    (Int64.ofInt n).toInt = n := by
  rw [Int64.toInt_ofInt_of_le h.1]
  omega

theorem exact_of_bounds (h : -9223372036854775808 ≤ n ∧ n ≤ 9223372036854775807) :
    ∃ c, exact n = some c ∧ c.toInt = n :=
  ⟨.ofInt n, if_pos h, toInt_ofInt_of_bounds h⟩

/-! ### Truncating division -/

variable {m d k : Int}

theorem tdiv_of_pos (hm : 0 ≤ m) (hd : 0 < d) :
    0 ≤ m.tdiv d ∧ m.tdiv d ≤ m ∧ (m.tdiv d < k ↔ m < k * d) := by
  rw [Int.tdiv_eq_ediv_of_nonneg hm]
  exact ⟨Int.ediv_nonneg hm hd.le, Int.ediv_le_self d hm, Int.ediv_lt_iff_lt_mul hd⟩

/-- The quotient by a negative divisor is not positive. -/
theorem tdiv_of_neg (hm : 0 ≤ m) (hd : d < 0) : -m ≤ m.tdiv d ∧ m.tdiv d ≤ 0 := by
  have hpos : 0 < -d := by omega
  obtain ⟨hnonneg, hle, -⟩ := tdiv_of_pos (k := 0) hm hpos
  rw [Int.tdiv_neg] at hnonneg hle
  omega

/-! ### Other integral types -/

/-- An integral type of at most 64 bits. -/
structure IntegralType where
  bits : ℕ
  signed : Bool
  pos : 0 < bits
  le : bits ≤ 64

namespace IntegralType

def min (ty : IntegralType) : Int := if ty.signed then -2 ^ (ty.bits - 1) else 0

def max (ty : IntegralType) : Int := if ty.signed then 2 ^ (ty.bits - 1) - 1 else 2 ^ ty.bits - 1

/-- A value of the type. -/
structure Value (ty : IntegralType) where
  toInt : Int
  min_le : ty.min ≤ toInt
  le_max : toInt ≤ ty.max

theorem Value.lt {ty : IntegralType} (x : ty.Value) : x.toInt < 18446744073709551616 := by
  have hpow : (2 : Int) ^ ty.bits ≤ 2 ^ 64 := pow_le_pow_right₀ (by decide) ty.le
  have hpow' : (2 : Int) ^ (ty.bits - 1) ≤ 2 ^ 64 :=
    pow_le_pow_right₀ (by decide) ((Nat.sub_le _ _).trans ty.le)
  have hle := x.le_max
  rw [max] at hle
  split_ifs at hle <;> omega

end IntegralType

/-- `static_cast<std::int64_t>` -/
def cast {ty : IntegralType} (x : ty.Value) : Int64 := .ofInt x.toInt

/-- Values of 2^63 and more become negative. -/
theorem toInt_cast {ty : IntegralType} (x : ty.Value) (hpos : 0 < x.toInt) :
    (cast x).toInt = if x.toInt ≤ 9223372036854775807 then x.toInt
      else x.toInt - 18446744073709551616 := by
  have hlt := x.lt
  rw [cast, Int64.toInt_ofInt, Int.bmod_def]
  split_ifs <;> simp at * <;> omega

end CheckedInt
