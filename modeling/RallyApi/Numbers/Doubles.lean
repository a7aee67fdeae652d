import Mathlib.Algebra.Order.Ring.Nat
import Mathlib.Data.Nat.Log

/-!
# Natural numbers as doubles

A double has fifty-three binary digits, so from 2 ^ 53 on not every natural number is one. `toDouble`
rounds to the nearest, and to the one with the even mantissa when two are equally near. Sums and products
of doubles are rounded in the same way: `timesDouble`. From 2 ^ 1024 on there is none, and 2 ^ 1024 stands
for `Infinity`.

A number whose mantissa fits is not changed (`toDouble_of_fits`), and a rounded number is such a number
(`fits_toDouble`).
-/

set_option autoImplicit false
set_option relaxedAutoImplicit false

namespace RallyApi.Numbers

variable {number mantissa exponent : ℕ}

/-- The distance between the doubles around a number. -/
def spacing (number : ℕ) : ℕ := 2 ^ (number.log2 - 52)

/-- The number of units nearest to a number, the even one of two. -/
def nearestEven (number unit : ℕ) : ℕ :=
  if 2 * (number % unit) < unit then number / unit
  else if 2 * (number % unit) = unit then number / unit + number / unit % 2
  else number / unit + 1

/-- The exponent from which on a number is infinite. -/
def exponentLimit : ℕ := 1024

/-- What stands for `Infinity`. -/
def infinity : ℕ := 2 ^ exponentLimit

/-- The double nearest to a number. -/
def toDouble (number : ℕ) : ℕ :=
  let rounded := nearestEven number (spacing number) * spacing number
  if rounded.log2 < exponentLimit then rounded else infinity

/-- The product of two doubles. -/
def timesDouble (left right : ℕ) : ℕ := toDouble (left * right)

/-- A number is a double, or stands for infinity. -/
def Fits (number : ℕ) : Prop :=
  ∃ mantissa exponent, mantissa ≤ 2 ^ 53 ∧ number = mantissa * 2 ^ exponent ∧ number ≤ infinity

/-! ### Numbers that are not changed -/

theorem spacing_pos (number : ℕ) : 0 < spacing number := Nat.two_pow_pos _

/-- Assumes: the mantissa fits. The distance divides the number. -/
theorem spacing_dvd (hmantissa : mantissa ≤ 2 ^ 53) :
    spacing (mantissa * 2 ^ exponent) ∣ mantissa * 2 ^ exponent := by
  rcases Nat.lt_or_eq_of_le hmantissa with hless | rfl
  · by_cases hzero : mantissa = 0
    · exact hzero ▸ (Nat.zero_mul (2 ^ exponent)).symm ▸ Nat.dvd_zero _
    · have hlog : (mantissa * 2 ^ exponent).log2 < 53 + exponent := by
        have hne := Nat.mul_ne_zero hzero (Nat.two_pow_pos exponent).ne'
        rw [Nat.log2_lt hne, Nat.pow_add]
        exact Nat.mul_lt_mul_of_pos_right hless (Nat.two_pow_pos _)
      exact (Nat.pow_dvd_pow 2 (by omega)).mul_left mantissa
  · -- The power of two above the mantissas is a mantissa with one more zero.
    rw [← Nat.pow_add, spacing, Nat.log2_two_pow]
    exact Nat.pow_dvd_pow 2 (by omega)

theorem nearestEven_of_dvd {unit : ℕ} (hunit : 0 < unit) (hdvd : unit ∣ number) :
    nearestEven number unit = number / unit := by
  rw [nearestEven, Nat.mod_eq_zero_of_dvd hdvd]
  exact if_pos hunit

theorem toDouble_of_fits (hfits : Fits number) : toDouble number = number := by
  obtain ⟨mantissa, exponent, hmantissa, rfl, hbound⟩ := hfits
  have hdvd : spacing (mantissa * 2 ^ exponent) ∣ mantissa * 2 ^ exponent := spacing_dvd hmantissa
  rw [toDouble, nearestEven_of_dvd (spacing_pos _) hdvd, Nat.div_mul_cancel hdvd]
  split_ifs with hlog
  · rfl
  · -- What has a thousand and twenty-five digits and is not above is the power itself.
    have hne : mantissa * 2 ^ exponent ≠ 0 := by
      intro hzero
      rw [hzero] at hlog
      exact hlog (by decide)
    exact le_antisymm ((Nat.le_log2 hne).mp (not_lt.mp hlog)) hbound

/-- A number with at most fifty-three digits before zeros is a double. -/
theorem fits_mul_two_pow (hmantissa : mantissa ≤ 2 ^ 53) (hexponent : exponent ≤ 971) :
    Fits (mantissa * 2 ^ exponent) := by
  refine ⟨mantissa, exponent, hmantissa, rfl, ?_⟩
  calc mantissa * 2 ^ exponent ≤ 2 ^ 53 * 2 ^ exponent := Nat.mul_le_mul_right _ hmantissa
    _ = 2 ^ (53 + exponent) := (Nat.pow_add 2 53 exponent).symm
    _ ≤ infinity := Nat.pow_le_pow_right Nat.two_pos (by unfold exponentLimit; omega)

/-! ### Numbers that have been rounded -/

theorem nearestEven_le (number unit : ℕ) : nearestEven number unit ≤ number / unit + 1 := by
  unfold nearestEven
  split_ifs
  · exact Nat.le_succ _
  · exact Nat.add_le_add_left (Nat.le_of_lt_succ (Nat.mod_lt _ Nat.two_pos)) _
  · exact le_rfl

/-- A number is less than 2 ^ 53 of the distances around it. -/
theorem div_spacing_lt (number : ℕ) : number / spacing number < 2 ^ 53 := by
  rw [Nat.div_lt_iff_lt_mul (spacing_pos number), spacing, ← Nat.pow_add]
  calc number < 2 ^ (number.log2 + 1) := Nat.lt_log2_self
    _ ≤ 2 ^ (53 + (number.log2 - 52)) := Nat.pow_le_pow_right Nat.two_pos (by omega)

theorem fits_toDouble (number : ℕ) : Fits (toDouble number) := by
  unfold toDouble
  dsimp only
  split_ifs with hlog
  · refine ⟨_, number.log2 - 52, (nearestEven_le _ _).trans (div_spacing_lt number), rfl, ?_⟩
    by_cases hzero : nearestEven number (spacing number) * spacing number = 0
    · exact hzero ▸ Nat.zero_le _
    · exact ((Nat.log2_lt hzero).mp hlog).le
  · refine ⟨1, exponentLimit, Nat.one_le_two_pow, ?_, le_rfl⟩
    rw [Nat.one_mul, infinity]

/-- Rounding twice is rounding once. -/
@[simp]
theorem toDouble_toDouble (number : ℕ) : toDouble (toDouble number) = toDouble number :=
  toDouble_of_fits (fits_toDouble number)

end RallyApi.Numbers
