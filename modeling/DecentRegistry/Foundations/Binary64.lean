import Mathlib.Algebra.Order.Round
import Mathlib.Data.Int.Log
import Mathlib.Data.Rat.Floor
import Mathlib.Tactic.Linarith

/-!
# Sums of binary floating point numbers

The sum of two floats of 53 significant bits is the exact sum rounded to a nearest float, and to the
even one of two (`Binary64.add`). Floats are read as rational numbers, and exponents have no bounds:
away from the largest floats that is the addition of `binary64`, since a sum of floats so small that
the bits run out is a float itself.
-/

namespace Binary64

/-- A nearest integer, and the even one of two. -/
def roundHalfEven (x : ℚ) : ℤ :=
  if Int.fract x < 1 / 2 then ⌊x⌋
  else if 1 / 2 < Int.fract x then ⌊x⌋ + 1
  else if Even ⌊x⌋ then ⌊x⌋ else ⌊x⌋ + 1

/-- The unit in the last of the 53 places. -/
def ulp (x : ℚ) : ℚ := 2 ^ (Int.log 2 |x| - 52)

/-- A nearest float. -/
def nearest (x : ℚ) : ℚ := roundHalfEven (x / ulp x) * ulp x

/-- The sum of two floats. -/
def add (x y : ℚ) : ℚ := nearest (x + y)

theorem abs_roundHalfEven_sub_le (x : ℚ) : |(roundHalfEven x : ℚ) - x| ≤ 1 / 2 := by
  have hfract := Int.self_sub_floor x
  have hnonneg := Int.fract_nonneg x
  have hlt := Int.fract_lt_one x
  rw [abs_le, roundHalfEven]
  split_ifs <;> push_cast <;> constructor <;> linarith

theorem ulp_pos (x : ℚ) : 0 < ulp x := zpow_pos (by norm_num) _

/-- Rounding errs by half a unit in the last place at most. -/
theorem abs_nearest_sub_le (x : ℚ) : |nearest x - x| ≤ ulp x / 2 := by
  have hpos := ulp_pos x
  have hround := abs_roundHalfEven_sub_le (x / ulp x)
  calc |nearest x - x| = |(roundHalfEven (x / ulp x) : ℚ) - x / ulp x| * ulp x := by
        rw [nearest, ← abs_of_pos hpos, ← abs_mul, abs_of_pos hpos, sub_mul,
          div_mul_cancel₀ x hpos.ne']
    _ ≤ 1 / 2 * ulp x := mul_le_mul_of_nonneg_right hround hpos.le
    _ = ulp x / 2 := by ring

end Binary64
