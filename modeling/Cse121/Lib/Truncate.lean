import Mathlib.Algebra.Order.Round
import Mathlib.Data.Rat.Floor

/-! # Conversion to an integer

The conversion of a number to an integer type drops the fraction: it goes towards zero.
Adding a half first makes it the nearest integer, but not for all negative numbers.
-/

/-- The integer part of a number. -/
def truncate (x : ℚ) : Int := if 0 ≤ x then ⌊x⌋ else ⌈x⌉

namespace Truncate

theorem of_nonneg {x : ℚ} (hx : 0 ≤ x) : truncate x = ⌊x⌋ := if_pos hx

theorem of_neg {x : ℚ} (hx : x < 0) : truncate x = ⌈x⌉ := if_neg (not_le.2 hx)

/-- A number above -1 that is not positive has the integer part 0. -/
theorem eq_zero {x : ℚ} (hlo : -1 < x) (hhi : x < 1) : truncate x = 0 := by
  rcases le_or_gt 0 x with hx | hx
  · rw [of_nonneg hx, Int.floor_eq_zero_iff]
    exact ⟨hx, hhi⟩
  · rw [of_neg hx, Int.ceil_eq_zero_iff]
    exact ⟨hlo, hx.le⟩

/-- From -1/2 on, adding a half and truncating gives a nearest integer. -/
theorem add_half_of_le {x : ℚ} (hx : -(1 / 2) ≤ x) : |(truncate (x + 1 / 2) : ℚ) - x| ≤ 1 / 2 := by
  rw [of_nonneg (by linarith), abs_le]
  have hle := Int.floor_le (x + 1 / 2)
  have hlt := Int.lt_floor_add_one (x + 1 / 2)
  constructor <;> linarith

/-- Below it does so only half way between two integers. -/
theorem add_half_of_lt {x : ℚ} (hx : x < -(1 / 2)) :
    |(truncate (x + 1 / 2) : ℚ) - x| ≤ 1 / 2 ↔ ∃ n : Int, (n : ℚ) = x + 1 / 2 := by
  have hle := Int.le_ceil (x + 1 / 2)
  rw [of_neg (by linarith), abs_le]
  constructor
  · rintro ⟨-, hup⟩
    exact ⟨⌈x + 1 / 2⌉, le_antisymm (by linarith) hle⟩
  · rintro ⟨n, hn⟩
    rw [← hn, Int.ceil_intCast, hn]
    constructor <;> linarith

end Truncate
