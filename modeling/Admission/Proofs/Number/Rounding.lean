import Mathlib.Algebra.Order.Field.Rat
import Mathlib.Algebra.Order.Round
import Mathlib.Data.Int.Log
import Mathlib.Data.Rat.Floor
import Mathlib.Tactic.FieldSimp
import Mathlib.Tactic.Linarith
import Mathlib.Tactic.Positivity
import Mathlib.Tactic.Ring

/-!
Rounding to a number of significant digits.

A number is rounded to a nearest one of those that so many decimal digits and a power of ten can
write, whichever of the two it is when both are equally near. Such a rounding is off by half a unit
of the last digit at most, which is small in comparison with the number itself; it keeps the sign,
and it keeps whole numbers that have no more digits. `significant` is one such rounding.
-/
namespace Admission

/-- The number can be written with `n` digits and a power of ten. -/
def IsDecimal (n : ℕ) (y : ℚ) : Prop := ∃ d e : ℤ, |d| < 10 ^ n ∧ y = d * 10 ^ e

/-- Of the numbers with `n` digits none is nearer to `x` than `y` is. -/
structure IsRounding (n : ℕ) (x y : ℚ) : Prop where
  isDecimal : IsDecimal n y
  nearest : ∀ z, IsDecimal n z → |x - y| ≤ |x - z|

/-- The power of ten of the last of `n` digits of a number. -/
def lastPlace (n : ℕ) (x : ℚ) : ℤ := Int.log 10 |x| + 1 - n

/-- The number rounded to `n` digits, a half going up. -/
def significant (n : ℕ) (x : ℚ) : ℚ := round (x / 10 ^ lastPlace n x) * 10 ^ lastPlace n x

theorem ten_zpow_pos (e : ℤ) : (0 : ℚ) < 10 ^ e := zpow_pos (by norm_num) e

theorem isDecimal_intCast {n : ℕ} {k : ℤ} (hk : |k| < 10 ^ n) : IsDecimal n k :=
  ⟨k, 0, hk, by simp⟩

/-- A whole number of units whose size is a power of ten of `n` digits at most. -/
theorem isDecimal_of_le {n : ℕ} (hn : 0 < n) {d : ℤ} (hd : |d| ≤ 10 ^ n) (e : ℤ) :
    IsDecimal n (d * 10 ^ e) := by
  rcases hd.lt_or_eq with hless | hfull
  · exact ⟨d, e, hless, rfl⟩
  · have hone : (1 : ℤ) < 10 ^ n := one_lt_pow₀ (by norm_num) hn.ne'
    have hpower : (10 : ℚ) ^ (e + n) = 10 ^ n * 10 ^ e := by
      rw [zpow_add₀ (by norm_num), zpow_natCast, mul_comm]
    rcases abs_eq (by positivity) |>.mp hfull with rfl | rfl
    · exact ⟨1, e + n, by rwa [abs_one], by rw [hpower]; push_cast; ring⟩
    · exact ⟨-1, e + n, by rwa [abs_neg, abs_one], by rw [hpower]; push_cast; ring⟩

section Significant

variable {n : ℕ} {x : ℚ}

/-- The leading one of `n` digits. -/
theorem pow_leading_le (hx : x ≠ 0) : (10 : ℚ) ^ (lastPlace n x + n - 1) ≤ |x| := by
  have hlead : lastPlace n x + n - 1 = Int.log 10 |x| := by
    unfold lastPlace
    ring
  rw [hlead]
  exact Int.zpow_log_le_self (by norm_num) (abs_pos.mpr hx)

theorem lt_pow_leading (n : ℕ) (x : ℚ) : |x| < 10 ^ n * 10 ^ lastPlace n x := by
  have hlead : Int.log 10 |x| + 1 = n + lastPlace n x := by
    unfold lastPlace
    ring
  have hlog := Int.lt_zpow_succ_log_self (R := ℚ) (b := 10) (by norm_num) |x|
  rw [hlead, Nat.cast_ofNat, zpow_add₀ (by norm_num), zpow_natCast] at hlog
  exact hlog

/-- Among the multiples of its last place none is nearer to a number than its rounding. -/
theorem abs_sub_significant_le_of_multiple (n : ℕ) (x : ℚ) (k : ℤ) :
    |x - significant n x| ≤ |x - k * 10 ^ lastPlace n x| := by
  have hunit := ten_zpow_pos (lastPlace n x)
  have hscale : ∀ z : ℚ, |x - z * 10 ^ lastPlace n x| =
      |x / 10 ^ lastPlace n x - z| * 10 ^ lastPlace n x := by
    intro z
    rw [← abs_of_pos hunit, ← abs_mul, abs_of_pos hunit, sub_mul, div_mul_cancel₀ _ hunit.ne']
  rw [significant, hscale, hscale]
  exact mul_le_mul_of_nonneg_right (round_le _ _) hunit.le

theorem isDecimal_significant (hn : 0 < n) (x : ℚ) : IsDecimal n (significant n x) := by
  have hunit := ten_zpow_pos (lastPlace n x)
  have hquotient : |x / 10 ^ lastPlace n x| < 10 ^ n := by
    rw [abs_div, abs_of_pos hunit, div_lt_iff₀ hunit]
    exact lt_pow_leading n x
  have hround : |(round (x / 10 ^ lastPlace n x) : ℚ)| < 10 ^ n + 1 := by
    have hhalf := abs_sub_round (x / 10 ^ lastPlace n x)
    have hsum := abs_sub_abs_le_abs_sub (round (x / 10 ^ lastPlace n x) : ℚ)
      (x / 10 ^ lastPlace n x)
    rw [abs_sub_comm] at hsum
    linarith
  have hdigits : |round (x / 10 ^ lastPlace n x)| ≤ 10 ^ n := by
    have hint : |round (x / 10 ^ lastPlace n x)| < 10 ^ n + 1 := by exact_mod_cast hround
    omega
  exact isDecimal_of_le hn hdigits _

/-- A number of `n` digits whose last place is lower lies below the leading place. -/
theorem abs_le_pow_of_lower {z : ℚ} {d e : ℤ} (hd : |d| < 10 ^ n) (hz : z = d * 10 ^ e) {last : ℤ}
    (hlower : e < last) : |z| ≤ 10 ^ (last + n - 1) := by
  have hdigits : |(d : ℚ)| ≤ 10 ^ n := by exact_mod_cast hd.le
  calc |z| = |(d : ℚ)| * 10 ^ e := by rw [hz, abs_mul, abs_of_pos (ten_zpow_pos e)]
    _ ≤ 10 ^ n * 10 ^ e := mul_le_mul_of_nonneg_right hdigits (ten_zpow_pos e).le
    _ = 10 ^ (n + e) := by rw [zpow_add₀ (by norm_num), zpow_natCast]
    _ ≤ 10 ^ (last + n - 1) := zpow_le_zpow_right₀ (by norm_num) (by omega)

theorem significant_nearest (hn : 0 < n) (hx : x ≠ 0) {z : ℚ} (hz : IsDecimal n z) :
    |x - significant n x| ≤ |x - z| := by
  obtain ⟨d, e, hd, hz⟩ := hz
  rcases le_or_gt (lastPlace n x) e with hle | hlower
  · -- A number with a last place as high is a multiple of the unit.
    obtain ⟨k, hk⟩ := Int.eq_ofNat_of_zero_le (sub_nonneg.mpr hle)
    have hmultiple : z = (d * 10 ^ k : ℤ) * 10 ^ lastPlace n x := by
      have he : e = k + lastPlace n x := by omega
      rw [hz, he, zpow_add₀ (by norm_num), zpow_natCast]
      push_cast
      ring
    rw [hmultiple]
    exact abs_sub_significant_le_of_multiple n x _
  · -- Any other one is farther off than the leading place is.
    have hsmall := abs_le_pow_of_lower hd hz hlower
    have hlead := pow_leading_le (n := n) hx
    have hpower : (10 : ℚ) ^ (lastPlace n x + n - 1) = 10 ^ (n - 1) * 10 ^ lastPlace n x := by
      have he : lastPlace n x + n - 1 = (n - 1 : ℕ) + lastPlace n x := by omega
      rw [he, zpow_add₀ (by norm_num), zpow_natCast]
    have hfar : |x| - 10 ^ (lastPlace n x + n - 1) ≤ |x - z| := by
      have hdiff := abs_sub_abs_le_abs_sub x z
      linarith
    refine le_trans ?_ hfar
    rcases le_total 0 x with hsign | hsign
    · have hmultiple := abs_sub_significant_le_of_multiple n x (10 ^ (n - 1))
      rw [abs_of_nonneg hsign] at hlead ⊢
      push_cast at hmultiple
      rwa [← hpower, abs_of_nonneg (sub_nonneg.mpr hlead)] at hmultiple
    · have hmultiple := abs_sub_significant_le_of_multiple n x (-10 ^ (n - 1))
      rw [abs_of_nonpos hsign] at hlead ⊢
      have hgap : |x + 10 ^ (lastPlace n x + n - 1)| = -x - 10 ^ (lastPlace n x + n - 1) := by
        rw [abs_of_nonpos (by linarith)]
        ring
      push_cast at hmultiple
      rwa [neg_mul, sub_neg_eq_add, ← hpower, hgap] at hmultiple

theorem isRounding_significant (hn : 0 < n) (x : ℚ) : IsRounding n x (significant n x) where
  isDecimal := isDecimal_significant hn x
  nearest := by
    intro z hz
    by_cases hx : x = 0
    · have hzero : significant n x = x := by simp [significant, hx]
      rw [hzero, sub_self, abs_zero]
      exact abs_nonneg _
    · exact significant_nearest hn hx hz

/-- Half a unit of the last of `n` digits is this small a part of the number. -/
theorem abs_sub_significant_le (n : ℕ) (x : ℚ) : |x - significant n x| ≤ |x| * 5 / 10 ^ n := by
  by_cases hx : x = 0
  · simp [significant, hx]
  · have hunit := ten_zpow_pos (lastPlace n x)
    have hhalf : |x - significant n x| ≤ 10 ^ lastPlace n x / 2 := by
      have hround := abs_sub_round (x / 10 ^ lastPlace n x)
      have hscaled := mul_le_mul_of_nonneg_right hround hunit.le
      rw [← abs_of_pos hunit, ← abs_mul, abs_of_pos hunit, sub_mul,
        div_mul_cancel₀ _ hunit.ne'] at hscaled
      unfold significant
      linarith
    have hlead := pow_leading_le (n := n) hx
    have hpower : (10 : ℚ) ^ (lastPlace n x + n - 1) * 10 = 10 ^ n * 10 ^ lastPlace n x := by
      rw [← zpow_add_one₀ (by norm_num), ← zpow_natCast, ← zpow_add₀ (by norm_num)]
      congr 1
      ring
    rw [le_div_iff₀ (by positivity)]
    calc |x - significant n x| * 10 ^ n
        ≤ 10 ^ lastPlace n x / 2 * 10 ^ n := mul_le_mul_of_nonneg_right hhalf (by positivity)
      _ = 10 ^ (lastPlace n x + n - 1) * 5 := by linarith
      _ ≤ |x| * 5 := mul_le_mul_of_nonneg_right hlead (by norm_num)

end Significant

namespace IsRounding

variable {n : ℕ} {x y : ℚ}

theorem abs_sub_le (h : IsRounding n x y) (hn : 0 < n) : |x - y| ≤ |x| * 5 / 10 ^ n :=
  (h.nearest _ (isDecimal_significant hn x)).trans (abs_sub_significant_le n x)

theorem nonneg (h : IsRounding n x y) (hx : 0 ≤ x) : 0 ≤ y := by
  have hzero := h.nearest 0 ⟨0, 0, by simp, by simp⟩
  rw [sub_zero, abs_of_nonneg hx] at hzero
  have hle := (le_abs_self (x - y)).trans hzero
  linarith

/-- What a rounding adds to a number that has a bound. -/
theorem le_add (h : IsRounding n x y) (hn : 0 < n) (hx : 0 ≤ x) {bound : ℚ} (hbound : x ≤ bound) :
    y ≤ x + bound * 5 / 10 ^ n := by
  have herror := h.abs_sub_le hn
  rw [abs_of_nonneg hx, abs_sub_comm] at herror
  have hgrown : x * 5 / 10 ^ n ≤ bound * 5 / 10 ^ n :=
    div_le_div_of_nonneg_right (mul_le_mul_of_nonneg_right hbound (by norm_num)) (by positivity)
  have hle := le_abs_self (y - x)
  linarith

/-- Whole numbers of `n` digits stay as they are. -/
theorem eq_of_intCast {k : ℤ} (h : IsRounding n k y) (hk : |k| < 10 ^ n) : y = k := by
  have hself := h.nearest k (isDecimal_intCast hk)
  rw [sub_self, abs_zero] at hself
  exact (sub_eq_zero.mp (abs_nonpos_iff.mp hself)).symm

end IsRounding

end Admission
