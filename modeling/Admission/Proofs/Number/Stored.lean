import Admission.Number.Decimal
import Admission.Proofs.Number.Rounding
import Mathlib.Algebra.Order.Field.Power

/-!
The digits that the shared bucket keeps of a number.

The decimal of a stored text is found in whole numbers. The place of the highest bit tells, up to
one or two, how many digits the number has before the point; comparisons settle the rest, and a
quotient and its remainder give the digits. What comes out is the number rounded to so many digits,
so no decimal with as many digits is nearer to it.
-/
namespace Admission

/-- The number that a decimal stands for. -/
def Decimal.value (d : Decimal) : ℚ := d.digits * 10 ^ d.exponent

/-- The number that a mantissa and a scale stand for. -/
def Dyadic.value (x : Dyadic) : ℚ := x.mantissa * 2 ^ x.scale

theorem Decimal.value_trimmed (d : Decimal) : d.trimmed.value = d.value := by
  fun_induction trimmed d with
  | case1 d h ih =>
    obtain ⟨tens, htens⟩ := Nat.dvd_of_mod_eq_zero h.2
    rw [ih, value, value, htens, Nat.mul_div_cancel_left tens (by norm_num),
      zpow_add_one₀ (by norm_num)]
    push_cast
    ring
  | case2 d h => rfl

section Powers

variable {i j : ℤ}

/-- A power with a negative exponent is moved to the other side. -/
theorem zpow_mul_pow_toNat {b : ℚ} (hb : b ≠ 0) (e : ℤ) : b ^ e * b ^ (-e).toNat = b ^ e.toNat := by
  rw [← zpow_natCast, ← zpow_natCast, ← zpow_add₀ hb]
  congr 1
  omega

/-- A power of two lies below the power of ten that 28 to 93, a little too much, gives. -/
theorem two_zpow_le_ten_zpow (hi : 0 ≤ i) (hij : 28 * i ≤ 93 * j) : (2 : ℚ) ^ i ≤ 10 ^ j := by
  rw [← pow_le_pow_iff_left₀ (by positivity) (by positivity) (by norm_num : 93 ≠ 0)]
  calc ((2 : ℚ) ^ i) ^ 93 = (2 ^ 93) ^ i := by rw [← zpow_natCast, zpow_comm, zpow_natCast]
    _ ≤ (10 ^ 28) ^ i := zpow_le_zpow_left₀ hi (by norm_num) (by norm_num)
    _ = 10 ^ (28 * i) := by rw [zpow_mul, zpow_ofNat]
    _ ≤ 10 ^ (j * 93) := zpow_le_zpow_right₀ (by norm_num) (by linarith)
    _ = (10 ^ j) ^ 93 := by rw [zpow_mul, zpow_ofNat]

/-- A power of ten lies below the power of two that 59 to 196, a little too little, gives. -/
theorem ten_zpow_le_two_zpow (hj : 0 ≤ j) (hij : 196 * i ≤ 59 * j) : (10 : ℚ) ^ i ≤ 2 ^ j := by
  rw [← pow_le_pow_iff_left₀ (by positivity) (by positivity) (by norm_num : 196 ≠ 0)]
  calc ((10 : ℚ) ^ i) ^ 196 = 10 ^ (i * 196) := by rw [zpow_mul, zpow_ofNat]
    _ ≤ 10 ^ (59 * j) := zpow_le_zpow_right₀ (by norm_num) (by linarith)
    _ = (10 ^ 59) ^ j := by rw [zpow_mul, zpow_ofNat]
    _ ≤ (2 ^ 196) ^ j := zpow_le_zpow_left₀ hj (by norm_num) (by norm_num)
    _ = (2 ^ j) ^ 196 := by rw [← zpow_natCast (2 ^ j), zpow_comm, zpow_natCast]

theorem zpow_neg_le_iff {a b : ℚ} (ha : 0 < a) (hb : 0 < b) :
    a ^ (-i) ≤ b ^ (-j) ↔ b ^ j ≤ a ^ i := by
  rw [zpow_neg, zpow_neg, inv_le_inv₀ (zpow_pos ha i) (zpow_pos hb j)]

end Powers

namespace Dyadic

variable {x : Dyadic}

/-- The place of the highest bit. -/
def place (x : Dyadic) : ℤ := x.mantissa.log2 + x.scale

/-- A comparison in whole numbers compares the numbers. -/
theorem compareScaled_eq (a : ℕ) (e : ℤ) (n : ℕ) (s : ℤ) :
    compareScaled a e n s = compare (a * 10 ^ e : ℚ) (n * 2 ^ s) := by
  have htwo := zpow_mul_pow_toNat (b := 2) (by norm_num) s
  have hten := zpow_mul_pow_toNat (b := 10) (by norm_num) e
  have hscale : (0 : ℚ) < 2 ^ (-s).toNat * 10 ^ (-e).toNat := by positivity
  have hleft : (n * 2 ^ s : ℚ) * (2 ^ (-s).toNat * 10 ^ (-e).toNat) =
      (n * Nat.pow 2 s.toNat * Nat.pow 10 (-e).toNat : ℕ) := by
    push_cast [Nat.pow_eq]
    rw [← htwo]
    ring
  have hright : (a * 10 ^ e : ℚ) * (2 ^ (-s).toNat * 10 ^ (-e).toNat) =
      (a * Nat.pow 10 e.toNat * Nat.pow 2 (-s).toNat : ℕ) := by
    push_cast [Nat.pow_eq]
    rw [← hten]
    ring
  rw [compareScaled, ← cmp_eq_compare, ← cmp_eq_compare, ← cmp_mul_pos_right hscale, hleft, hright,
    (Nat.strictMono_cast (α := ℚ)).cmp_map_eq]

theorem compareScaled_eq_gt_iff (a : ℕ) (e : ℤ) (n : ℕ) (s : ℤ) :
    (compareScaled a e n s == .gt) = true ↔ (n * 2 ^ s : ℚ) < a * 10 ^ e := by
  rw [beq_iff_eq, compareScaled_eq, compare_gt_iff_gt]

theorem two_zpow_place_le (hx : x.mantissa ≠ 0) : (2 : ℚ) ^ x.place ≤ x.value := by
  have hbit : ((2 ^ x.mantissa.log2 : ℕ) : ℚ) ≤ x.mantissa := by
    exact_mod_cast Nat.log2_self_le hx
  rw [place, zpow_add₀ (by norm_num), zpow_natCast, value]
  push_cast at hbit
  exact mul_le_mul_of_nonneg_right hbit (by positivity)

theorem lt_two_zpow_place (x : Dyadic) : x.value < 2 ^ (x.place + 1) := by
  have hbit : (x.mantissa : ℚ) < (2 ^ (x.mantissa.log2 + 1) : ℕ) := by
    exact_mod_cast Nat.lt_log2_self
  have hplace : x.place + 1 = (x.mantissa.log2 + 1 : ℕ) + x.scale := by
    rw [place]
    push_cast
    ring
  rw [hplace, zpow_add₀ (by norm_num), zpow_natCast, value]
  push_cast at hbit
  exact mul_lt_mul_of_pos_right hbit (by positivity)

/-- The place of the highest bit tells the power of ten above a number up to one or two. -/
theorem place_bounds (hfar : |x.place| ≤ 10 ^ 4) :
    (10 : ℚ) ^ (x.place * 30103 / 100000 - 1) ≤ 2 ^ x.place ∧
      (2 : ℚ) ^ (x.place + 1) ≤ 10 ^ (x.place * 30103 / 100000 + 2) := by
  obtain ⟨hlow, hhigh⟩ := abs_le.mp hfar
  constructor
  · rcases le_total 0 x.place with hplace | hplace
    · exact ten_zpow_le_two_zpow hplace (by omega)
    · rw [← zpow_neg_le_iff (by norm_num) (by norm_num)]
      exact two_zpow_le_ten_zpow (by omega) (by omega)
  · rcases le_or_gt 0 (x.place + 1) with hplace | hplace
    · exact two_zpow_le_ten_zpow hplace (by omega)
    · rw [← zpow_neg_le_iff (by norm_num) (by norm_num)]
      exact ten_zpow_le_two_zpow (by omega) (by omega)

/-- The number lies below this power of ten and not below the one before. -/
theorem magnitude_spec (hx : x.mantissa ≠ 0) (hfar : |x.place| ≤ 10 ^ 4) :
    (10 : ℚ) ^ (x.magnitude - 1) ≤ x.value ∧ x.value < 10 ^ x.magnitude := by
  obtain ⟨hbelow, habove⟩ := place_bounds hfar
  have hfits : ∀ k, (compareScaled 1 k x.mantissa x.scale == .gt) = true ↔ x.value < 10 ^ k := by
    intro k
    rw [compareScaled_eq_gt_iff, value, Nat.cast_one, one_mul]
  have hlow := hbelow.trans (two_zpow_place_le hx)
  have hhigh := (lt_two_zpow_place x).trans_le habove
  unfold magnitude
  simp only [hfits]
  rw [← place]
  split
  · next hfit => exact absurd hfit (not_lt.mpr hlow)
  · split
    · next hfit => exact ⟨hlow, hfit⟩
    · next hmiss =>
      split
      · next hfit => exact ⟨by simpa using hmiss, hfit⟩
      · next hmiss' => exact ⟨by simpa [add_sub_assoc] using hmiss', hhigh⟩

theorem magnitude_sub (hx : x.mantissa ≠ 0) (hfar : |x.place| ≤ 10 ^ 4) (n : ℕ) :
    x.magnitude - n = lastPlace n x.value := by
  obtain ⟨hlow, hhigh⟩ := magnitude_spec hx hfar
  have hpositive : 0 < x.value := (ten_zpow_pos _).trans_le hlow
  have hle : x.magnitude - 1 ≤ Int.log 10 x.value :=
    (Int.zpow_le_iff_le_log (by norm_num) hpositive).mp hlow
  have hlt : Int.log 10 x.value < x.magnitude :=
    (Int.lt_zpow_iff_log_lt (by norm_num) hpositive).mp hhigh
  rw [lastPlace, abs_of_pos hpositive]
  omega

/-- The quotient is the number in units of a power of ten. -/
theorem inUnits_spec (x : Dyadic) (e : ℤ) :
    0 < (x.inUnits e).2 ∧ ((x.inUnits e).1 : ℚ) / (x.inUnits e).2 = x.value / 10 ^ e := by
  have htwo := zpow_mul_pow_toNat (b := 2) (by norm_num) x.scale
  have hten := zpow_mul_pow_toNat (b := 10) (by norm_num) e
  have hpositive : 0 < (x.inUnits e).2 := by
    simp only [inUnits, Nat.pow_eq]
    positivity
  refine ⟨hpositive, ?_⟩
  rw [div_eq_div_iff (by positivity) (by positivity)]
  simp only [inUnits, value]
  push_cast [Nat.pow_eq]
  rw [← htwo, ← hten]
  ring

end Dyadic

/-- A quotient is rounded by its remainder. -/
theorem round_div_eq (num : ℕ) {den : ℕ} (hden : 0 < den) :
    round ((num : ℚ) / den) =
      ((if den ≤ 2 * (num % den) then num / den + 1 else num / den : ℕ) : ℤ) := by
  have hpositive : (0 : ℚ) < den := by exact_mod_cast hden
  have hnum : (num : ℚ) = den * (num / den : ℕ) + (num % den : ℕ) := by
    exact_mod_cast (Nat.div_add_mod num den).symm
  have hless := Nat.mod_lt num hden
  generalize num / den = quotient at hnum ⊢
  generalize num % den = rest at hnum hless ⊢
  have hquotient : (num : ℚ) / den = quotient + rest / den := by
    rw [hnum, add_div, mul_div_cancel_left₀ _ hpositive.ne']
  rw [hquotient, round_eq, Int.floor_eq_iff]
  split
  · next hhalf =>
    have hup : (1 : ℚ) / 2 ≤ rest / den := by
      rw [div_le_div_iff₀ (by norm_num) hpositive]
      exact_mod_cast (one_mul den).trans_le (hhalf.trans_eq (mul_comm 2 rest))
    have hone : (rest : ℚ) / den < 1 := (div_lt_one hpositive).mpr (by exact_mod_cast hless)
    push_cast
    constructor <;> linarith
  · next hhalf =>
    have hdown : (rest : ℚ) / den < 1 / 2 := by
      rw [div_lt_div_iff₀ hpositive (by norm_num)]
      exact_mod_cast (mul_comm rest 2).trans_lt ((not_le.mp hhalf).trans_eq (one_mul den).symm)
    have hzero : (0 : ℚ) ≤ rest / den := by positivity
    push_cast
    constructor <;> linarith

namespace Dyadic

variable {x : Dyadic}

/-- The digits are those of the number rounded. -/
theorem value_significant (hfar : |x.place| ≤ 10 ^ 4) (n : ℕ) :
    (x.significant n).value = Admission.significant n x.value := by
  obtain ⟨hden, hquotient⟩ := x.inUnits_spec (x.magnitude - n)
  have hround := round_div_eq (x.inUnits (x.magnitude - n)).1 hden
  have hvalue : (x.significant n).value =
      round (x.value / 10 ^ (x.magnitude - n)) * 10 ^ (x.magnitude - n) := by
    rw [← hquotient, hround]
    exact Decimal.value_trimmed _
  by_cases hx : x.mantissa = 0
  · have hzero : x.value = 0 := by simp [value, hx]
    simp [hvalue, hzero, Admission.significant]
  · rw [hvalue, magnitude_sub hx hfar, Admission.significant]

theorem toNat_and_le (bits mask : UInt64) : (bits &&& mask).toNat ≤ mask.toNat := by
  rw [UInt64.toNat_and]
  exact Nat.and_le_right

/-- The highest bit of a binary number is not very far from the point. -/
theorem abs_place_ofFloat_le (f : Float) : |(ofFloat f).place| ≤ 10 ^ 4 := by
  have hsize : (ofFloat f).mantissa < 2 ^ 53 ∧ -1074 ≤ (ofFloat f).scale ∧
      (ofFloat f).scale ≤ 972 := by
    unfold ofFloat
    extract_lets bits field fraction
    have hfield : field ≤ 0x7FF := toNat_and_le _ _
    have hfraction : fraction ≤ 0xFFFFFFFFFFFFF := toNat_and_le _ _
    split
    · dsimp only
      omega
    · dsimp only
      omega
  obtain ⟨hmantissa, hlow, hhigh⟩ := hsize
  have hbit : (ofFloat f).mantissa.log2 < 53 := by
    by_cases hzero : (ofFloat f).mantissa = 0
    · rw [hzero]
      decide
    · exact (Nat.log2_lt hzero).mpr hmantissa
  rw [place, abs_le]
  constructor <;> omega

/-- No decimal with as many digits is nearer to a binary number than the one that is stored. -/
theorem isRounding_significant_ofFloat {n : ℕ} (hn : 0 < n) (f : Float) :
    IsRounding n (ofFloat f).value ((ofFloat f).significant n).value := by
  rw [value_significant (abs_place_ofFloat_le f)]
  exact isRounding_significant hn _

end Dyadic

end Admission
