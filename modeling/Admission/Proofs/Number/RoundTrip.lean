import Admission.Proofs.Number.Nearest
import Admission.Proofs.Number.Reading
import Mathlib

/-!
A number is read from its text.

The shortest decimal of a number is nearer to it than to any other number, and so the decimal is
read as that number. That holds for every decimal so near, however it is read: with a product or a
quotient of exact numbers where these are small, and in whole numbers where they are not.
-/
namespace Admission

open Float.Model Float.Model.UnpackedFloat

namespace Dyadic

variable {x : Dyadic}

/-- A whole number in the form of a binary number. -/
def whole (n : ℕ) : Dyadic :=
  ⟨n * 2 ^ (52 - n.log2), n.log2 - 52, n * 2 ^ (52 - n.log2) = 2 ^ 52⟩

section Whole

variable {n : ℕ} (hn : 0 < n) (hlt : n < 2 ^ 53)

include hn hlt

theorem log2_le_of_lt : n.log2 ≤ 52 := Nat.le_of_lt_succ ((Nat.log2_lt hn.ne').mpr hlt)

theorem isBinary_whole : (whole n).IsBinary := by
  have hlog := log2_le_of_lt hn hlt
  have hless := Nat.mul_lt_mul_of_pos_right (Nat.lt_log2_self (n := n))
    (Nat.two_pow_pos (52 - n.log2))
  have hfull := Nat.mul_le_mul_right (2 ^ (52 - n.log2)) (Nat.log2_self_le hn.ne')
  rw [← Nat.pow_add, show n.log2 + 1 + (52 - n.log2) = 53 by omega] at hless
  rw [← Nat.pow_add, show n.log2 + (52 - n.log2) = 52 by omega] at hfull
  refine ⟨?_, hless, ?_, ?_, fun _ => hfull, ?_⟩ <;> simp [whole] <;> omega

theorem value_whole : (whole n).value = n := by
  have hlog := log2_le_of_lt hn hlt
  rw [value, whole]
  push_cast
  rw [mul_assoc, ← zpow_natCast, ← zpow_add₀ (by norm_num),
    show ((52 - n.log2 : ℕ) : ℤ) + (n.log2 - 52) = 0 by omega, zpow_zero, mul_one]

/-- Whole numbers that a mantissa can hold are exact. -/
theorem round_eq_whole : UnpackedFloat.round .binary64 .positive n 0 =
    .finite .positive (whole n).mantissa (whole n).scale (isBinary_whole hn hlt).pos := by
  have hbinary := isBinary_whole hn hlt
  have hlog := log2_le_of_lt hn hlt
  have htarget : (0 - scaleFor n 0).toNat = 52 - n.log2 := by
    unfold scaleFor
    omega
  have hexponent : (0 : ℤ) - (52 - n.log2 : ℕ) = (whole n).scale := by
    show (0 : ℤ) - (52 - n.log2 : ℕ) = n.log2 - 52
    omega
  have hmantissa : n <<< (52 - n.log2) = (whole n).mantissa := Nat.shiftLeft_eq _ _
  simp only [UnpackedFloat.round, targetExponent_eq, decreaseExponent, htarget, hexponent,
    hmantissa]
  refine roundWithAccuracy_eq hbinary _ (sub_self _) ?_ (isNear_value _)
  have hleast : -1074 < (whole n).scale := by
    show (-1074 : ℤ) < n.log2 - 52
    omega
  have hbits : 52 ≤ (whole n).mantissa.log2 :=
    (Nat.le_log2 hbinary.pos.ne').mpr (hbinary.full hleast)
  unfold scaleFor
  omega

theorem unpack_toFloat : n.toUInt64.toFloat.toModel.unpack =
    .finite .positive (whole n).mantissa (whole n).scale (isBinary_whole hn hlt).pos := by
  have hword : n.toUInt64.toNat = n := Nat.mod_eq_of_lt (hlt.trans (by norm_num))
  have hsign : compare (n : ℤ) 0 = .gt := Int.compare_eq_gt.mpr (by exact_mod_cast hn)
  show (Float.Model.pack (UnpackedFloat.ofNat .binary64 n.toUInt64.toNat)).unpack = _
  rw [hword, UnpackedFloat.ofNat, UnpackedFloat.ofInt, UnpackedFloat.normalize, hsign]
  dsimp only
  rw [Int.toNat_natCast, round_eq_whole hn hlt, unpack_pack (isBinary_whole hn hlt)]

end Whole

/-- The number is the power of ten, with all bits of its mantissa in use. -/
def isPowerOfTen (f : Float) (i : ℕ) : Bool :=
  match f.toModel.unpack with
  | .finite .positive m e _ => 2 ^ 52 ≤ m ∧ m * 2 ^ e.toNat = 10 ^ i * 2 ^ (-e).toNat
  | _ => false

theorem isPowerOfTen_table : ∀ i (h : i < Float.exactlyRepresentablePowersOfTen.size),
    isPowerOfTen Float.exactlyRepresentablePowersOfTen[i] i = true := by
  decide +kernel

theorem exists_unpack_table {i : ℕ} (h : i < Float.exactlyRepresentablePowersOfTen.size) :
    ∃ m e, ∃ hm : 0 < m, Float.exactlyRepresentablePowersOfTen[i].toModel.unpack =
      .finite .positive m e hm ∧ 2 ^ 52 ≤ m ∧ (m * 2 ^ e : ℚ) = 10 ^ i := by
  have hpower := isPowerOfTen_table i h
  unfold isPowerOfTen at hpower
  split at hpower
  · next m e hm hunpack =>
    obtain ⟨hfull, heq⟩ := of_decide_eq_true hpower
    refine ⟨m, e, hm, hunpack, hfull, ?_⟩
    have hscale := zpow_mul_pow_toNat (b := 2) (by norm_num) e
    have hcast : (m : ℚ) * 2 ^ e.toNat = 10 ^ i * 2 ^ (-e).toNat := by exact_mod_cast heq
    have hunit : (2 : ℚ) ^ (-e).toNat ≠ 0 := by positivity
    rw [← hscale, ← mul_assoc] at hcast
    exact mul_right_cancel₀ hunit hcast
  · cases hpower

/-- A decimal with few digits is read with one product or one quotient of exact numbers. -/
theorem ofScientific_of_lt {x : Dyadic} (hx : x.IsBinary) {n i : ℕ} (hn : 0 < n) (hlt : n < 2 ^ 53)
    (hi : i ≤ 22) (negative : Bool)
    (hnear : x.IsNear (if negative then n / 10 ^ i else n * 10 ^ i)) :
    Float.ofScientific n negative i =
      .ofModel (Float.Model.pack (.finite .positive x.mantissa x.scale hx.pos)) := by
  have hindex : i < Float.exactlyRepresentablePowersOfTen.size := Nat.lt_succ_of_le hi
  obtain ⟨m, e, hm, hunpack, hfull, hvalue⟩ := exists_unpack_table hindex
  have hwhole := unpack_toFloat hn hlt
  rw [Float.ofScientific, dif_pos ⟨hlt, hi⟩]
  dsimp only
  rw [← hvalue] at hnear
  have hexact : (n : ℚ) = (whole n).mantissa * 2 ^ (whole n).scale := (value_whole hn hlt).symm
  rw [hexact] at hnear
  cases negative with
  | true =>
    show Float.ofModel (Float.Model.pack (UnpackedFloat.div .binary64
      n.toUInt64.toFloat.toModel.unpack
      Float.exactlyRepresentablePowersOfTen[i].toModel.unpack)) = _
    rw [hwhole, hunpack, div_eq hx _ _ hnear]
  | false =>
    have hbits : 2 ^ 52 ≤ (whole n).mantissa * m :=
      hfull.trans (Nat.le_mul_of_pos_left m (isBinary_whole hn hlt).pos)
    show Float.ofModel (Float.Model.pack (UnpackedFloat.mul .binary64
      n.toUInt64.toFloat.toModel.unpack
      Float.exactlyRepresentablePowersOfTen[i].toModel.unpack)) = _
    rw [hwhole, hunpack, mul_eq hx _ _ hbits hnear]

/-- How large and how small a number near a binary number is. -/
theorem IsNear.bounds {x : Dyadic} (hx : x.IsBinary) {q : ℚ} (h : x.IsNear q) :
    (2 : ℚ) ^ (-1075 : ℤ) ≤ q ∧ q < 2 ^ (1024 : ℤ) := by
  have hleast : (2 : ℚ) ^ (-1074 : ℤ) ≤ 2 ^ x.scale := zpow_le_zpow_right₀ (by norm_num) hx.low
  have hmost : (2 : ℚ) ^ x.scale ≤ 2 ^ (971 : ℤ) := zpow_le_zpow_right₀ (by norm_num) hx.high
  have hone : (1 : ℚ) ≤ x.mantissa := by exact_mod_cast hx.pos
  constructor
  · refine le_trans ?_ h.low
    calc (2 : ℚ) ^ (-1075 : ℤ) = 1 / 2 * 2 ^ (-1074 : ℤ) := by
          rw [show (-1075 : ℤ) = -1 + -1074 by norm_num, zpow_add₀ (by norm_num), zpow_neg_one,
            one_div]
      _ ≤ (x.mantissa - x.gapBelow) * 2 ^ x.scale := by
          refine mul_le_mul ?_ hleast (zpow_nonneg (by norm_num) _) ?_ <;>
            linarith [x.gapBelow_bounds]
  · calc q < 2 ^ 53 * 2 ^ x.scale := h.lt_full hx
      _ ≤ 2 ^ 53 * 2 ^ (971 : ℤ) := mul_le_mul_of_nonneg_left hmost (by norm_num)
      _ = 2 ^ (1024 : ℤ) := by
          rw [← zpow_natCast, ← zpow_add₀ (by norm_num)]
          norm_num

/-- Neither of the two ways in which a decimal is far out of the range applies. -/
theorem exponent_bounds {n : ℕ} (hn : 0 < n) {e : ℤ} (hlow : (2 : ℚ) ^ (-1075 : ℤ) ≤ n * 10 ^ e)
    (hhigh : (n : ℚ) * 10 ^ e < 2 ^ (1024 : ℤ)) : -(2 ^ 11 + (n.log2 : ℤ)) ≤ e ∧ e ≤ 2 ^ 11 := by
  have hunit : (0 : ℚ) < 10 ^ e := ten_zpow_pos e
  constructor
  · by_contra! hsmall
    have hdigits : (n : ℚ) < 2 ^ ((n.log2 : ℤ) + 1) := by
      exact_mod_cast Nat.lt_log2_self (n := n)
    have hpower : (10 : ℚ) ^ e ≤ 2 ^ e := by
      rw [← neg_neg e, zpow_neg_le_iff (by norm_num) (by norm_num)]
      exact zpow_le_zpow_left₀ (by omega) (by norm_num) (by norm_num)
    have hless : (n : ℚ) * 10 ^ e < 2 ^ (-1075 : ℤ) := calc
      (n : ℚ) * 10 ^ e < 2 ^ ((n.log2 : ℤ) + 1) * 10 ^ e := mul_lt_mul_of_pos_right hdigits hunit
      _ ≤ 2 ^ ((n.log2 : ℤ) + 1) * 2 ^ e := mul_le_mul_of_nonneg_left hpower (by positivity)
      _ = 2 ^ ((n.log2 : ℤ) + 1 + e) := (zpow_add₀ (by norm_num) _ _).symm
      _ ≤ 2 ^ (-1075 : ℤ) := zpow_le_zpow_right₀ (by norm_num) (by omega)
    exact absurd hlow (not_le.mpr hless)
  · by_contra! hlarge
    have hone : (1 : ℚ) ≤ n := by exact_mod_cast hn
    have hmore : (2 : ℚ) ^ (1024 : ℤ) ≤ n * 10 ^ e := calc
      (2 : ℚ) ^ (1024 : ℤ) ≤ 2 ^ e := zpow_le_zpow_right₀ (by norm_num) (by omega)
      _ ≤ 10 ^ e := zpow_le_zpow_left₀ (by omega) (by norm_num) (by norm_num)
      _ ≤ n * 10 ^ e := le_mul_of_one_le_left hunit.le hone
    exact absurd hhigh (not_lt.mpr hmore)

/-- A decimal of any length is read with one product or one quotient of whole numbers. -/
theorem ofScientific_model_eq {x : Dyadic} (hx : x.IsBinary) {n : ℕ} {e : ℤ} (hn : 0 < n)
    (hnear : x.IsNear (n * 10 ^ e)) :
    UnpackedFloat.ofScientific .binary64 n e = .finite .positive x.mantissa x.scale hx.pos := by
  obtain ⟨hlow, hhigh⟩ := hnear.bounds hx
  obtain ⟨hsmall, hlarge⟩ := exponent_bounds hn hlow hhigh
  rw [UnpackedFloat.ofScientific, dif_neg hn.ne', if_neg (not_lt.mpr hlarge),
    if_neg (not_lt.mpr hsmall)]
  split
  · next hsign =>
    have hten : ((10 ^ e.toNat : ℕ) : ℚ) = 10 ^ e := by
      rw [Nat.cast_pow, ← zpow_natCast, Int.toNat_of_nonneg hsign]
      norm_num
    have hvalue : ((n <<< Format.binary64.mantissaBits : ℕ) : ℚ) *
        2 ^ (-(Format.binary64.mantissaBits : ℤ)) = n := by
      rw [Nat.shiftLeft_eq]
      push_cast
      rw [mul_assoc, ← zpow_natCast, ← zpow_add₀ (by norm_num), add_neg_cancel, zpow_zero, mul_one]
    refine mul_eq hx _ _ ?_ ?_
    · rw [Nat.shiftLeft_eq]
      calc 2 ^ 52 ≤ 2 ^ Format.binary64.mantissaBits := by decide
        _ ≤ n * 2 ^ Format.binary64.mantissaBits := Nat.le_mul_of_pos_left _ hn
        _ ≤ n * 2 ^ Format.binary64.mantissaBits * 10 ^ e.toNat :=
            Nat.le_mul_of_pos_right _ (Nat.pow_pos (by norm_num))
    · rwa [hvalue, zpow_zero, mul_one, hten]
  · next hsign =>
    have hten : ((10 ^ (-e).toNat : ℕ) : ℚ) = (10 ^ e)⁻¹ := by
      rw [Nat.cast_pow, ← zpow_natCast, Int.toNat_of_nonneg (by omega), zpow_neg]
      norm_num
    refine div_eq hx _ _ ?_
    rwa [zpow_zero, mul_one, mul_one, hten, div_inv_eq_mul]

/-- Digits and a power of ten are read as the binary number that they lie near. -/
theorem ofScientific_eq {x : Dyadic} (hx : x.IsBinary) {n : ℕ} {e : ℤ} (hn : 0 < n)
    (hnear : x.IsNear (n * 10 ^ e)) :
    Float.ofScientific n (e < 0) e.natAbs =
      .ofModel (Float.Model.pack (.finite .positive x.mantissa x.scale hx.pos)) := by
  by_cases hfew : n < 2 ^ 53 ∧ e.natAbs ≤ 22
  · refine ofScientific_of_lt hx hn hfew.1 hfew.2 _ ?_
    by_cases hsign : e < 0
    · have hpower : (10 : ℚ) ^ e = (10 ^ e.natAbs)⁻¹ := by
        rw [← zpow_natCast, Int.ofNat_natAbs_of_nonpos hsign.le, zpow_neg, inv_inv]
      rw [hpower, ← div_eq_mul_inv] at hnear
      simpa [hsign] using hnear
    · have hpower : (10 : ℚ) ^ e = 10 ^ e.natAbs := by
        rw [← zpow_natCast, Int.natAbs_of_nonneg (not_lt.mp hsign)]
      rw [hpower] at hnear
      simpa [hsign] using hnear
  · have hexponent : (if decide (e < 0) = true then Int.negOfNat e.natAbs else Int.ofNat e.natAbs) =
        e := by
      by_cases hsign : e < 0
      · rw [if_pos (decide_eq_true hsign), Int.negOfNat_eq, Int.ofNat_eq_natCast,
          Int.ofNat_natAbs_of_nonpos hsign.le, neg_neg]
      · rw [if_neg (by simpa using hsign)]
        exact Int.natAbs_of_nonneg (not_lt.mp hsign)
    rw [Float.ofScientific, dif_neg hfew, hexponent]
    dsimp only
    rw [Float.Model.ofScientific, ofScientific_model_eq hx hn hnear]

/-- The test in whole numbers finds the decimals that lie near. -/
theorem readsBack_iff {x : Dyadic} (hx : x.IsBinary) (d : Decimal) :
    x.readsBack d = true ↔ x.IsNear d.value := by
  have hunit : (2 : ℚ) ^ (x.scale - 2) * 4 = 2 ^ x.scale := by
    rw [zpow_sub₀ (by norm_num)]
    norm_num
  have hlow : ((if x.narrowBelow then 4 * x.mantissa - 1 else 4 * x.mantissa - 2 : ℕ) : ℚ) *
      2 ^ (x.scale - 2) = x.lowEnd := by
    have hpos := hx.pos
    rw [lowEnd, ← hunit, gapBelow]
    split
    · rw [Nat.cast_sub (by omega)]
      push_cast
      ring
    · rw [Nat.cast_sub (by omega)]
      push_cast
      ring
  have hhigh : ((4 * x.mantissa + 2 : ℕ) : ℚ) * 2 ^ (x.scale - 2) = x.highEnd := by
    rw [highEnd, ← hunit]
    push_cast
    ring
  unfold readsBack
  dsimp only
  rw [compareScaled_eq, compareScaled_eq, hlow, hhigh, ← Decimal.value]
  split
  · next heven =>
    simp only [Bool.and_eq_true, bne_iff_ne, ne_eq, compare_lt_iff_lt, compare_gt_iff_gt, not_lt]
    exact ⟨fun h => ⟨h.1, h.2, fun _ => heven⟩, fun h => ⟨h.low, h.high⟩⟩
  · next hodd =>
    simp only [Bool.and_eq_true, beq_iff_eq, compare_lt_iff_lt, compare_gt_iff_gt]
    refine ⟨fun h => ⟨h.1.le, h.2.le, fun htie => ?_⟩, fun h => ⟨?_, ?_⟩⟩
    · exact (htie.elim h.1.ne' h.2.ne).elim
    · exact lt_of_le_of_ne h.low fun heq => hodd (h.tie (Or.inl heq.symm))
    · exact lt_of_le_of_ne h.high fun heq => hodd (h.tie (Or.inr heq))

theorem readsBack_of_withDigits {x : Dyadic} {n : ℕ} {d : Decimal}
    (h : x.withDigits n = some d) : x.readsBack d = true := by
  unfold withDigits at h
  dsimp only at h
  split at h
  · cases h
  · next hlow _ =>
    cases h
    exact hlow
  · next _ hhigh =>
    cases h
    exact hhigh
  · next hlow hhigh =>
    split at h
    · cases h
      exact hlow
    · cases h
      exact hhigh
    · obtain rfl := Option.some.inj h
      split
      · exact hlow
      · exact hhigh

theorem value_exactly (x : Dyadic) : x.exactly.value = x.value := by
  have htwo := zpow_mul_pow_toNat (b := 2) (by norm_num) x.scale
  have hten : (2 : ℚ) ^ (-x.scale).toNat * 5 ^ (-x.scale).toNat * 10 ^ (-((-x.scale).toNat : ℤ)) =
      1 := by
    rw [← mul_pow, zpow_neg, zpow_natCast, show (2 : ℚ) * 5 = 10 by norm_num]
    exact mul_inv_cancel₀ (by positivity)
  calc x.exactly.value
      = x.mantissa * 2 ^ x.scale.toNat * 5 ^ (-x.scale).toNat * 10 ^ (-((-x.scale).toNat : ℤ)) := by
        simp only [Decimal.value, exactly, Nat.pow_eq]
        push_cast
        rfl
    _ = x.value * (2 ^ (-x.scale).toNat * 5 ^ (-x.scale).toNat *
          10 ^ (-((-x.scale).toNat : ℤ))) := by
        rw [← htwo, value]
        ring
    _ = x.value := by rw [hten, mul_one]

/-- The shortest decimal lies near. -/
theorem isNear_shortest {x : Dyadic} (hx : x.IsBinary) : x.IsNear x.shortest.value := by
  rw [shortest, Decimal.value_trimmed]
  cases hfound : (List.range' 1 17).findSome? x.withDigits with
  | none =>
    rw [Option.getD_none, value_exactly]
    exact isNear_value x
  | some d =>
    obtain ⟨n, -, hn⟩ := List.exists_of_findSome?_eq_some hfound
    exact (readsBack_iff hx d).mp (readsBack_of_withDigits hn)

end Dyadic

namespace Decimal

theorem lt_ten_pow_width (n : ℕ) : n < 10 ^ width n := by
  fun_induction width n with
  | case1 => exact Nat.one_pos
  | case2 n hn ih =>
    rw [Nat.pow_succ]
    omega

theorem ten_pow_width_le {n : ℕ} (hn : 0 < n) : 10 ^ width n ≤ 10 * n := by
  fun_induction width n with
  | case1 => exact absurd hn (lt_irrefl 0)
  | case2 n _ ih =>
    rw [Nat.pow_succ]
    rcases Nat.eq_zero_or_pos (n / 10) with hzero | hpos
    · have hwidth : width (n / 10) = 0 := by rw [hzero, width, if_pos rfl]
      rw [hwidth]
      omega
    · have hle := ih hpos
      omega

/-- Written zeros do not change the number. -/
theorem value_reread (d : Decimal) : d.reread.value = d.value := by
  unfold reread
  dsimp only
  split
  · next hwritten =>
    obtain ⟨n, hn⟩ := Int.eq_ofNat_of_zero_le hwritten.2.2
    rw [value, value, hn]
    simp
  · rfl

theorem ten_zpow_width (d : Decimal) : (10 : ℚ) ^ (d.exponent + width d.digits) =
    ((10 ^ width d.digits : ℕ) : ℚ) * 10 ^ d.exponent := by
  rw [add_comm, zpow_add₀ (by norm_num), zpow_natCast]
  push_cast
  rfl

/-- What is so small that it is read as zero lies below half the least number. -/
theorem value_lt_of_exponent_lt {d : Decimal} (h : d.exponent + width d.digits < -400) :
    d.value < 2 ^ (-1075 : ℤ) := by
  have hwidth : (d.digits : ℚ) ≤ (10 ^ width d.digits : ℕ) := by
    exact_mod_cast (lt_ten_pow_width d.digits).le
  calc
    d.value ≤ 10 ^ (d.exponent + width d.digits) :=
        d.ten_zpow_width ▸ mul_le_mul_of_nonneg_right hwidth (ten_zpow_pos d.exponent).le
    _ < 10 ^ (-400 : ℤ) := zpow_lt_zpow_right₀ (by norm_num) h
    _ ≤ 2 ^ (-1075 : ℤ) := (zpow_neg_le_iff (by norm_num) (by norm_num)).mpr
        (two_zpow_le_ten_zpow (by norm_num) (by norm_num))

/-- What is so large that it is read as infinite lies above every number. -/
theorem le_value_of_lt_exponent {d : Decimal} (hdigits : 0 < d.digits)
    (h : 400 < d.exponent + width d.digits) : 2 ^ (1024 : ℤ) ≤ d.value := by
  have hwidth : ((10 ^ width d.digits : ℕ) : ℚ) ≤ 10 * d.digits := by
    exact_mod_cast ten_pow_width_le hdigits
  have hvalue : (10 : ℚ) * 10 ^ (400 : ℤ) ≤ 10 * d.value := calc
    (10 : ℚ) * 10 ^ (400 : ℤ) = 10 ^ (401 : ℤ) := (zpow_one_add₀ (by norm_num) 400).symm
    _ ≤ 10 ^ (d.exponent + width d.digits) := zpow_le_zpow_right₀ (by norm_num) h
    _ ≤ 10 * d.digits * 10 ^ d.exponent :=
        d.ten_zpow_width ▸ mul_le_mul_of_nonneg_right hwidth (ten_zpow_pos d.exponent).le
    _ = 10 * d.value := mul_assoc _ _ _
  exact (two_zpow_le_ten_zpow (by norm_num) (by norm_num)).trans
    (le_of_mul_le_mul_left hvalue (by norm_num))

/-- A decimal is read as the binary number that it lies near. -/
theorem toFloat_eq {x : Dyadic} (hx : x.IsBinary) {d : Decimal} (hnear : x.IsNear d.value) :
    d.toFloat = .ofModel (Float.Model.pack (.finite .positive x.mantissa x.scale hx.pos)) := by
  obtain ⟨hlow, hhigh⟩ := hnear.bounds hx
  have hdigits : 0 < d.digits := by
    by_contra hzero
    have hvalue : d.value = 0 := by
      rw [value, Nat.eq_zero_of_not_pos hzero, Nat.cast_zero, zero_mul]
    exact absurd (hnear.pos hx) (hvalue ▸ lt_irrefl _)
  have hsmall : ¬d.exponent + width d.digits < -400 :=
    fun hless => absurd hlow (not_le.mpr (value_lt_of_exponent_lt hless))
  have hlarge : ¬400 < d.exponent + width d.digits :=
    fun hmore => absurd hhigh (not_lt.mpr (le_value_of_lt_exponent hdigits hmore))
  rw [toFloat, if_neg (not_or.mpr ⟨hdigits.ne', hsmall⟩), if_neg hlarge]
  exact Dyadic.ofScientific_eq hx hdigits hnear

end Decimal

/-- A number is made of its bits. -/
theorem ofModel_pack_unpack (f : Float) :
    Float.ofModel (Float.Model.pack f.toModel.unpack) = f := by
  obtain ⟨bits, hvalid⟩ := f
  rw [Float.ofModel.injEq, Float.Model.mk.injEq]
  exact UInt64.toBitVec_inj.mp (pack_unpack_of_valid hvalid)

theorem isSigned_iff (f : Float) :
    isSigned f = true ↔ @unpackSign .binary64 f.toModel.toBits.toBitVec = 1#1 := by
  have hfield : (@unpackSign .binary64 f.toModel.toBits.toBitVec).toNat =
      (f.toBits >>> 63).toNat := by
    rw [unpackSign_def, BitVec.extractLsb'_toNat]
    refine Nat.mod_eq_of_lt ?_
    show f.toModel.toBits.toNat >>> 63 < 2 ^ 1
    have hbits := f.toModel.toBits.toNat_lt
    rw [Nat.shiftRight_eq_div_pow]
    omega
  rw [isSigned, beq_iff_eq, ← UInt64.toNat_inj, ← hfield, ← BitVec.toNat_inj]
  rfl

theorem isSigned_of_finite {f : Float} {sign : Sign} {m : ℕ} {e : ℤ} {hm : 0 < m}
    (hf : f.toModel.unpack = .finite sign m e hm) : isSigned f = true ↔ sign = .negative := by
  have hsign : sign = Sign.ofBitVec (@unpackSign .binary64 f.toModel.toBits.toBitVec) := by
    unfold Float.Model.unpack UnpackedFloat.unpack at hf
    dsimp only at hf
    split at hf
    · split at hf <;> cases hf
    · split at hf
      · split at hf
        · cases hf
        · exact (UnpackedFloat.finite.inj hf).1.symm
      · exact (UnpackedFloat.finite.inj hf).1.symm
  rw [isSigned_iff, hsign]
  generalize @unpackSign .binary64 f.toModel.toBits.toBitVec = bit
  rcases BitVec.eq_zero_or_eq_one bit with rfl | rfl <;> simp [Sign.ofBitVec]

theorem isFinite_eq (f : Float) : f.isFinite = f.toModel.unpack.isFinite := rfl

theorem isNaN_eq (f : Float) : f.isNaN = f.toModel.unpack.isNaN := rfl

/-- A reader that reads a decimal as the decimal reads the text of a finite number that is not zero
as the number. -/
theorem read_plainText_of_finite {read : String → Option Float}
    (hread : ∀ negative (d : Decimal), read (String.ofList (d.signedText negative)) =
      some (if negative then -d.reread.toFloat else d.reread.toFloat))
    {f : Float} {sign : Sign} {m : ℕ} {e : ℤ} {hm : 0 < m}
    (hf : f.toModel.unpack = .finite sign m e hm) : read (plainText f) = some f := by
  have hself := ofModel_pack_unpack f
  have hsign := isSigned_of_finite hf
  have hfinite : f.isFinite = true := by rw [isFinite_eq, hf]; rfl
  have hnumber : f.isNaN = false := by rw [isNaN_eq, hf]; rfl
  obtain ⟨hbinary, rfl, rfl⟩ := Dyadic.ofFloat_of_finite hf
  have hsome : ((Dyadic.ofFloat f).mantissa == 0) = false := beq_eq_false_iff_ne.mpr hm.ne'
  have hsize : (Dyadic.ofFloat f).shortest.reread.toFloat =
      .ofModel (Float.Model.pack (.finite .positive _ (Dyadic.ofFloat f).scale hm)) := by
    refine Decimal.toFloat_eq hbinary ?_
    rw [Decimal.value_reread]
    exact Dyadic.isNear_shortest hbinary
  rw [plainText, numberText, hnumber]
  simp only [hfinite, hsome, Bool.and_false, Bool.false_eq_true, if_false, if_true]
  refine (hread (isSigned f) _).trans ?_
  rw [hsize]
  congr 1
  rw [hf] at hself
  cases sign with
  | positive =>
    rw [if_neg (by simp [hsign])]
    exact hself
  | negative =>
    rw [if_pos (hsign.mpr rfl)]
    show Float.ofModel (Float.Model.pack (UnpackedFloat.neg (Float.Model.pack _).unpack)) = f
    rw [Dyadic.unpack_pack hbinary]
    exact hself

/-- What unpacks to a number that is not zero is not the zero that has a sign. -/
theorem ne_neg_zero_of_finite {f : Float} {sign : Sign} {m : ℕ} {e : ℤ} {hm : 0 < m}
    (hf : f.toModel.unpack = .finite sign m e hm) : f ≠ -0 := by
  rintro rfl
  obtain ⟨-, hmantissa, -⟩ := Dyadic.ofFloat_of_finite hf
  exact hm.ne (Eq.trans (by decide +kernel) hmantissa)

/-- The text of a finite number is read as the number, whatever its sign and its size; only the zero
that has a sign loses it. The text of any other number is not read. -/
theorem readStored_plainText (f : Float) : readStored (plainText f) =
    if f.isFinite then some (if f = -0 then 0 else f) else none := by
  cases hunpack : f.toModel.unpack with
  | notANumber | infinity sign =>
    have hinfinite : f.isFinite = false := by rw [isFinite_eq, hunpack]; rfl
    rw [hinfinite]
    exact readStored_numberText_of_not_isFinite _ hinfinite
  | zero sign =>
    have hself := ofModel_pack_unpack f
    rw [hunpack] at hself
    rw [← hself]
    cases sign <;> decide +kernel
  | finite sign m e hm =>
    have hfinite : f.isFinite = true := by rw [isFinite_eq, hunpack]; rfl
    rw [hfinite, if_pos rfl, if_neg (ne_neg_zero_of_finite hunpack)]
    exact read_plainText_of_finite readStored_signedText hunpack

/-- The text of a number in a setting is read as the number, infinite ones included; only the zero
that has a sign loses it. -/
theorem readSetting_plainText (f : Float) : readSetting (plainText f) =
    if f.isNaN then none else some (if f = -0 then 0 else f) := by
  have hself := ofModel_pack_unpack f
  cases hunpack : f.toModel.unpack with
  | notANumber =>
    rw [hunpack] at hself
    rw [← hself]
    decide +kernel
  | infinity sign | zero sign =>
    rw [hunpack] at hself
    rw [← hself]
    cases sign <;> decide +kernel
  | finite sign m e hm =>
    have hnumber : f.isNaN = false := by rw [isNaN_eq, hunpack]; rfl
    rw [hnumber, if_neg (ne_neg_zero_of_finite hunpack)]
    exact read_plainText_of_finite readSetting_signedText hunpack

end Admission
