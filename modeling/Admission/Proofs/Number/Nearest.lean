import Admission.Proofs.Number.Stored
import Mathlib

/-!
The nearest binary number.

The arithmetic of binary numbers keeps a mantissa and says of the part of a number below it only
whether there is one and how it compares with a half. Shifting the mantissa keeps what is said true,
and it is enough to find the nearest whole number. So whatever lies nearer to a binary number than
the midpoints to its neighbours is rounded to it, and a midpoint goes to the neighbour whose
mantissa is even. Products, quotients and decimals are rounded in this way.
-/
namespace Admission

open Float.Model Float.Model.UnpackedFloat

/-- What an accuracy says of the part of a number that a mantissa leaves out. -/
def IsRest : Accuracy → ℚ → Prop
  | .exact, rest => rest = 0
  | .inexact .lt, rest => 0 < rest ∧ rest < 1 / 2
  | .inexact .eq, rest => rest = 1 / 2
  | .inexact .gt, rest => 1 / 2 < rest ∧ rest < 1

theorem IsRest.bounds {a : Accuracy} {rest : ℚ} (h : IsRest a rest) : 0 ≤ rest ∧ rest < 1 := by
  rcases a with _ | _ | _ | _ <;> simp only [IsRest] at h <;> constructor <;> linarith

/-- An extended mantissa says of a number what its bits say of the rest. -/
def Extends (em : ExtendedMantissa) (v : ℚ) : Prop := IsRest em.accuracy (v - em.mantissa)

/-- A whole number is nearest to a number, and even if it is only as near as another one. -/
structure IsNearest (v : ℚ) (n : ℕ) : Prop where
  near : |v - n| ≤ 1 / 2
  tie : |v - n| = 1 / 2 → n % 2 = 0

theorem IsNearest.eq {v : ℚ} {m n : ℕ} (hm : IsNearest v m) (hn : IsNearest v n) : m = n := by
  obtain ⟨hmlow, hmhigh⟩ := abs_le.mp hm.near
  obtain ⟨hnlow, hnhigh⟩ := abs_le.mp hn.near
  wlog hle : m ≤ n generalizing m n
  · exact (this hn hm hnlow hnhigh hmlow hmhigh (Nat.le_of_not_le hle)).symm
  by_contra hne
  -- Two of them are one apart, and the number is midway.
  have hstep : m + 1 ≤ n := by omega
  have hcast : (m : ℚ) + 1 ≤ n := by exact_mod_cast hstep
  have hmid : v = m + 1 / 2 := by linarith
  have hnext : (n : ℚ) = m + 1 := by linarith
  have heven := hm.tie (by rw [hmid, add_sub_cancel_left, abs_of_pos (by norm_num)])
  have heven' := hn.tie (by
    rw [hmid, hnext, show (m : ℚ) + 1 / 2 - (m + 1) = -(1 / 2) by ring, abs_neg,
      abs_of_pos (by norm_num)])
  have hsucc : n = m + 1 := by exact_mod_cast hnext
  omega

namespace Extends

variable {em : ExtendedMantissa} {v : ℚ}

theorem of_isRest {m : ℕ} {a : Accuracy} (h : IsRest a (v - m)) :
    Extends (.ofMantissaAndAccuracy m a) v := by
  rcases a with _ | _ | _ | _ <;> exact h

theorem shiftRightOne (h : Extends em v) : Extends em.shiftRightOne (v / 2) := by
  obtain ⟨m, roundBit, stickyBit⟩ := em
  have hhalf : (m : ℚ) = 2 * (m / 2 : ℕ) + (m % 2 : ℕ) := by
    exact_mod_cast (Nat.div_add_mod m 2).symm
  unfold Extends at h ⊢
  simp only [ExtendedMantissa.shiftRightOne] at h ⊢
  generalize m / 2 = half at hhalf ⊢
  rcases Nat.mod_two_eq_zero_or_one m with hodd | hodd <;>
    rw [hodd] at hhalf ⊢ <;> push_cast at hhalf <;>
    cases roundBit <;> cases stickyBit <;>
    simp only [ExtendedMantissa.accuracy, IsRest, Bool.or_false, Bool.or_true, bne_self_eq_false,
      Nat.reduceBNe] at h ⊢ <;>
    first | linarith | constructor <;> linarith

theorem shiftRight (h : Extends em v) (n : ℕ) : Extends (em >>> n) (v / 2 ^ n) := by
  induction n with
  | zero =>
    rw [pow_zero, div_one]
    exact h
  | succ n ih =>
    rw [pow_succ, ← div_div]
    exact ih.shiftRightOne

/-- Rounding gives the nearest whole number. -/
theorem isNearest (h : Extends em v) : IsNearest v em.roundedMantissa := by
  obtain ⟨m, roundBit, stickyBit⟩ := em
  unfold Extends at h
  cases roundBit <;> cases stickyBit <;>
    simp only [ExtendedMantissa.accuracy, IsRest, ExtendedMantissa.roundedMantissa,
      Accuracy.roundToNearestEven] at h ⊢
  · exact ⟨by rw [h]; norm_num, by rw [h]; norm_num⟩
  · rw [← abs_of_pos h.1] at h
    exact ⟨h.2.le, fun htie => absurd htie h.2.ne⟩
  · -- Midway the parity of the mantissa decides.
    have heven : (m + m % 2) % 2 = 0 := by omega
    refine ⟨?_, fun _ => heven⟩
    have hbit : ((m % 2 : ℕ) : ℚ) = 0 ∨ ((m % 2 : ℕ) : ℚ) = 1 := by
      rcases Nat.mod_two_eq_zero_or_one m with hodd | hodd <;> rw [hodd] <;> norm_num
    push_cast at hbit ⊢
    rw [abs_le]
    rcases hbit with hbit | hbit <;> rw [hbit] <;> constructor <;> linarith
  · have hnear : |v - ((m + 1 : ℕ) : ℚ)| < 1 / 2 := by
      push_cast
      rw [abs_lt]
      constructor <;> linarith
    exact ⟨hnear.le, fun htie => absurd htie hnear.ne⟩

end Extends

/-- The scale that the format gives a number with this mantissa and scale. -/
def scaleFor (m : ℕ) (e : ℤ) : ℤ := max (m.log2 + e - 52) (-1074)

theorem targetExponent_eq (m : ℕ) (e : ℤ) :
    Format.binary64.targetExponent (totalExponent m e) = scaleFor m e := by
  simp only [Format.targetExponent, totalExponent, Format.mantissaBits, Format.minExponent,
    scaleFor]
  omega

/-- What is left of a number where the format has no finer scale. -/
theorem exists_shiftToTargetExponent {m : ℕ} {e : ℤ} {a : Accuracy} {v : ℚ}
    (hrest : IsRest a (v - m)) (hfine : e ≤ scaleFor m e) :
    ∃ em, shiftToTargetExponent .binary64 m e a = (em, scaleFor m e) ∧
      Extends em (v * 2 ^ e / 2 ^ scaleFor m e) := by
  obtain ⟨n, hn⟩ := Int.le.dest hfine
  have hshift : (scaleFor m e - e).toNat = n := by omega
  refine ⟨ExtendedMantissa.ofMantissaAndAccuracy m a >>> n, ?_, ?_⟩
  · simp only [shiftToTargetExponent, targetExponent_eq, shiftToExponent, hshift, hn]
  · have hvalue : v * 2 ^ e / 2 ^ scaleFor m e = v / 2 ^ n := by
      rw [← hn, zpow_add₀ (by norm_num), zpow_natCast, mul_comm v,
        mul_div_mul_left _ _ (zpow_ne_zero e (by norm_num))]
    rw [hvalue]
    exact (Extends.of_isRest hrest).shiftRight n

/-- That scale depends on the number alone, if it is as fine as the scale at hand. -/
theorem scaleFor_eq_log {m : ℕ} {e : ℤ} {a : Accuracy} {v : ℚ} (hrest : IsRest a (v - m))
    (hfine : e ≤ scaleFor m e) (hpositive : 0 < v * 2 ^ e) :
    scaleFor m e = max (Int.log 2 (v * 2 ^ e) - 52) (-1074) := by
  obtain ⟨hlow, hhigh⟩ := hrest.bounds
  have hunit : (0 : ℚ) < 2 ^ e := zpow_pos (by norm_num) _
  have hlog : ∀ p : ℤ, v * 2 ^ e < 2 ^ p ↔ Int.log 2 (v * 2 ^ e) < p := fun p => by
    exact_mod_cast (Int.lt_zpow_iff_log_lt (b := 2) (by norm_num) hpositive)
  rcases Nat.eq_zero_or_pos m with hzero | hm
  · -- There is nothing but a rest, which only the least scale keeps.
    rw [hzero, Nat.cast_zero] at hhigh
    have hless : v * 2 ^ e < 2 ^ e := mul_lt_of_lt_one_left hunit (by linarith)
    have hbelow := (hlog e).mp hless
    rw [scaleFor, hzero, Nat.log2_zero] at hfine ⊢
    omega
  · have hleast : ((2 ^ m.log2 : ℕ) : ℚ) ≤ v := by
      have hself : ((2 ^ m.log2 : ℕ) : ℚ) ≤ m := by exact_mod_cast Nat.log2_self_le hm.ne'
      linarith
    have hmost : v < ((2 ^ (m.log2 + 1) : ℕ) : ℚ) := by
      have hself : (m : ℚ) + 1 ≤ (2 ^ (m.log2 + 1) : ℕ) := by
        exact_mod_cast Nat.lt_log2_self (n := m)
      linarith
    have hle : (m.log2 : ℤ) + e ≤ Int.log 2 (v * 2 ^ e) := by
      rw [← not_lt, ← hlog, not_lt, zpow_add₀ (by norm_num), zpow_natCast]
      exact mul_le_mul_of_nonneg_right (by exact_mod_cast hleast) hunit.le
    have hlt : Int.log 2 (v * 2 ^ e) < ((m.log2 + 1 : ℕ) : ℤ) + e := by
      rw [← hlog, zpow_add₀ (by norm_num), zpow_natCast]
      exact mul_lt_mul_of_pos_right (by exact_mod_cast hmost) hunit
    rw [scaleFor]
    omega

/-- A mantissa that fits stays as it is. -/
theorem shiftToTargetExponent_of_lt {m : ℕ} {e : ℤ} (hm : m < 2 ^ 53) (he : -1074 ≤ e) :
    shiftToTargetExponent .binary64 m e .exact = (⟨m, false, false⟩, e) := by
  have hlog : m.log2 ≤ 52 := by
    by_cases hzero : m = 0
    · simp [hzero]
    · exact Nat.le_of_lt_succ ((Nat.log2_lt hzero).mpr hm)
  have hshift : (scaleFor m e - e).toNat = 0 := by
    unfold scaleFor
    omega
  simp only [shiftToTargetExponent, targetExponent_eq, shiftToExponent, hshift]
  show ((⟨m, false, false⟩ : ExtendedMantissa), e + 0) = _
  rw [add_zero]

/-- A mantissa that was rounded up to the next power of two loses a bit. -/
theorem shiftToTargetExponent_of_full {e : ℤ} (he : -1074 ≤ e) :
    shiftToTargetExponent .binary64 (2 ^ 53) e .exact = (⟨2 ^ 52, false, false⟩, e + 1) := by
  have hshift : (scaleFor (2 ^ 53) e - e).toNat = 1 := by
    rw [scaleFor, Nat.log2_two_pow]
    omega
  simp only [shiftToTargetExponent, targetExponent_eq, shiftToExponent, hshift]
  rfl

namespace Dyadic

/-- A positive number as the format of the binary numbers has it: no scale is finer, and the
mantissa uses all its bits unless no scale is finer than its own. -/
structure IsBinary (x : Dyadic) : Prop where
  pos : 0 < x.mantissa
  lt : x.mantissa < 2 ^ 53
  low : -1074 ≤ x.scale
  high : x.scale ≤ 971
  full : -1074 < x.scale → 2 ^ 52 ≤ x.mantissa
  narrow : x.narrowBelow = true ↔ x.mantissa = 2 ^ 52 ∧ -1074 < x.scale

/-- How far the midpoint to the neighbour below is, in units of the scale. -/
def gapBelow (x : Dyadic) : ℚ := if x.narrowBelow then 1 / 4 else 1 / 2

/-- The midpoint to the neighbour below. -/
def lowEnd (x : Dyadic) : ℚ := (x.mantissa - x.gapBelow) * 2 ^ x.scale

/-- The midpoint to the neighbour above. -/
def highEnd (x : Dyadic) : ℚ := (x.mantissa + 1 / 2) * 2 ^ x.scale

/-- No other number of the format is nearer; one that is as near has an odd mantissa. -/
structure IsNear (x : Dyadic) (q : ℚ) : Prop where
  low : x.lowEnd ≤ q
  high : q ≤ x.highEnd
  tie : q = x.lowEnd ∨ q = x.highEnd → x.mantissa % 2 = 0

variable {x : Dyadic} {q : ℚ}

theorem gapBelow_bounds (x : Dyadic) : 0 < x.gapBelow ∧ x.gapBelow ≤ 1 / 2 := by
  unfold gapBelow
  split <;> norm_num

theorem isNear_value (x : Dyadic) : x.IsNear x.value := by
  have hunit : (0 : ℚ) < 2 ^ x.scale := zpow_pos (by norm_num) _
  have hlow : x.lowEnd < x.value := mul_lt_mul_of_pos_right (by linarith [x.gapBelow_bounds]) hunit
  have hhigh : x.value < x.highEnd := mul_lt_mul_of_pos_right (by linarith) hunit
  exact ⟨hlow.le, hhigh.le, fun htie => (htie.elim hlow.ne' hhigh.ne).elim⟩

/-- Everything near lies below the power of two that no mantissa reaches. -/
theorem IsNear.lt_full (hx : x.IsBinary) (h : x.IsNear q) : q < 2 ^ 53 * 2 ^ x.scale := by
  have hunit : (0 : ℚ) < 2 ^ x.scale := zpow_pos (by norm_num) _
  by_cases htop : x.mantissa = 2 ^ 53 - 1
  · have hne : q ≠ x.highEnd := by
      intro heq
      have heven := h.tie (Or.inr heq)
      rw [htop] at heven
      exact absurd heven (by decide)
    refine (lt_of_le_of_ne h.high hne).trans ?_
    rw [highEnd, htop]
    exact mul_lt_mul_of_pos_right (by norm_num) hunit
  · have hbelow : x.mantissa + 2 ≤ 2 ^ 53 := by
      have hlt := hx.lt
      omega
    have hcast : (x.mantissa : ℚ) + 2 ≤ 2 ^ 53 := by exact_mod_cast hbelow
    exact h.high.trans_lt (mul_lt_mul_of_pos_right (by linarith) hunit)

/-- Everything near lies above half the least mantissa that uses all its bits. -/
theorem IsNear.half_lt (h : x.IsNear q) (hfull : 2 ^ 52 ≤ x.mantissa) :
    (2 : ℚ) ^ 51 * 2 ^ x.scale < q := by
  have hunit : (0 : ℚ) < 2 ^ x.scale := zpow_pos (by norm_num) _
  have hcast : (2 : ℚ) ^ 52 ≤ x.mantissa := by exact_mod_cast hfull
  exact (mul_lt_mul_of_pos_right (by linarith [x.gapBelow_bounds]) hunit).trans_le h.low

theorem IsNear.pos (hx : x.IsBinary) (h : x.IsNear q) : 0 < q := by
  have hunit : (0 : ℚ) < 2 ^ x.scale := zpow_pos (by norm_num) _
  have hcast : (1 : ℚ) ≤ x.mantissa := by exact_mod_cast hx.pos
  exact (mul_pos (by linarith [x.gapBelow_bounds]) hunit).trans_le h.low

/-- In units of its scale, a number that lies near is nearest to the mantissa, unless it lies below
a power of two. -/
theorem IsNear.isNearest (hx : x.IsBinary) (h : x.IsNear q)
    (habove : x.narrowBelow = true → 2 ^ 52 * 2 ^ x.scale ≤ q) :
    IsNearest (q / 2 ^ x.scale) x.mantissa := by
  have hunit : (0 : ℚ) < 2 ^ x.scale := zpow_pos (by norm_num) _
  have hhigh : q / 2 ^ x.scale ≤ x.mantissa + 1 / 2 := (div_le_iff₀ hunit).mpr h.high
  cases hnarrow : x.narrowBelow with
  | true =>
    have hpower := (hx.narrow.mp hnarrow).1
    have hlow : (x.mantissa : ℚ) ≤ q / 2 ^ x.scale := by
      rw [le_div_iff₀ hunit, hpower]
      exact_mod_cast habove hnarrow
    refine ⟨?_, fun _ => by rw [hpower]; rfl⟩
    rw [abs_le]
    constructor <;> linarith
  | false =>
    have hend : x.lowEnd = (x.mantissa - 1 / 2) * 2 ^ x.scale := by
      rw [lowEnd, gapBelow, hnarrow]
      rfl
    have hlow : (x.mantissa : ℚ) - 1 / 2 ≤ q / 2 ^ x.scale :=
      (le_div_iff₀ hunit).mpr (hend ▸ h.low)
    refine ⟨?_, fun htie => h.tie ?_⟩
    · rw [abs_le]
      constructor <;> linarith
    · rcases (abs_eq (by norm_num)).mp htie with hup | hdown
      · right
        rw [highEnd, ← div_eq_iff hunit.ne']
        linarith
      · left
        rw [hend, ← div_eq_iff hunit.ne']
        linarith

/-- What lies near a power of two, but below it, is rounded up to it. -/
theorem IsNear.isNearest_below (hx : x.IsBinary) (h : x.IsNear q) (hnarrow : x.narrowBelow = true)
    (hbelow : q < 2 ^ 52 * 2 ^ x.scale) : IsNearest (q / 2 ^ (x.scale - 1)) (2 ^ 53) := by
  have hunit : (0 : ℚ) < 2 ^ (x.scale - 1) := zpow_pos (by norm_num) _
  have hdouble : (2 : ℚ) ^ x.scale = 2 * 2 ^ (x.scale - 1) := by
    rw [← zpow_one_add₀ (by norm_num)]
    congr 1
    ring
  have hmantissa : (x.mantissa : ℚ) = 2 ^ 52 := by exact_mod_cast (hx.narrow.mp hnarrow).1
  have hlow : (2 : ℚ) ^ 53 - 1 / 2 ≤ q / 2 ^ (x.scale - 1) := by
    rw [le_div_iff₀ hunit]
    refine le_trans (le_of_eq ?_) h.low
    rw [lowEnd, gapBelow, if_pos hnarrow, hmantissa, hdouble]
    ring
  have hhigh : q / 2 ^ (x.scale - 1) < 2 ^ 53 := by
    rw [div_lt_iff₀ hunit]
    refine hbelow.trans_eq ?_
    rw [hdouble]
    ring
  refine ⟨?_, fun _ => by norm_num⟩
  push_cast
  rw [abs_le]
  constructor <;> linarith

/-- A scale that is fine enough for a number near, as its place tells it: it is the scale of the
binary number, or one less below a power of two. -/
theorem IsNear.scale_eq (hx : x.IsBinary) (h : x.IsNear q) {p : ℤ} (hlow : (2 : ℚ) ^ p ≤ q)
    (hhigh : q < 2 ^ (p + 1)) :
    max (p - 52) (-1074) = x.scale ∧ (x.narrowBelow = true → 2 ^ 52 * 2 ^ x.scale ≤ q) ∨
      max (p - 52) (-1074) = x.scale - 1 ∧ x.narrowBelow = true ∧ q < 2 ^ 52 * 2 ^ x.scale := by
  have hpower : ∀ n : ℕ, (2 : ℚ) ^ n * 2 ^ x.scale = 2 ^ (n + x.scale) := by
    intro n
    rw [zpow_add₀ (by norm_num), zpow_natCast]
  have hbelow : p < 53 + x.scale := by
    rw [← zpow_lt_zpow_iff_right₀ (by norm_num : (1 : ℚ) < 2)]
    have hfull := h.lt_full hx
    rw [hpower] at hfull
    exact hlow.trans_lt hfull
  by_cases hleast : -1074 < x.scale
  · have hfull := hx.full hleast
    have habove : 51 + x.scale < p + 1 := by
      rw [← zpow_lt_zpow_iff_right₀ (by norm_num : (1 : ℚ) < 2)]
      have hhalf := h.half_lt hfull
      rw [hpower] at hhalf
      exact hhalf.trans hhigh
    by_cases hreach : p = 52 + x.scale
    · refine Or.inl ⟨by omega, fun _ => ?_⟩
      rw [hpower]
      exact hreach ▸ hlow
    · have hless : q < 2 ^ 52 * 2 ^ x.scale := by
        rw [hpower]
        refine hhigh.trans_le (zpow_le_zpow_right₀ (by norm_num) ?_)
        push_cast
        omega
      refine Or.inr ⟨by omega, hx.narrow.mpr ⟨?_, hleast⟩, hless⟩
      -- A larger mantissa has its lower end above the power of two.
      by_contra hne
      have hcast : (2 : ℚ) ^ 52 + 1 ≤ x.mantissa := by
        have hsucc : 2 ^ 52 + 1 ≤ x.mantissa := by omega
        exact_mod_cast hsucc
      have hunit : (0 : ℚ) < 2 ^ x.scale := zpow_pos (by norm_num) _
      refine absurd (h.low.trans_lt hless) (not_lt.mpr ?_)
      exact mul_le_mul_of_nonneg_right (by linarith [x.gapBelow_bounds]) hunit.le
  · refine Or.inl ⟨?_, fun hnarrow => absurd (hx.narrow.mp hnarrow).2 hleast⟩
    have hbound := hx.low
    omega

/-- What lies near a binary number is rounded to it. -/
theorem roundWithAccuracy_eq (hx : x.IsBinary) (sign : Sign) {m : ℕ} {e : ℤ} {a : Accuracy}
    {v : ℚ} (hrest : IsRest a (v - m)) (hfine : e ≤ scaleFor m e) (hnear : x.IsNear (v * 2 ^ e)) :
    roundWithAccuracy .binary64 sign m e a = .finite sign x.mantissa x.scale hx.pos := by
  obtain ⟨em, hshift, hextends⟩ := exists_shiftToTargetExponent hrest hfine
  have hrounded := hextends.isNearest
  have hpositive := hnear.pos hx
  have hlow : (2 : ℚ) ^ Int.log 2 (v * 2 ^ e) ≤ v * 2 ^ e := by
    exact_mod_cast Int.zpow_log_le_self (b := 2) (by norm_num) hpositive
  have hhigh : v * 2 ^ e < (2 : ℚ) ^ (Int.log 2 (v * 2 ^ e) + 1) := by
    exact_mod_cast Int.lt_zpow_succ_log_self (b := 2) (by norm_num) (v * 2 ^ e)
  have hscale := hnear.scale_eq hx hlow hhigh
  rw [← scaleFor_eq_log hrest hfine hpositive] at hscale
  unfold roundWithAccuracy
  rw [hshift]
  rcases hscale with ⟨hscale, habove⟩ | ⟨hscale, hnarrow, hbelow⟩
  · have hmantissa : em.roundedMantissa = x.mantissa :=
      (hscale ▸ hrounded).eq (hnear.isNearest hx habove)
    simp only [hmantissa, hscale, shiftToTargetExponent_of_lt hx.lt hx.low, hx.pos.ne', dite_false]
  · have hmantissa : em.roundedMantissa = 2 ^ 53 :=
      (hscale ▸ hrounded).eq (hnear.isNearest_below hx hnarrow hbelow)
    have hleast : -1074 ≤ x.scale - 1 := hscale ▸ le_max_right _ _
    simp only [hmantissa, hscale, shiftToTargetExponent_of_full hleast, (hx.narrow.mp hnarrow).1]
    simp

/-- A product with bits enough is rounded to what it lies near. -/
theorem mul_eq (hx : x.IsBinary) {m n : ℕ} {e f : ℤ} (hm : 0 < m) (hn : 0 < n)
    (hfull : 2 ^ 52 ≤ m * n) (hnear : x.IsNear (m * 2 ^ e * (n * 2 ^ f))) :
    UnpackedFloat.mul .binary64 (.finite .positive m e hm) (.finite .positive n f hn) =
      .finite .positive x.mantissa x.scale hx.pos := by
  have hlog : 52 ≤ (m * n).log2 := (Nat.le_log2 (Nat.mul_pos hm hn).ne').mpr hfull
  have hvalue : (m * 2 ^ e * (n * 2 ^ f) : ℚ) = (m * n : ℕ) * 2 ^ (e + f) := by
    rw [zpow_add₀ (by norm_num)]
    push_cast
    ring
  rw [hvalue] at hnear
  refine roundWithAccuracy_eq hx _ (sub_self _) ?_ hnear
  unfold scaleFor
  omega

/-- What a division leaves is told exactly. -/
theorem isRest_accuracyOfFraction (m : ℕ) {n : ℕ} (hn : 0 < n) :
    IsRest (accuracyOfFraction (m % n) n) ((m : ℚ) / n - (m / n : ℕ)) := by
  have hpositive : (0 : ℚ) < n := by exact_mod_cast hn
  have hrest : (m : ℚ) / n - (m / n : ℕ) = (m % n : ℕ) / n := by
    have hsplit : (m : ℚ) = n * (m / n : ℕ) + (m % n : ℕ) := by
      exact_mod_cast (Nat.div_add_mod m n).symm
    rw [sub_eq_iff_eq_add, div_eq_iff hpositive.ne', add_mul, div_mul_cancel₀ _ hpositive.ne']
    linarith
  have hless := Nat.mod_lt m hn
  rw [hrest]
  generalize m % n = rest at hless ⊢
  have hcast : (rest : ℚ) < n := by exact_mod_cast hless
  unfold accuracyOfFraction
  split
  · next hzero => simp [IsRest, hzero]
  · next hzero =>
    have hsome : (0 : ℚ) < rest := by exact_mod_cast Nat.pos_of_ne_zero hzero
    rcases lt_trichotomy (2 * rest) n with hcompare | hcompare | hcompare
    · have hhalf : 2 * (rest : ℚ) < n := by exact_mod_cast hcompare
      rw [Nat.compare_eq_lt.mpr hcompare]
      exact ⟨div_pos hsome hpositive, by rw [div_lt_iff₀ hpositive]; linarith⟩
    · have hhalf : 2 * (rest : ℚ) = n := by exact_mod_cast hcompare
      rw [Nat.compare_eq_eq.mpr hcompare]
      show (rest : ℚ) / n = 1 / 2
      rw [div_eq_iff hpositive.ne']
      linarith
    · have hhalf : (n : ℚ) < 2 * rest := by exact_mod_cast hcompare
      rw [Nat.compare_eq_gt.mpr hcompare]
      exact ⟨by rw [lt_div_iff₀ hpositive]; linarith, (div_lt_one hpositive).mpr hcast⟩

/-- A quotient is rounded to what it lies near. -/
theorem div_eq (hx : x.IsBinary) {m n : ℕ} {e f : ℤ} (hm : 0 < m) (hn : 0 < n)
    (hnear : x.IsNear (m * 2 ^ e / (n * 2 ^ f))) :
    UnpackedFloat.div .binary64 (.finite .positive m e hm) (.finite .positive n f hn) =
      .finite .positive x.mantissa x.scale hx.pos := by
  obtain ⟨t, ht⟩ : ∃ t, t = min (e - f)
      (Format.binary64.targetExponent (totalExponent m e - totalExponent n f)) := ⟨_, rfl⟩
  have htarget : t ≤ -1074 ∨ t ≤ m.log2 + e - (n.log2 + f) - 53 := by
    rw [ht]
    simp only [Format.targetExponent, totalExponent, Format.mantissaBits, Format.minExponent]
    omega
  obtain ⟨k, hk⟩ := Int.le.dest (ht.trans_le (min_le_left _ _))
  have hshift : (e - f - t).toNat = k := by omega
  have hvalue : (m * 2 ^ e / (n * 2 ^ f) : ℚ) = ((m <<< k : ℕ) : ℚ) / n * 2 ^ t := by
    have hpower : (2 : ℚ) ^ e / 2 ^ f = 2 ^ k * 2 ^ t := by
      rw [← zpow_sub₀ (by norm_num), ← hk, zpow_add₀ (by norm_num), zpow_natCast, mul_comm]
    rw [mul_div_mul_comm, hpower, Nat.shiftLeft_eq]
    push_cast
    ring
  rw [hvalue] at hnear
  have hfine : t ≤ scaleFor (m <<< k / n) t := by
    rcases htarget with hleast | hfull
    · exact hleast.trans (le_max_right _ _)
    · -- The quotient has bits enough, since the dividend was shifted that far.
      have hbits : 2 ^ 52 ≤ m <<< k / n := by
        rw [Nat.le_div_iff_mul_le hn, Nat.shiftLeft_eq]
        calc 2 ^ 52 * n ≤ 2 ^ 52 * 2 ^ (n.log2 + 1) :=
              Nat.mul_le_mul_left _ Nat.lt_log2_self.le
          _ = 2 ^ (n.log2 + 53) := by rw [← Nat.pow_add]; congr 1; omega
          _ ≤ 2 ^ (m.log2 + k) := Nat.pow_le_pow_right (by norm_num) (by omega)
          _ = 2 ^ m.log2 * 2 ^ k := Nat.pow_add _ _ _
          _ ≤ m * 2 ^ k := Nat.mul_le_mul_right _ (Nat.log2_self_le hm.ne')
      have hlog : 52 ≤ (m <<< k / n).log2 := (Nat.le_log2 (by omega)).mpr hbits
      refine le_trans ?_ (le_max_left _ _)
      omega
  have hround := roundWithAccuracy_eq hx .positive
    (isRest_accuracyOfFraction (m <<< k) hn) hfine hnear
  simp only [UnpackedFloat.div, divCore, ← ht, hshift]
  exact hround

/-! The bits of a number -/

theorem toNat_unpackExponent (b : UInt64) :
    (@unpackExponent .binary64 b.toBitVec).toNat = ((b >>> 52) &&& 0x7FF).toNat := by
  rw [unpackExponent_def, BitVec.extractLsb'_toNat, UInt64.toNat_and]
  exact (Nat.and_two_pow_sub_one_eq_mod _ 11).symm

theorem toNat_unpackMantissa (b : UInt64) :
    (@unpackMantissa .binary64 b.toBitVec).toNat = (b &&& 0xFFFFFFFFFFFFF).toNat := by
  rw [unpackMantissa_def, BitVec.extractLsb'_toNat, UInt64.toNat_and]
  exact (Nat.and_two_pow_sub_one_eq_mod _ 52).symm

theorem ofFloat_eq (f : Float) : ofFloat f =
    let exponent := (@unpackExponent .binary64 f.toModel.toBits.toBitVec).toNat
    let mantissa := (@unpackMantissa .binary64 f.toModel.toBits.toBitVec).toNat
    if exponent = 0 then ⟨mantissa, -1074, false⟩
    else ⟨2 ^ 52 + mantissa, exponent - 1075, mantissa = 0 ∧ 1 < exponent⟩ := by
  rw [toNat_unpackExponent, toNat_unpackMantissa]
  rfl

theorem finite_congr {sign : Sign} {m n : ℕ} {e f : ℤ} {hm : 0 < m} {hn : 0 < n} (hmn : m = n)
    (hef : e = f) : UnpackedFloat.finite sign m e hm = .finite sign n f hn := by
  subst hmn hef
  rfl

theorem toNat_one_append (fraction : BitVec 52) :
    (1#1 ++ fraction).toNat = 2 ^ 52 + fraction.toNat := by
  rw [BitVec.toNat_append]
  show 1 <<< 52 ||| _ = _
  rw [← Nat.shiftLeft_add_eq_or_of_lt fraction.isLt]
  rfl

theorem isBinary_least {m : ℕ} (hm : 0 < m) (hlt : m < 2 ^ 52) :
    (⟨m, -1074, false⟩ : Dyadic).IsBinary :=
  ⟨hm, by dsimp only; omega, le_rfl, by norm_num, fun h => absurd h (lt_irrefl _), by simp⟩

theorem isBinary_full {fraction exponent : ℕ} (hfraction : fraction < 2 ^ 52)
    (hexponent : 0 < exponent ∧ exponent < 2047) :
    (⟨2 ^ 52 + fraction, exponent - 1075, fraction = 0 ∧ 1 < exponent⟩ : Dyadic).IsBinary := by
  constructor <;> simp <;> omega

/-- The size of a finite number is what its bits hold, and has the form of a binary number. -/
theorem ofFloat_of_finite {f : Float} {sign : Sign} {m : ℕ} {e : ℤ} {hm : 0 < m}
    (hf : f.toModel.unpack = .finite sign m e hm) :
    (ofFloat f).IsBinary ∧ (ofFloat f).mantissa = m ∧ (ofFloat f).scale = e := by
  rw [ofFloat_eq]
  unfold Float.Model.unpack UnpackedFloat.unpack at hf
  dsimp only at hf ⊢
  generalize f.toModel.toBits.toBitVec = b at hf ⊢
  have hexponent : (@unpackExponent .binary64 b).toNat < 2 ^ 11 := BitVec.isLt _
  have hfraction : (@unpackMantissa .binary64 b).toNat < 2 ^ 52 := BitVec.isLt _
  split at hf
  · split at hf <;> cases hf
  · next hall =>
    have htop : (@unpackExponent .binary64 b).toNat ≠ 2 ^ 11 - 1 :=
      fun heq => hall (BitVec.eq_of_toNat_eq heq)
    split at hf
    · next hzero =>
      have hfield : (@unpackExponent .binary64 b).toNat = 0 := congrArg BitVec.toNat hzero
      rw [if_pos hfield]
      split at hf
      · cases hf
      · obtain ⟨-, rfl, rfl⟩ := UnpackedFloat.finite.inj hf
        rw [hfield]
        exact ⟨isBinary_least hm hfraction, rfl, rfl⟩
    · next hsome =>
      have hfield : (@unpackExponent .binary64 b).toNat ≠ 0 :=
        fun heq => hsome (BitVec.eq_of_toNat_eq heq)
      rw [if_neg hfield]
      obtain ⟨-, rfl, rfl⟩ := UnpackedFloat.finite.inj hf
      exact ⟨isBinary_full hfraction ⟨by omega, by omega⟩, (toNat_one_append _).symm, rfl⟩

/-- A full mantissa is found again in the fields of its number. -/
theorem unpack_packComponents_full (sign : Sign) {m biased : ℕ} (hm : 0 < m) (hlow : 2 ^ 52 ≤ m)
    (hlt : m < 2 ^ 53) (hbiased : 0 < biased ∧ biased < 2047) :
    UnpackedFloat.unpack .binary64
        (packComponents .binary64 sign (BitVec.ofNat 11 biased) (BitVec.ofNat 52 m)) =
      .finite sign m (biased - 1075) hm := by
  have hexponent : (BitVec.ofNat 11 biased).toNat = biased := Nat.mod_eq_of_lt (by omega)
  have hfraction : (BitVec.ofNat 52 m).toNat = m - 2 ^ 52 := by
    rw [BitVec.toNat_ofNat]
    omega
  have htop : BitVec.ofNat 11 biased ≠ -1#11 := by
    rw [BitVec.toNat_ne, hexponent]
    exact hbiased.2.ne
  have hzero : BitVec.ofNat 11 biased ≠ 0#11 := by
    rw [BitVec.toNat_ne, hexponent]
    exact hbiased.1.ne'
  simp only [UnpackedFloat.unpack, unpackExponent_packComponents, unpackMantissa_packComponents,
    unpackSign_packComponents, Sign.ofBitVec_toBitVec, htop, hzero, if_false]
  refine finite_congr ?_ ?_
  · rw [toNat_one_append]
    omega
  · show ((BitVec.ofNat 11 biased).toNat : ℤ) - (1023 + 52) = biased - 1075
    rw [hexponent]
    rfl

/-- A mantissa that is not full is found again in a number of the least scale. -/
theorem unpack_packComponents_least (sign : Sign) {m : ℕ} (hm : 0 < m) (hlt : m < 2 ^ 52) :
    UnpackedFloat.unpack .binary64
        (packComponents .binary64 sign 0#11 (BitVec.ofNat 52 m)) =
      .finite sign m (-1074) hm := by
  have hfraction : (BitVec.ofNat 52 m).toNat = m := Nat.mod_eq_of_lt hlt
  have hsome : BitVec.ofNat 52 m ≠ 0#52 := by
    rw [BitVec.toNat_ne, hfraction]
    exact hm.ne'
  have htop : (0#11 : BitVec 11) ≠ -1#11 := by decide
  simp only [UnpackedFloat.unpack, unpackExponent_packComponents, unpackMantissa_packComponents,
    unpackSign_packComponents, Sign.ofBitVec_toBitVec, htop, hsome, if_false, if_true, dite_false]
  exact finite_congr hfraction rfl

/-- A binary number is found again in its bits. -/
theorem unpack_pack (hx : x.IsBinary) (sign : Sign) :
    (Float.Model.pack (.finite sign x.mantissa x.scale hx.pos)).unpack =
      .finite sign x.mantissa x.scale hx.pos := by
  have hlow := hx.low
  have hhigh := hx.high
  have hlt := hx.lt
  have hfull : x.mantissa.log2 + 1 = 53 ↔ 2 ^ 52 ≤ x.mantissa := by
    have hlog := (Nat.log2_lt hx.pos.ne').mpr hlt
    rw [← Nat.le_log2 hx.pos.ne']
    omega
  obtain ⟨biased, hbiased⟩ := Int.eq_ofNat_of_zero_le (show 0 ≤ x.scale + 1023 + 52 by omega)
  have hfield : (x.scale + Format.binary64.exponentBias + (52 : ℕ)).toNat = biased := by
    show (x.scale + 1023 + 52).toNat = biased
    omega
  show UnpackedFloat.unpack .binary64 (UnpackedFloat.pack .binary64 _) = _
  rw [UnpackedFloat.pack]
  dsimp only
  rw [if_neg (by omega), hfield]
  split
  · next hbits =>
    refine (unpack_packComponents_full sign hx.pos (hfull.mp hbits) hlt (by omega)).trans ?_
    exact finite_congr rfl (by omega)
  · next hbits =>
    have hscale : x.scale = -1074 := by
      by_contra hne
      exact hbits (hfull.mpr (hx.full (by omega)))
    have hless : x.mantissa < 2 ^ 52 := by
      rw [← not_le, ← hfull]
      exact hbits
    exact (unpack_packComponents_least sign hx.pos hless).trans (finite_congr rfl hscale.symm)

end Dyadic

end Admission
