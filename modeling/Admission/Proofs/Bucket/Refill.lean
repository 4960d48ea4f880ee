import Admission.Bucket
import Mathlib.Algebra.Order.Field.Rat
import Mathlib.Tactic.Linarith
import Mathlib.Tactic.Ring

/-!
One call on one bucket, in exact numbers.

The level of a bucket at some time is what a call finds there: the tokens left, refilled since the
last update, up to the capacity. A call is settled by the level alone, and takes one token from it
or none. A rested bucket is full from a given time on; no call from then on can tell it from one
that is made anew, which is what allows buckets to be forgotten.
-/
namespace Admission.Bucket

/-- The tokens that a call finds. -/
def level {α : Type} [Scalar α] (limit : Limit α) (b : Bucket α) (now : α) : α :=
  refilled limit b.tokens (Scalar.larger 0 (now - b.lastUpdate))

/-- From `since` on the bucket is full, and its last update no longer counts. -/
structure Rested (limit : Limit ℚ) (b : Bucket ℚ) (since : ℚ) : Prop where
  lastUpdate_le : b.lastUpdate ≤ since
  level_eq : ∀ now, since ≤ now → b.level limit now = limit.capacity

variable {limit : Limit ℚ} {b : Bucket ℚ}

theorem level_eq_min (limit : Limit ℚ) (b : Bucket ℚ) (now : ℚ) :
    b.level limit now =
      min limit.capacity (b.tokens + max 0 (now - b.lastUpdate) / 1000 * limit.rate) := rfl

/-- What is refilled is what the last update moves on. -/
theorem level_eq_moved (limit : Limit ℚ) (b : Bucket ℚ) (now : ℚ) :
    b.level limit now = min limit.capacity
      (b.tokens + limit.rate * (max b.lastUpdate now - b.lastUpdate) / 1000) := by
  have hmoved : max 0 (now - b.lastUpdate) = max b.lastUpdate now - b.lastUpdate := by
    rcases le_total b.lastUpdate now with h | h
    · rw [max_eq_right h, max_eq_right (sub_nonneg.mpr h)]
    · rw [max_eq_left h, max_eq_left (sub_nonpos.mpr h), sub_self]
  rw [level_eq_min, hmoved, div_mul_eq_mul_div, mul_comm]

theorem take_eq (limit : Limit ℚ) (b : Bucket ℚ) (now : ℚ) :
    b.take limit now =
      if 1 ≤ b.level limit now then (true, ⟨b.level limit now - 1, max b.lastUpdate now⟩)
      else (false, ⟨b.level limit now, max b.lastUpdate now⟩) := rfl

theorem take_allowed_iff (limit : Limit ℚ) (b : Bucket ℚ) (now : ℚ) :
    (b.take limit now).1 = true ↔ 1 ≤ b.level limit now := by
  rw [take_eq]
  split <;> simp_all

theorem take_denied_iff (limit : Limit ℚ) (b : Bucket ℚ) (now : ℚ) :
    (b.take limit now).1 = false ↔ b.level limit now < 1 := by
  rw [← Bool.not_eq_true, take_allowed_iff, not_le]

/-- A call takes one token from the level, or none. -/
theorem take_tokens (limit : Limit ℚ) (b : Bucket ℚ) (now : ℚ) :
    (b.take limit now).2.tokens = b.level limit now - ((b.take limit now).1.toNat : ℚ) := by
  rw [take_eq]
  split <;> simp

@[simp] theorem take_lastUpdate (limit : Limit ℚ) (b : Bucket ℚ) (now : ℚ) :
    (b.take limit now).2.lastUpdate = max b.lastUpdate now := by
  rw [take_eq]
  split <;> rfl

theorem le_take_lastUpdate (limit : Limit ℚ) (b : Bucket ℚ) (now : ℚ) :
    now ≤ (b.take limit now).2.lastUpdate := by
  rw [take_lastUpdate]
  exact le_max_right _ _

theorem level_le_capacity (limit : Limit ℚ) (b : Bucket ℚ) (now : ℚ) :
    b.level limit now ≤ limit.capacity := min_le_left _ _

/-- The level is at most what the time since `since` refills, however late the last update is. -/
theorem level_le_of_le_lastUpdate (hrate : 0 ≤ limit.rate) {since now : ℚ}
    (hlast : since ≤ b.lastUpdate) (hnow : since ≤ now) :
    b.level limit now ≤ max 0 b.tokens + limit.rate * (now - since) / 1000 := by
  have helapsed : max 0 (now - b.lastUpdate) ≤ now - since :=
    max_le (sub_nonneg.mpr hnow) (by linarith)
  have hrefill : max 0 (now - b.lastUpdate) / 1000 * limit.rate ≤
      (now - since) / 1000 * limit.rate := by
    apply mul_le_mul_of_nonneg_right _ hrate
    exact div_le_div_of_nonneg_right helapsed (by norm_num)
  have htokens := le_max_right 0 b.tokens
  calc b.level limit now
      ≤ b.tokens + max 0 (now - b.lastUpdate) / 1000 * limit.rate := min_le_right _ _
    _ ≤ max 0 b.tokens + (now - since) / 1000 * limit.rate := add_le_add htokens hrefill
    _ = max 0 b.tokens + limit.rate * (now - since) / 1000 := by ring

/-- What a call takes and what it leaves is not more than it found. -/
theorem toNat_add_tokens_le (limit : Limit ℚ) (b : Bucket ℚ) (now : ℚ) :
    ((b.take limit now).1.toNat : ℚ) + max 0 (b.take limit now).2.tokens ≤
      max 0 (b.level limit now) := by
  rw [take_tokens]
  cases hallowed : (b.take limit now).1 with
  | false => simp
  | true =>
    have hone := (take_allowed_iff limit b now).mp hallowed
    rw [max_eq_right (by simpa using hone), max_eq_right (zero_le_one.trans hone)]
    simp

/-- At its own time a bucket gives up a token if it has one. -/
theorem take_of_one_le {now : ℚ} (hlast : b.lastUpdate = now) (hone : 1 ≤ b.tokens)
    (hfull : b.tokens ≤ limit.capacity) : b.take limit now = (true, ⟨b.tokens - 1, now⟩) := by
  have hlevel : b.level limit now = b.tokens := by
    simp [level_eq_min, hlast, hfull]
  rw [take_eq, hlevel, if_pos hone, hlast, max_self]

theorem refill_nonneg (hrate : 0 ≤ limit.rate) {since now : ℚ} (hnow : since ≤ now) :
    0 ≤ limit.rate * (now - since) / 1000 :=
  div_nonneg (mul_nonneg hrate (sub_nonneg.mpr hnow)) (by norm_num)

theorem level_full (limit : Limit ℚ) (now : ℚ) :
    (full limit now).level limit now = limit.capacity := by
  simp [level_eq_min, full]

theorem level_nonneg (hrate : 0 ≤ limit.rate) (hcapacity : 0 ≤ limit.capacity)
    (htokens : 0 ≤ b.tokens) (now : ℚ) : 0 ≤ b.level limit now := by
  have helapsed : 0 ≤ max 0 (now - b.lastUpdate) / 1000 * limit.rate :=
    mul_nonneg (div_nonneg (le_max_left _ _) (by norm_num)) hrate
  rw [level_eq_min]
  exact le_min hcapacity (by linarith)

theorem take_tokens_nonneg (hrate : 0 ≤ limit.rate) (hcapacity : 0 ≤ limit.capacity)
    (htokens : 0 ≤ b.tokens) (now : ℚ) : 0 ≤ (b.take limit now).2.tokens := by
  have hlevel := level_nonneg hrate hcapacity htokens now
  rw [take_tokens]
  cases hallowed : (b.take limit now).1 with
  | false => simpa using hlevel
  | true =>
    have hone := (take_allowed_iff limit b now).mp hallowed
    simpa using hone

/-- A call leaves no more than it finds. -/
theorem take_tokens_le (limit : Limit ℚ) (b : Bucket ℚ) (now : ℚ) :
    (b.take limit now).2.tokens ≤ limit.capacity := by
  have htaken : (0 : ℚ) ≤ (b.take limit now).1.toNat := Nat.cast_nonneg _
  have hlevel := level_le_capacity limit b now
  rw [take_tokens]
  linarith

theorem full_tokens_nonneg (hcapacity : 0 ≤ limit.capacity) (now : ℚ) :
    0 ≤ (full limit now).tokens := hcapacity

/-- Enough time to fill the bucket from empty makes it rested. -/
theorem rested_of_refillTime (hrate : 0 < limit.rate) (htokens : 0 ≤ b.tokens) {since : ℚ}
    (hlast : b.lastUpdate ≤ since)
    (htime : limit.capacity ≤ (since - b.lastUpdate) / 1000 * limit.rate) :
    Rested limit b since where
  lastUpdate_le := hlast
  level_eq := by
    intro now hnow
    have helapsed : (since - b.lastUpdate) / 1000 * limit.rate ≤
        max 0 (now - b.lastUpdate) / 1000 * limit.rate := by
      apply mul_le_mul_of_nonneg_right _ hrate.le
      apply div_le_div_of_nonneg_right _ (by norm_num)
      exact le_max_of_le_right (by linarith)
    rw [level_eq_min]
    exact min_eq_left (by linarith)

/-- No call can tell a rested bucket from one that is made at its own time. -/
theorem Rested.take_eq_full {since : ℚ} (h : Rested limit b since) {now : ℚ} (hnow : since ≤ now) :
    b.take limit now = (full limit now).take limit now := by
  have hlast : max b.lastUpdate now = now := max_eq_right (h.lastUpdate_le.trans hnow)
  have hfull : max (full limit now).lastUpdate now = now := max_self now
  rw [take_eq, take_eq, h.level_eq now hnow, level_full, hlast, hfull]

end Admission.Bucket
