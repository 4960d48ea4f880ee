import Admission.Memory.Unchecked
import Admission.Proofs.Memory.Run
import Mathlib.Data.List.TakeWhile

/-!
A store in memory that is handed numbers.

The store that runs checks neither its options nor its times. It calculates with whatever it is
handed, and may fail at it. Handed numbers it does not fail, and does exactly what the store of
numbers does: every calculation on values that hold numbers is one on the numbers.
-/
namespace Admission

variable [Textual ℚ]

namespace Unchecked

@[simp] theorem isReadable_ofNumber (x : ℚ) : (ofNumber x).isReadable = true := rfl

@[simp] theorem toNumber_ofNumber (x : ℚ) : (ofNumber x).toNumber = x := by
  simp [toNumber, ofNumber, numeral, Value.asNumber?]

theorem map_ofNumber (f : ℚ → ℚ) (x : ℚ) : map f (ofNumber x) = ofNumber (f x) := by
  simp [map]

theorem map₂_ofNumber (f : ℚ → ℚ → ℚ) (x y : ℚ) :
    map₂ f (ofNumber x) (ofNumber y) = ofNumber (f x y) := by
  simp [map₂]

theorem ofNumber_literal (n : ℕ) :
    (@OfNat.ofNat (Unchecked ℚ) n (Scalar.literal n)) =
      ofNumber (@OfNat.ofNat ℚ n (Scalar.literal n)) := rfl

/-- Numbers are added, not joined as texts. -/
theorem ofNumber_add (x y : ℚ) : ofNumber x + ofNumber y = ofNumber (x + y) :=
  map₂_ofNumber (· + ·) x y

theorem ofNumber_sub (x y : ℚ) : ofNumber x - ofNumber y = ofNumber (x - y) :=
  map₂_ofNumber (· - ·) x y

theorem ofNumber_mul (x y : ℚ) : ofNumber x * ofNumber y = ofNumber (x * y) :=
  map₂_ofNumber (· * ·) x y

theorem ofNumber_div (x y : ℚ) : ofNumber x / ofNumber y = ofNumber (x / y) :=
  map₂_ofNumber (· / ·) x y

theorem larger_ofNumber (x y : ℚ) :
    Scalar.larger (ofNumber x) (ofNumber y) = ofNumber (Scalar.larger x y) :=
  map₂_ofNumber Scalar.larger x y

theorem smaller_ofNumber (x y : ℚ) :
    Scalar.smaller (ofNumber x) (ofNumber y) = ofNumber (Scalar.smaller x y) :=
  map₂_ofNumber Scalar.smaller x y

theorem ceiling_ofNumber (x : ℚ) :
    Scalar.ceiling (ofNumber x) = ofNumber (Scalar.ceiling x) :=
  map_ofNumber Scalar.ceiling x

theorem ofNumber_le_iff (x y : ℚ) : ofNumber x ≤ ofNumber y ↔ x ≤ y := by
  have hle : ofNumber x ≤ ofNumber y ↔ (ofNumber x).toNumber ≤ (ofNumber y).toNumber := Iff.rfl
  rw [hle, toNumber_ofNumber, toNumber_ofNumber]

theorem ofNumber_lt_iff (x y : ℚ) : ofNumber x < ofNumber y ↔ x < y := by
  have hlt : ofNumber x < ofNumber y ↔ (ofNumber x).toNumber < (ofNumber y).toNumber := Iff.rfl
  rw [hlt, toNumber_ofNumber, toNumber_ofNumber]

end Unchecked

open Unchecked

namespace Bucket

/-- The bucket as a store holds it that has not checked its numbers. -/
def unchecked (b : Bucket ℚ) : Bucket (Unchecked ℚ) :=
  ⟨.ofNumber b.tokens, .ofNumber b.lastUpdate⟩

theorem refilled_unchecked (o : MemoryOptions ℚ) (tokens elapsed : ℚ) :
    refilled o.unchecked.toLimit (ofNumber tokens) (ofNumber elapsed) =
      ofNumber (refilled o.toLimit tokens elapsed) := by
  unfold refilled
  simp only [MemoryOptions.unchecked, ofNumber_literal, ofNumber_div, ofNumber_mul, ofNumber_add,
    smaller_ofNumber]

theorem take_unchecked (o : MemoryOptions ℚ) (b : Bucket ℚ) (now : ℚ) :
    b.unchecked.take o.unchecked.toLimit (ofNumber now) =
      ((b.take o.toLimit now).1, (b.take o.toLimit now).2.unchecked) := by
  unfold take unchecked
  simp only [ofNumber_literal, ofNumber_sub, larger_ofNumber, refilled_unchecked, ofNumber_le_iff]
  split <;> rfl

end Bucket

namespace MemoryStore

/-- The store as one that has not checked its numbers. -/
def unchecked (s : MemoryStore Key ℚ) : MemoryStore Key (Unchecked ℚ) :=
  ⟨s.options.unchecked, s.buckets.map fun entry => (entry.1, entry.2.unchecked)⟩

omit [Textual ℚ] in
theorem bucketFor_unchecked (s : MemoryStore Key ℚ) (key : Key) (now : ℚ) :
    s.unchecked.bucketFor key (ofNumber now) = (s.bucketFor key now).unchecked := by
  unfold bucketFor find? unchecked
  rw [lookup_map_snd]
  cases s.buckets.lookup key <;> rfl

theorem overflow_unchecked (limit : ℚ) (buckets : List (Key × Bucket ℚ)) :
    overflow (ofNumber limit) (buckets.map fun entry => (entry.1, entry.2.unchecked)) =
      ((overflow limit buckets).1,
        (overflow limit buckets).2.map fun entry => (entry.1, entry.2.unchecked)) := by
  induction buckets with
  | nil => rfl
  | cons entry buckets ih =>
    have hcount : (Scalar.count (buckets.length + 1) : Unchecked ℚ) ≤ ofNumber limit ↔
        (Scalar.count (buckets.length + 1) : ℚ) ≤ limit := ofNumber_le_iff _ _
    simp only [List.map_cons, overflow, List.length_map, ih]
    by_cases hfits : (Scalar.count (buckets.length + 1) : ℚ) ≤ limit
    · rw [if_pos hfits, if_pos (hcount.mpr hfits), List.map_cons]
    · rw [if_neg hfits, if_neg fun h => hfits (hcount.mp h)]

theorem evict_unchecked (options : MemoryOptions ℚ) (buckets : List (Key × Bucket ℚ)) :
    evict options.unchecked (buckets.map fun entry => (entry.1, entry.2.unchecked)) =
      ((evict options buckets).1,
        (evict options buckets).2.map fun entry => (entry.1, entry.2.unchecked)) := by
  have hbound : options.unchecked.maxBuckets.getD 0 = ofNumber (options.maxBuckets.getD 0) := by
    unfold MemoryOptions.unchecked
    cases options.maxBuckets <;> rfl
  have hunbounded : Unbounded options.unchecked ↔ Unbounded options := by
    unfold Unbounded
    rw [hbound]
    exact ofNumber_le_iff _ _
  by_cases h : Unbounded options
  · rw [evict_of_unbounded h, evict_of_unbounded (hunbounded.mpr h)]
  · rw [evict_of_not_unbounded h, evict_of_not_unbounded (hunbounded.not.mpr h), hbound]
    exact overflow_unchecked _ buckets

omit [Textual ℚ] in
/-- The buckets other than that of a key, and a bucket for the key behind them. -/
theorem filter_append_unchecked (buckets : List (Key × Bucket ℚ)) (key : Key) (b : Bucket ℚ) :
    (buckets.map fun entry => (entry.1, entry.2.unchecked)).filter (·.1 != key) ++
        [(key, b.unchecked)] =
      (buckets.filter (·.1 != key) ++ [(key, b)]).map fun entry =>
        (entry.1, entry.2.unchecked) := by
  rw [List.filter_map, List.map_append]
  rfl

/-- A call calculates the same. -/
theorem allow_unchecked (s : MemoryStore Key ℚ) (key : Key) (now : ℚ) :
    s.unchecked.allow key (ofNumber now) =
      ⟨(s.allow key now).allowed, (s.allow key now).evicted,
        (s.allow key now).store.unchecked⟩ := by
  have htake := Bucket.take_unchecked s.options (s.bucketFor key now) now
  unfold allow
  rw [bucketFor_unchecked]
  simp only [unchecked] at htake ⊢
  rw [htake, filter_append_unchecked, evict_unchecked]

/-- Handed numbers, the store answers and gives up keys as the store of numbers does, unless it
gives up a key that has no text. -/
theorem attempt_of_numbers (s : MemoryStore Key ℚ) (key : Key) (now : ℚ)
    (htexts : ∀ k ∈ (s.allow key now).evicted, k.text?.isSome) :
    s.unchecked.attempt key (ofNumber now) =
      ⟨some (s.allow key now).allowed, (s.allow key now).evicted.filterMap Key.text?,
        (s.allow key now).store.unchecked⟩ := by
  have hoptions : s.unchecked.options.maxBuckets.all isReadable = true := by
    unfold unchecked MemoryOptions.unchecked
    cases s.options.maxBuckets <;> rfl
  have hreported : ((s.allow key now).evicted.map Key.text?).takeWhile Option.isSome =
      (s.allow key now).evicted.map Key.text? := by
    rw [List.takeWhile_eq_self_iff]
    intro text htext
    obtain ⟨k, hk, rfl⟩ := List.mem_map.mp htext
    exact htexts k hk
  have hall : ((s.allow key now).evicted.filterMap Key.text?).length =
      (s.allow key now).evicted.length := List.filterMap_length_eq_length.mpr htexts
  have htokens : ((s.unchecked.bucketFor key (ofNumber now)).take s.unchecked.options.toLimit
      (ofNumber now)).2.tokens.isReadable = true := by
    rw [bucketFor_unchecked]
    exact congrArg (fun answer => answer.2.tokens.isReadable)
      (Bucket.take_unchecked s.options (s.bucketFor key now) now)
  unfold attempt
  simp only [hoptions, allow_unchecked, hreported, List.filterMap_map, Function.id_comp, hall,
    lt_irrefl, htokens, if_true, if_false]

/-- The answers of a store to calls made one after the other, and nothing where a call fails. -/
def attempts (s : MemoryStore Key (Unchecked ℚ)) : List (Key × Unchecked ℚ) → List (Option Bool)
  | [] => []
  | call :: calls =>
    (s.attempt call.1 call.2).allowed :: attempts (s.attempt call.1 call.2).store calls

/-- Without a bound on its buckets, a store that is handed numbers answers every call, and as the
store of numbers does. -/
theorem attempts_of_numbers (s : MemoryStore Key ℚ) (hunbounded : Unbounded s.options)
    (calls : List (Key × ℚ)) :
    s.unchecked.attempts (calls.map fun call => (call.1, ofNumber call.2)) =
      (s.callAnswers calls).map some := by
  induction calls generalizing s with
  | nil => rfl
  | cons call calls ih =>
    have hevicted : (s.allow call.1 call.2).evicted = [] :=
      congrArg Prod.fst (evict_of_unbounded hunbounded _)
    have hattempt := attempt_of_numbers s call.1 call.2 (by simp [hevicted])
    have hrest := ih (s.allow call.1 call.2).store hunbounded
    rw [List.map_cons, attempts, hattempt, hrest]
    rfl

theorem restTime_unchecked (options : MemoryOptions ℚ) :
    restTime options.unchecked = ofNumber (restTime options) := by
  unfold restTime MemoryOptions.unchecked
  simp only [ofNumber_literal, ofNumber_div, ofNumber_mul, ceiling_ofNumber, larger_ofNumber]

theorem isIdle_unchecked (s : MemoryStore Key ℚ) (now : ℚ) (b : Bucket ℚ) :
    s.unchecked.isIdle (ofNumber now) b.unchecked = s.isIdle now b := by
  have hrest : restTime s.unchecked.options = ofNumber (restTime s.options) :=
    restTime_unchecked s.options
  unfold isIdle
  rw [hrest, ofNumber_sub]
  exact decide_eq_decide.mpr (ofNumber_lt_iff _ _)

theorem sweep_unchecked (s : MemoryStore Key ℚ) (now : ℚ) :
    s.unchecked.sweep (ofNumber now) = ((s.sweep now).1, (s.sweep now).2.unchecked) := by
  have hkept : s.unchecked.buckets.filter (fun b => !s.unchecked.isIdle (ofNumber now) b.2) =
      (s.buckets.filter fun b => !s.isIdle now b.2).map fun entry =>
        (entry.1, entry.2.unchecked) := by
    unfold unchecked
    rw [List.filter_map]
    congr 1
    apply List.filter_congr
    intro entry _
    exact congrArg (!·) (isIdle_unchecked s now entry.2)
  have hlength : s.unchecked.buckets.length = s.buckets.length := List.length_map _
  unfold sweep
  simp only [hkept, hlength, List.length_map]
  rfl

/-- Handed numbers, a sweep removes what the store of numbers removes. -/
theorem attemptSweep_of_numbers (s : MemoryStore Key ℚ) (now : ℚ) :
    s.unchecked.attemptSweep (ofNumber now) =
      (some (s.sweep now).1, (s.sweep now).2.unchecked) := by
  have hrest : restTime s.unchecked.options = ofNumber (restTime s.options) :=
    restTime_unchecked s.options
  have hsound : s.unchecked.buckets.all (fun b => b.2.lastUpdate.isReadable) = true := by
    rw [List.all_eq_true]
    intro entry hentry
    obtain ⟨held, -, rfl⟩ := List.mem_map.mp hentry
    rfl
  unfold attemptSweep
  simp only [hrest, ofNumber_sub, isReadable_ofNumber, hsound, sweep_unchecked, Bool.not_true,
    Bool.false_eq_true, if_true, if_false]

end MemoryStore

end Admission
