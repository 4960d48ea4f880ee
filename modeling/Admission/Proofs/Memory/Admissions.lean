import Admission.Proofs.Memory.Run

/-!
The law of admission of a store in memory.

Whatever the keys of a run are, in whatever order they are called and however their clocks move, the
answers to one key are settled by the calls on that key alone: by the largest times seen, and by how
many calls passed since.
-/
namespace Admission.MemoryStore

open Bucket

variable {κ : Type} [DecidableEq κ]

theorem find?_empty (options : MemoryOptions ℚ) (key : κ) :
    (empty options : MemoryStore κ ℚ).find? key = none := rfl

/-- The answers to a key of a fresh store obey the law of admission. -/
theorem obeys_answersOn (options : MemoryOptions ℚ) (hunbounded : Unbounded options) (key : κ)
    (calls : List (κ × ℚ)) :
    Obeys options.toLimit (timesOn key calls)
      ((empty options : MemoryStore κ ℚ).answersOn key calls) := by
  rw [answersOn_eq _ hunbounded, find?_empty]
  exact obeys_answersOf options.toLimit (timesOn key calls)

/-- The calls on a key of a fresh store, in a run of calls on any keys at any times. A call passes
exactly if every stretch of calls that leads up to it leaves a token over. So the other keys have no
part in it; no stretch admits more than a full bucket and its refill; only the largest times seen
count, whatever a clock that goes back shows; and of calls at one time as many pass as the bucket
holds. -/
theorem admission_law (options : MemoryOptions ℚ) (hunbounded : Unbounded options)
    (hrate : 0 ≤ options.rate) (capacity : ℕ) (hcapacity : options.capacity = capacity) (key : κ)
    (calls : List (κ × ℚ)) :
    let store : MemoryStore κ ℚ := empty options
    let times := timesOn key calls
    let answers := store.answersOn key calls
    answers.length = times.length ∧
    (∀ i (hi : i < answers.length), answers[i] = true ↔
      ∀ j ≤ i, 1 ≤ capacity + options.rate * (peak times i - peak times j) / 1000 -
        admitted answers j i) ∧
    (∀ calls', timesOn key calls' = times → store.answersOn key calls' = answers) ∧
    (∀ j i, j ≤ i → i < answers.length → (admitted answers j (i + 1) : ℚ) ≤
      capacity + options.rate * (peak times i - peak times j) / 1000) ∧
    (∀ calls', (timesOn key calls').length = times.length →
      (∀ i < times.length, peak (timesOn key calls') i = peak times i) →
      store.answersOn key calls' = answers) ∧
    (∀ now, (∀ time ∈ times, time = now) →
      answers.count true = min times.length capacity) := by
  intro store times answers
  have hlaw : Obeys options.toLimit times answers := obeys_answersOn options hunbounded key calls
  have hpeaks : ∀ calls', (timesOn key calls').length = times.length →
      (∀ i < times.length, peak (timesOn key calls') i = peak times i) →
      store.answersOn key calls' = answers := by
    intro calls' hlength hpeak
    exact hlaw.eq_of_peaks (obeys_answersOn options hunbounded key calls') hlength hpeak
  have hnonneg : 0 ≤ options.capacity := by
    rw [hcapacity]
    exact Nat.cast_nonneg capacity
  refine ⟨hlaw.length_eq, ?_, ?_, ?_, hpeaks, ?_⟩
  · rw [← hcapacity]
    exact hlaw.allowed_iff
  · intro calls' htimes
    apply hpeaks calls'
    · rw [htimes]
    · intro i _
      rw [htimes]
  · intro j i hji hi
    rw [← hcapacity]
    exact hlaw.admitted_le hrate hnonneg hji hi
  · intro now hnow
    exact hlaw.count_of_simultaneous hcapacity hnow

/-- Two calls pass before the clock of the key goes back; what follows depends on the times that the
key has seen, here whatever other keys are called in between. -/
theorem admission_law_backward_clock :
    let options : MemoryOptions ℚ := ⟨⟨10, 2⟩, 0, some 0⟩
    Unbounded options ∧ 0 ≤ options.rate ∧ options.capacity = (2 : ℕ) ∧
      ∀ calls : List (String × ℚ), timesOn "a" calls = [1000, 900, 950, 1100, 1150] →
        (empty options).answersOn "a" calls = [true, true, false, true, false] := by
  intro options
  have hunbounded : Unbounded options := by decide +kernel
  have hrate : 0 ≤ options.rate := by decide +kernel
  refine ⟨hunbounded, hrate, rfl, fun calls htimes => ?_⟩
  have hlaw := admission_law options hunbounded hrate 2 rfl "a"
    [("a", 1000), ("b", 5000), ("a", 900), ("a", 950), ("a", 1100), ("b", 0), ("a", 1150)]
  rw [hlaw.2.2.1 calls (htimes.trans (by decide +kernel))]
  decide +kernel

end Admission.MemoryStore
