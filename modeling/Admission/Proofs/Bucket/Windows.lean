import Admission.Proofs.Bucket.Refill
import Mathlib.Data.List.MinMax

/-!
Many calls on one bucket, in exact numbers.

A bucket keeps its tokens and its last update only, and cuts the refill off at every call. What it
answers is nevertheless a statement about the whole history: a call passes if every stretch of calls
that leads up to it has left a token over. The stretches start at any earlier call, and the refill
of a stretch is what the largest time seen has moved on meanwhile.
-/
namespace Admission.Bucket

section Answers

variable {α : Type} [Scalar α]

/-- The answers of a bucket to calls at the given times. -/
def answers (limit : Limit α) (b : Bucket α) (times : List α) : List Bool :=
  (b.takeAll (times.map fun now => (limit, now))).map Prod.fst

/-- A call on a key that may have no bucket yet: its answer, and the bucket that it leaves. -/
def takeOf (limit : Limit α) (found : Option (Bucket α)) (now : α) : Bool × Bucket α :=
  (found.getD (full limit now)).take limit now

/-- The answers of a key to calls at the given times; a key without a bucket gets a full one when it
is first called. -/
def answersOf (limit : Limit α) : Option (Bucket α) → List α → List Bool
  | _, [] => []
  | found, now :: times => answers limit (found.getD (full limit now)) (now :: times)

/-- The bucket of a key after calls at the given times. -/
def bucketAfter (limit : Limit α) (found : Option (Bucket α)) (times : List α) :
    Option (Bucket α) :=
  times.foldl (fun found now => some (takeOf limit found now).2) found

@[simp] theorem answers_nil (limit : Limit α) (b : Bucket α) : b.answers limit [] = [] := rfl

@[simp] theorem answers_cons (limit : Limit α) (b : Bucket α) (now : α) (times : List α) :
    b.answers limit (now :: times) =
      (b.take limit now).1 :: (b.take limit now).2.answers limit times := rfl

@[simp] theorem answersOf_some (limit : Limit α) (b : Bucket α) (times : List α) :
    answersOf limit (some b) times = b.answers limit times := by
  cases times <;> rfl

theorem answersOf_cons (limit : Limit α) (found : Option (Bucket α)) (now : α) (times : List α) :
    answersOf limit found (now :: times) =
      (takeOf limit found now).1 :: answersOf limit (some (takeOf limit found now).2) times := by
  rw [answersOf_some]
  rfl

@[simp] theorem answers_length (limit : Limit α) (b : Bucket α) (times : List α) :
    (b.answers limit times).length = times.length := by
  induction times generalizing b with
  | nil => rfl
  | cons now times ih => simp [ih]

@[simp] theorem bucketAfter_nil (limit : Limit α) (found : Option (Bucket α)) :
    bucketAfter limit found [] = found := rfl

@[simp] theorem bucketAfter_cons (limit : Limit α) (found : Option (Bucket α)) (now : α)
    (times : List α) : bucketAfter limit found (now :: times) =
      bucketAfter limit (some (takeOf limit found now).2) times := rfl

end Answers

/-- The largest of the times up to the call at position `i`. -/
def peak (times : List ℚ) (i : ℕ) : ℚ := ((times.take (i + 1)).max?).getD 0

/-- How many of the calls from position `j` on, and before position `i`, were admitted. -/
def admitted (answers : List Bool) (j i : ℕ) : ℕ := ((answers.take i).drop j).count true

/-- The largest of a time and the times up to the call at position `i`. -/
def peakFrom (start : ℚ) (times : List ℚ) (i : ℕ) : ℚ := (times.take (i + 1)).foldl max start

@[simp] theorem peakFrom_nil (start : ℚ) (i : ℕ) : peakFrom start [] i = start := by
  simp [peakFrom]

theorem peakFrom_cons_zero (start now : ℚ) (times : List ℚ) :
    peakFrom start (now :: times) 0 = max start now := rfl

theorem peakFrom_cons_succ (start now : ℚ) (times : List ℚ) (i : ℕ) :
    peakFrom start (now :: times) (i + 1) = peakFrom (max start now) times i := rfl

theorem peak_cons (now : ℚ) (times : List ℚ) (i : ℕ) :
    peak (now :: times) i = peakFrom now (now :: times) i := by
  simp only [peak, peakFrom, List.take_succ_cons, List.max?_cons', Option.getD_some,
    List.foldl_cons, max_self]

@[simp] theorem admitted_nil (j i : ℕ) : admitted [] j i = 0 := by
  simp [admitted]

@[simp] theorem admitted_self (answers : List Bool) (i : ℕ) : admitted answers i i = 0 := by
  simp [admitted]

theorem admitted_cons_zero (a : Bool) (answers : List Bool) (i : ℕ) :
    admitted (a :: answers) 0 (i + 1) = a.toNat + admitted answers 0 i := by
  cases a <;> simp [admitted, Nat.add_comm]

@[simp] theorem admitted_cons_succ (a : Bool) (answers : List Bool) (j i : ℕ) :
    admitted (a :: answers) (j + 1) (i + 1) = admitted answers j i := by
  simp [admitted]

/-- The level that a later call finds, as the least of what the tokens and what a full bucket would
have left. -/
private theorem one_le_start_iff (limit : Limit ℚ) (b : Bucket ℚ) (now top : ℚ) (used : ℕ) :
    1 ≤ (b.take limit now).2.tokens + limit.rate * (top - max b.lastUpdate now) / 1000 - used ↔
      1 ≤ b.tokens + limit.rate * (top - b.lastUpdate) / 1000 -
        (((b.take limit now).1.toNat + used : ℕ) : ℚ) ∧
      1 ≤ limit.capacity + limit.rate * (top - max b.lastUpdate now) / 1000 -
        (((b.take limit now).1.toNat + used : ℕ) : ℚ) := by
  have hsplit : limit.rate * (top - b.lastUpdate) / 1000 =
      limit.rate * (max b.lastUpdate now - b.lastUpdate) / 1000 +
        limit.rate * (top - max b.lastUpdate now) / 1000 := by ring
  rw [take_tokens, level_eq_moved, hsplit]
  push_cast
  constructor
  · intro h
    have hcapacity := min_le_left limit.capacity
      (b.tokens + limit.rate * (max b.lastUpdate now - b.lastUpdate) / 1000)
    have htokens := min_le_right limit.capacity
      (b.tokens + limit.rate * (max b.lastUpdate now - b.lastUpdate) / 1000)
    constructor <;> linarith
  · rintro ⟨htokens, hcapacity⟩
    rcases min_choice limit.capacity
      (b.tokens + limit.rate * (max b.lastUpdate now - b.lastUpdate) / 1000) with h | h
    · rw [h]
      linarith
    · rw [h]
      linarith

/-- A call passes if the tokens that the bucket started with suffice, and those of every stretch of
calls that starts with a full bucket. -/
theorem answers_iff_of_start (limit : Limit ℚ) (b : Bucket ℚ) (times : List ℚ) (i : ℕ)
    (hi : i < (b.answers limit times).length) :
    (b.answers limit times)[i] = true ↔
      1 ≤ b.tokens + limit.rate * (peakFrom b.lastUpdate times i - b.lastUpdate) / 1000 -
        admitted (b.answers limit times) 0 i ∧
      ∀ j ≤ i, 1 ≤ limit.capacity +
        limit.rate * (peakFrom b.lastUpdate times i - peakFrom b.lastUpdate times j) / 1000 -
        admitted (b.answers limit times) j i := by
  induction times generalizing b i with
  | nil => simp at hi
  | cons now times ih =>
    cases i with
    | zero =>
      simp only [answers_cons, List.getElem_cons_zero, take_allowed_iff, level_eq_moved,
        peakFrom_cons_zero, admitted_self, Nat.le_zero, forall_eq, le_min_iff]
      simp [and_comm]
    | succ i =>
      have hrest : i < ((b.take limit now).2.answers limit times).length := by
        simpa using hi
      simp only [answers_cons, List.getElem_cons_succ, ih (b.take limit now).2 i hrest,
        take_lastUpdate, one_le_start_iff, peakFrom_cons_succ, admitted_cons_zero]
      constructor
      · rintro ⟨⟨hstart, hfirst⟩, hlater⟩
        refine ⟨hstart, fun j hj => ?_⟩
        cases j with
        | zero => simpa only [admitted_cons_zero, peakFrom_cons_zero] using hfirst
        | succ j =>
          simpa only [admitted_cons_succ, peakFrom_cons_succ] using hlater j (by omega)
      · rintro ⟨hstart, hall⟩
        refine ⟨⟨hstart, ?_⟩, fun j hj => ?_⟩
        · simpa only [admitted_cons_zero, peakFrom_cons_zero] using hall 0 (by omega)
        · simpa only [admitted_cons_succ, peakFrom_cons_succ] using hall (j + 1) (by omega)

/-- The law of admission: a call passes exactly if every stretch of calls that leads up to it leaves
a token over, where every stretch starts with a full bucket. -/
structure Obeys (limit : Limit ℚ) (times : List ℚ) (answers : List Bool) : Prop where
  length_eq : answers.length = times.length
  allowed_iff : ∀ i (hi : i < answers.length), answers[i] = true ↔
    ∀ j ≤ i, 1 ≤ limit.capacity + limit.rate * (peak times i - peak times j) / 1000 -
      admitted answers j i

/-- A bucket that is made at its first call obeys the law. -/
theorem obeys_answersOf (limit : Limit ℚ) (times : List ℚ) :
    Obeys limit times (answersOf limit none times) := by
  cases times with
  | nil => exact ⟨rfl, fun i hi => absurd hi (Nat.not_lt_zero i)⟩
  | cons first times =>
    refine ⟨answers_length limit (full limit first) (first :: times), fun i hi => ?_⟩
    have hstart := answers_iff_of_start limit (full limit first) (first :: times) i hi
    have hpeak : ∀ k, peakFrom (full limit first).lastUpdate (first :: times) k =
        peak (first :: times) k := fun k => (peak_cons first times k).symm
    have hzero : peak (first :: times) 0 = (full limit first).lastUpdate := rfl
    simp only [hpeak] at hstart
    constructor
    · intro h
      exact (hstart.mp h).2
    · intro h
      have hfirst := h 0 (Nat.zero_le i)
      rw [hzero] at hfirst
      exact hstart.mpr ⟨hfirst, h⟩

theorem le_peakFrom (start : ℚ) (times : List ℚ) (i : ℕ) : start ≤ peakFrom start times i := by
  induction times generalizing start i with
  | nil => exact le_refl start
  | cons now times ih =>
    cases i with
    | zero => exact le_max_left start now
    | succ i => exact (le_max_left start now).trans (ih (max start now) i)

theorem peakFrom_le_succ (start : ℚ) (times : List ℚ) (i : ℕ) :
    peakFrom start times i ≤ peakFrom start times (i + 1) := by
  induction times generalizing start i with
  | nil => exact le_refl start
  | cons now times ih =>
    cases i with
    | zero => exact le_peakFrom (max start now) times 0
    | succ i => exact ih (max start now) i

theorem peak_mono (times : List ℚ) {j i : ℕ} (hji : j ≤ i) : peak times j ≤ peak times i := by
  cases times with
  | nil => exact le_refl _
  | cons first times =>
    have hmono : Monotone (peak (first :: times)) := by
      apply monotone_nat_of_le_succ
      intro k
      rw [peak_cons, peak_cons]
      exact peakFrom_le_succ first (first :: times) k
    exact hmono hji

theorem peak_mem (times : List ℚ) {i : ℕ} (hi : i < times.length) : peak times i ∈ times := by
  cases hmax : (times.take (i + 1)).max? with
  | none =>
    have hnil := List.max?_eq_none_iff.mp hmax
    have hlength := congrArg List.length hnil
    rw [List.length_take, List.length_nil] at hlength
    omega
  | some top =>
    have hmem : top ∈ times.take (i + 1) := List.max?_mem hmax
    rw [peak, hmax]
    exact List.mem_of_mem_take hmem

theorem admitted_succ (answers : List Bool) {j i : ℕ} (hji : j ≤ i) (hi : i < answers.length) :
    admitted answers j (i + 1) = admitted answers j i + answers[i].toNat := by
  have hlength : j ≤ (answers.take i).length := by
    rw [List.length_take]
    omega
  unfold admitted
  rw [List.take_succ_eq_append_getElem hi, List.drop_append_of_le_length hlength,
    List.count_append]
  cases answers[i] <;> simp

theorem admitted_le_of_le (answers : List Bool) {j k : ℕ} (hjk : j ≤ k) (i : ℕ) :
    admitted answers k i ≤ admitted answers j i := by
  apply List.Sublist.count_le
  exact List.drop_sublist_drop_left _ hjk

namespace Obeys

variable {limit : Limit ℚ} {times : List ℚ} {answers : List Bool}

/-- No stretch of calls admits more than a full bucket and its refill. -/
theorem admitted_le (h : Obeys limit times answers) (hrate : 0 ≤ limit.rate)
    (hcapacity : 0 ≤ limit.capacity) {j i : ℕ} (hji : j ≤ i) (hi : i < answers.length) :
    (admitted answers j (i + 1) : ℚ) ≤
      limit.capacity + limit.rate * (peak times i - peak times j) / 1000 := by
  induction i, hji using Nat.le_induction with
  | base =>
    rw [admitted_succ answers (le_refl j) hi, admitted_self, sub_self]
    cases hallowed : answers[j] with
    | false => simpa using hcapacity
    | true => simpa using (h.allowed_iff j hi).mp hallowed j (le_refl j)
  | succ i hji ih =>
    rw [admitted_succ answers (by omega) hi]
    cases hallowed : answers[i + 1] with
    | false =>
      have hrise : limit.rate * (peak times i - peak times j) / 1000 ≤
          limit.rate * (peak times (i + 1) - peak times j) / 1000 := by
        apply div_le_div_of_nonneg_right _ (by norm_num)
        apply mul_le_mul_of_nonneg_left _ hrate
        exact sub_le_sub_right (peak_mono times (Nat.le_succ i)) _
      have hbefore := ih (by omega)
      simp only [Bool.toNat_false, Nat.add_zero]
      linarith
    | true =>
      have hleft := (h.allowed_iff (i + 1) hi).mp hallowed j (by omega)
      push_cast [Bool.toNat_true]
      linarith

/-- The law leaves no choice: the largest times decide. -/
theorem eq_of_peaks {times' : List ℚ} {answers' : List Bool} (h : Obeys limit times answers)
    (h' : Obeys limit times' answers') (hlength : times'.length = times.length)
    (hpeak : ∀ i < times.length, peak times' i = peak times i) : answers' = answers := by
  have hlen : answers'.length = answers.length := by
    rw [h.length_eq, h'.length_eq, hlength]
  have htake : ∀ n ≤ answers.length, answers'.take n = answers.take n := by
    intro n
    induction n with
    | zero => simp
    | succ n ih =>
      intro hn
      have hn' : n < answers'.length := by omega
      have hsame := ih (by omega)
      have hcount : ∀ j, admitted answers' j n = admitted answers j n := by
        intro j
        simp only [admitted, hsame]
      have hnext : answers'[n] = answers[n] := by
        have htimes := h.length_eq
        rw [Bool.eq_iff_iff, h.allowed_iff n (by omega), h'.allowed_iff n hn',
          hpeak n (by omega)]
        apply forall₂_congr
        intro j hj
        rw [hpeak j (by omega), hcount j]
      rw [List.take_succ_eq_append_getElem hn', List.take_succ_eq_append_getElem (by omega),
        hsame, hnext]
  have hall := htake answers.length (le_refl _)
  rwa [List.take_length, ← hlen, List.take_length] at hall

/-- Of calls at one time, as many pass as the bucket holds. -/
theorem count_of_simultaneous {capacity : ℕ} (h : Obeys limit times answers)
    (hcapacity : limit.capacity = capacity) {now : ℚ} (hnow : ∀ time ∈ times, time = now) :
    answers.count true = min times.length capacity := by
  have hpeak : ∀ i < times.length, peak times i = now := fun i hi =>
    hnow _ (peak_mem times hi)
  have hcount : ∀ i ≤ answers.length, admitted answers 0 i = min i capacity := by
    intro i
    induction i with
    | zero => simp
    | succ i ih =>
      intro hi
      have hbefore := ih (by omega)
      have htimes := h.length_eq
      -- At one time nothing is refilled, and the longest stretch has admitted most.
      have hallowed : answers[i] = true ↔ i < capacity := by
        rw [h.allowed_iff i hi]
        constructor
        · intro hall
          have hfirst := hall 0 (Nat.zero_le i)
          rw [hpeak i (by omega), hpeak 0 (by omega), hcapacity, hbefore] at hfirst
          have hroom : min i capacity + 1 ≤ capacity := by
            have : ((min i capacity : ℕ) : ℚ) + 1 ≤ capacity := by linarith
            exact_mod_cast this
          omega
        · intro hlt j hj
          have hroom : admitted answers j i + 1 ≤ capacity := by
            have hle := admitted_le_of_le answers (Nat.zero_le j) i
            omega
          rw [hpeak i (by omega), hpeak j (by omega), hcapacity]
          have : ((admitted answers j i : ℕ) : ℚ) + 1 ≤ capacity := by exact_mod_cast hroom
          linarith
      rw [admitted_succ answers (Nat.zero_le i) hi, hbefore]
      cases hanswer : answers[i] with
      | false =>
        have hfull : ¬ i < capacity := by simpa [hanswer] using hallowed
        simp only [Bool.toNat_false]
        omega
      | true =>
        have hroom : i < capacity := hallowed.mp hanswer
        simp only [Bool.toNat_true]
        omega
  have hall := hcount answers.length (le_refl _)
  rw [← h.length_eq]
  simpa [admitted] using hall

end Obeys

end Admission.Bucket
