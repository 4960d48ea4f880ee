import Admission.Proofs.Bucket.Windows
import Admission.Proofs.Number.Rounding
import Mathlib.Order.Bounds.Basic

/-!
A bucket that is rounded after every call.

Where a bucket is written with so many digits, a call finds other tokens than the one before has
left, and it may be answered otherwise for that. What every call may gain is a small part of the
capacity, because a bucket never holds more than that. Clocks that show whole milliseconds lose
nothing. So a stretch of calls admits no more than a full bucket, what its largest times refill, and
that small part for every call.
-/
namespace Admission.Bucket

/-- The bucket with its numbers rounded. -/
def rounded (round : ℚ → ℚ) (b : Bucket ℚ) : Bucket ℚ := ⟨round b.tokens, round b.lastUpdate⟩

/-- A call on a key whose bucket is rounded when it is written. -/
def takeRounded (limit : Limit ℚ) (round : ℚ → ℚ) (found : Option (Bucket ℚ)) (now : ℚ) :
    Bool × Bucket ℚ :=
  let answer := takeOf limit found now
  (answer.1, answer.2.rounded round)

/-- The answers of a key to calls at the given times, if every call rounds its bucket. -/
def roundedAnswers (limit : Limit ℚ) (round : ℚ → ℚ) : Option (Bucket ℚ) → List ℚ → List Bool
  | _, [] => []
  | found, now :: times =>
    let answer := takeRounded limit round found now
    answer.1 :: roundedAnswers limit round (some answer.2) times

/-- The bucket of a key after calls at the given times, if every call rounds it. -/
def roundedAfter (limit : Limit ℚ) (round : ℚ → ℚ) (found : Option (Bucket ℚ)) (times : List ℚ) :
    Option (Bucket ℚ) :=
  times.foldl (fun found now => some (takeRounded limit round found now).2) found

theorem takeRounded_some (limit : Limit ℚ) (round : ℚ → ℚ) (b : Bucket ℚ) (now : ℚ) :
    takeRounded limit round (some b) now =
      ((b.take limit now).1, (b.take limit now).2.rounded round) := rfl

@[simp] theorem roundedAnswers_nil (limit : Limit ℚ) (round : ℚ → ℚ) (found : Option (Bucket ℚ)) :
    roundedAnswers limit round found [] = [] := rfl

theorem roundedAnswers_cons (limit : Limit ℚ) (round : ℚ → ℚ) (found : Option (Bucket ℚ))
    (now : ℚ) (times : List ℚ) : roundedAnswers limit round found (now :: times) =
      (takeRounded limit round found now).1 ::
        roundedAnswers limit round (some (takeRounded limit round found now).2) times := rfl

theorem roundedAnswers_some_cons (limit : Limit ℚ) (round : ℚ → ℚ) (b : Bucket ℚ) (now : ℚ)
    (times : List ℚ) : roundedAnswers limit round (some b) (now :: times) =
      (b.take limit now).1 ::
        roundedAnswers limit round (some ((b.take limit now).2.rounded round)) times := by
  rw [roundedAnswers_cons, takeRounded_some]

@[simp] theorem roundedAnswers_length (limit : Limit ℚ) (round : ℚ → ℚ)
    (found : Option (Bucket ℚ)) (times : List ℚ) :
    (roundedAnswers limit round found times).length = times.length := by
  induction times generalizing found with
  | nil => rfl
  | cons now times ih => simp [roundedAnswers_cons, ih]

theorem roundedAfter_cons (limit : Limit ℚ) (round : ℚ → ℚ) (found : Option (Bucket ℚ)) (now : ℚ)
    (times : List ℚ) : roundedAfter limit round found (now :: times) =
      roundedAfter limit round (some (takeRounded limit round found now).2) times := rfl

theorem roundedAfter_concat (limit : Limit ℚ) (round : ℚ → ℚ) (found : Option (Bucket ℚ))
    (times : List ℚ) (now : ℚ) : roundedAfter limit round found (times ++ [now]) =
      some (takeRounded limit round (roundedAfter limit round found times) now).2 := by
  simp [roundedAfter]

/-- The bucket can be written: it owes no tokens, and its last update is not changed by rounding. -/
structure Storable (round : ℚ → ℚ) (b : Bucket ℚ) : Prop where
  tokens_nonneg : 0 ≤ b.tokens
  lastUpdate_eq : round b.lastUpdate = b.lastUpdate

/-- What rounding adds to the tokens of a call at most, a part of the capacity. -/
def slack (n : ℕ) (limit : Limit ℚ) : ℚ := limit.capacity * 5 / 10 ^ n

section Rounding

variable {n : ℕ} {round : ℚ → ℚ} {limit : Limit ℚ} {b : Bucket ℚ} {now : ℚ}

theorem slack_nonneg (hcapacity : 0 ≤ limit.capacity) (n : ℕ) : 0 ≤ slack n limit :=
  div_nonneg (mul_nonneg hcapacity (by norm_num)) (pow_nonneg (by norm_num) n)

theorem storable_full (hcapacity : 0 ≤ limit.capacity) (hnow : round now = now) :
    Storable round (full limit now) := ⟨hcapacity, hnow⟩

theorem Storable.lastUpdate_take (h : Storable round b) (hnow : round now = now) :
    ((b.take limit now).2.rounded round).lastUpdate = max b.lastUpdate now := by
  rw [rounded, take_lastUpdate]
  rcases max_choice b.lastUpdate now with hmax | hmax
  · rw [hmax, h.lastUpdate_eq]
  · rw [hmax, hnow]

variable (hround : ∀ x, IsRounding n x (round x)) (hrate : 0 ≤ limit.rate)
  (hcapacity : 0 ≤ limit.capacity)

include hround hrate hcapacity

theorem Storable.take (h : Storable round b) (hnow : round now = now) :
    Storable round ((b.take limit now).2.rounded round) where
  tokens_nonneg :=
    (hround _).nonneg (take_tokens_nonneg hrate hcapacity h.tokens_nonneg now)
  lastUpdate_eq := by
    rw [h.lastUpdate_take hnow]
    rcases max_choice b.lastUpdate now with hmax | hmax
    · rw [hmax, h.lastUpdate_eq]
    · rw [hmax, hnow]

/-- What a call takes and what is written after it is hardly more than the call has found. -/
theorem Storable.toNat_add_tokens_le (h : Storable round b) (hn : 0 < n) (now : ℚ) :
    ((b.take limit now).1.toNat : ℚ) + ((b.take limit now).2.rounded round).tokens ≤
      b.level limit now + slack n limit := by
  have hadded := (hround (b.take limit now).2.tokens).le_add hn
    (take_tokens_nonneg hrate hcapacity h.tokens_nonneg now) (take_tokens_le limit b now)
  have htokens := take_tokens limit b now
  show ((b.take limit now).1.toNat : ℚ) + round (b.take limit now).2.tokens ≤ _
  unfold slack
  linarith

/-- From a call on, the calls that pass are paid for by what it finds, by the refill since, and by
what is rounded up. -/
theorem Storable.admitted_le_level (h : Storable round b) (hn : 0 < n) (times : List ℚ)
    (hnow : round now = now) (htimes : ∀ time ∈ times, round time = time) (i : ℕ) :
    (admitted (roundedAnswers limit round (some b) (now :: times)) 0 (i + 1) : ℚ) ≤
      b.level limit now +
        limit.rate * (peakFrom b.lastUpdate (now :: times) i - max b.lastUpdate now) / 1000 +
        (i + 1 : ℕ) * slack n limit := by
  have hslack := slack_nonneg hcapacity n
  induction times generalizing b now i with
  | nil =>
    have hspent := h.toNat_add_tokens_le hround hrate hcapacity hn now
    have hleft := (h.take hround hrate hcapacity hnow).tokens_nonneg
    have hpeak : peakFrom b.lastUpdate [now] i = max b.lastUpdate now := by simp [peakFrom]
    have hlater : 0 ≤ (i : ℚ) * slack n limit := mul_nonneg (Nat.cast_nonneg i) hslack
    rw [roundedAnswers_some_cons, admitted_cons_zero, hpeak, sub_self]
    push_cast [roundedAnswers_nil, admitted_nil]
    linarith
  | cons next times ih =>
    have hspent := h.toNat_add_tokens_le hround hrate hcapacity hn now
    have hafter := h.take hround hrate hcapacity hnow
    have hlast : ((b.take limit now).2.rounded round).lastUpdate = max b.lastUpdate now :=
      h.lastUpdate_take hnow
    rw [roundedAnswers_some_cons, admitted_cons_zero]
    cases i with
    | zero =>
      have hleft := hafter.tokens_nonneg
      rw [admitted_self, peakFrom_cons_zero, sub_self]
      push_cast
      linarith
    | succ i =>
      have hrest := ih hafter (htimes next List.mem_cons_self)
        (fun time htime => htimes time (List.mem_cons_of_mem next htime)) i
      have hlevel := min_le_right limit.capacity (((b.take limit now).2.rounded round).tokens +
        limit.rate * (max (max b.lastUpdate now) next - max b.lastUpdate now) / 1000)
      rw [level_eq_moved, hlast] at hrest
      rw [peakFrom_cons_succ]
      push_cast at hrest ⊢
      have hsplit : ∀ top : ℚ, limit.rate * (top - max b.lastUpdate now) / 1000 =
          limit.rate * (max (max b.lastUpdate now) next - max b.lastUpdate now) / 1000 +
            limit.rate * (top - max (max b.lastUpdate now) next) / 1000 := by
        intro top
        ring
      rw [hsplit]
      linarith

/-- A stretch of calls that starts anywhere finds a full bucket at most. -/
theorem Storable.admitted_le (h : Storable round b) (hn : 0 < n) (times : List ℚ)
    (htimes : ∀ time ∈ times, round time = time) {j i : ℕ} (hji : j ≤ i) :
    (admitted (roundedAnswers limit round (some b) times) j (i + 1) : ℚ) ≤
      limit.capacity +
        limit.rate * (peakFrom b.lastUpdate times i - peakFrom b.lastUpdate times j) / 1000 +
        (i + 1 - j : ℕ) * slack n limit := by
  induction times generalizing b j i with
  | nil =>
    have hsum := mul_nonneg (Nat.cast_nonneg (α := ℚ) (i + 1 - j)) (slack_nonneg hcapacity n)
    simp only [roundedAnswers_nil, admitted_nil, peakFrom_nil, Nat.cast_zero, sub_self, mul_zero,
      zero_div, add_zero]
    linarith
  | cons now times ih =>
    have hnow := htimes now List.mem_cons_self
    have htimes' := fun time htime => htimes time (List.mem_cons_of_mem now htime)
    cases j with
    | zero =>
      have hall := h.admitted_le_level hround hrate hcapacity hn times hnow htimes' i
      have hlevel := level_le_capacity limit b now
      rw [peakFrom_cons_zero, Nat.sub_zero]
      linarith
    | succ j =>
      obtain ⟨i, rfl⟩ := Nat.exists_eq_succ_of_ne_zero (by omega : i ≠ 0)
      have hrest := ih (h.take hround hrate hcapacity hnow) htimes' (Nat.le_of_succ_le_succ hji)
      rw [h.lastUpdate_take hnow] at hrest
      rw [roundedAnswers_some_cons, admitted_cons_succ, peakFrom_cons_succ, peakFrom_cons_succ,
        Nat.add_sub_add_right]
      exact hrest

/-- The budget of a key whose bucket is rounded after every call. -/
theorem roundedAnswers_admitted_le (hn : 0 < n) (times : List ℚ)
    (htimes : ∀ time ∈ times, round time = time) {j i : ℕ} (hji : j ≤ i) :
    (admitted (roundedAnswers limit round none times) j (i + 1) : ℚ) ≤
      limit.capacity + limit.rate * (peak times i - peak times j) / 1000 +
        (i + 1 - j : ℕ) * slack n limit := by
  cases times with
  | nil =>
    have hsum := mul_nonneg (Nat.cast_nonneg (α := ℚ) (i + 1 - j)) (slack_nonneg hcapacity n)
    simp only [roundedAnswers_nil, admitted_nil, peak, List.take_nil, Nat.cast_zero, sub_self,
      mul_zero, zero_div, add_zero]
    linarith
  | cons first times =>
    have hfirst := htimes first List.mem_cons_self
    rw [peak_cons, peak_cons]
    exact (storable_full hcapacity hfirst).admitted_le hround hrate hcapacity hn (first :: times)
      htimes hji

/-- After calls there is a bucket, it owes no tokens, and its last update is the largest time. -/
theorem roundedAfter_spec (times : List ℚ) (htimes : ∀ time ∈ times, round time = time) :
    (roundedAfter limit round none times = none ↔ times = []) ∧
    ∀ b, roundedAfter limit round none times = some b →
      Storable round b ∧ IsGreatest {time | time ∈ times} b.lastUpdate := by
  induction times using List.reverseRecOn with
  | nil =>
    refine ⟨Iff.intro (fun _ => rfl) fun _ => rfl, ?_⟩
    intro b hb
    cases hb
  | append_singleton times now ih =>
    obtain ⟨hnone, hsome⟩ := ih fun time htime => htimes time (List.mem_append_left _ htime)
    have hnow : round now = now := htimes now (by simp)
    rw [roundedAfter_concat]
    refine ⟨by simp, ?_⟩
    rintro b hb
    obtain rfl := Option.some.inj hb
    cases hfound : roundedAfter limit round none times with
    | none =>
      obtain rfl := hnone.mp hfound
      have hmade := storable_full hcapacity hnow
      refine ⟨hmade.take hround hrate hcapacity hnow, ?_⟩
      have hlast : (takeRounded limit round none now).2.lastUpdate = now :=
        (hmade.lastUpdate_take hnow).trans (max_self now)
      rw [hlast]
      simp
    | some found =>
      obtain ⟨hstorable, hgreatest⟩ := hsome found hfound
      refine ⟨hstorable.take hround hrate hcapacity hnow, ?_⟩
      have hlast : (takeRounded limit round (some found) now).2.lastUpdate =
          max found.lastUpdate now := hstorable.lastUpdate_take hnow
      rw [hlast, max_comm]
      simpa [Set.insert_def, or_comm] using hgreatest.insert now

end Rounding

end Admission.Bucket
