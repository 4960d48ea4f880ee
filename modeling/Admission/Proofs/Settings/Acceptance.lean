import Admission.StoreChoice
import Mathlib.Algebra.Order.Field.Rat
import Mathlib.Data.Rat.Floor
import Mathlib.Tactic.Linarith

/-!
What accepted settings are known to be.

Every number in them has passed its check, and so has every default that stands in for one.
-/
namespace Admission

theorem bind_eq_ok {ε β γ : Type} {x : Except ε β} {f : β → Except ε γ} {c : γ} :
    (x >>= f) = .ok c ↔ ∃ b, x = .ok b ∧ f b = .ok c := by
  cases x with
  | error e => simp [bind, Except.bind]
  | ok b => simp [bind, Except.bind]

namespace Settings

variable {α : Type} [Scalar α]

omit [Scalar α] in
theorem passes_of_numberWhere {passes : α → Bool} {got : Option (Value α)} {x : α}
    (h : numberWhere passes got = some x) : passes x = true :=
  (Option.filter_eq_some_iff.mp h).2

omit [Scalar α] in
theorem numberWhere_number {passes : α → Bool} {x : α} (h : passes x = true) :
    numberWhere passes (some (.number x)) = some x :=
  Option.filter_eq_some_iff.mpr ⟨rfl, h⟩

omit [Scalar α] in
theorem optionalWhere_number {passes : α → Bool} {fault : Value α → SettingsFault α} {x : α}
    (h : passes x = true) : optionalWhere passes fault (some (.number x)) = .ok (some x) := by
  simp only [optionalWhere, numberWhere_number h]

omit [Scalar α] in
theorem passes_of_optionalWhere {passes : α → Bool} {fault : Value α → SettingsFault α}
    {got : Option (Value α)} {found : Option α} (h : optionalWhere passes fault got = .ok found) :
    ∀ x, found = some x → passes x = true := by
  intro x hx
  cases got with
  | none =>
    cases h
    cases hx
  | some v =>
    unfold optionalWhere at h
    simp only at h
    split at h
    · next y hy =>
      cases h
      cases hx
      exact passes_of_numberWhere hy
    · cases h

end Settings

/-- Every number has passed its check. -/
structure Accepted.Checked {α : Type} [Scalar α] (a : Accepted α) : Prop where
  rate : Scalar.isFinite a.limit.rate = true ∧ 0 < a.limit.rate
  capacity : Scalar.isWhole a.limit.capacity = true ∧ 1 ≤ a.limit.capacity
  ttlSeconds : ∀ x, a.ttlSeconds = some x → Settings.isPositiveWhole x = true
  timeout : ∀ x, a.timeout = some x → Settings.isPositiveWhole x = true
  idleTimeout : ∀ x, a.idleTimeout = some x → Settings.isNaturalWhole x = true
  sweepInterval : ∀ x, a.sweepInterval = some x → Settings.isNaturalWhole x = true
  maxBuckets : ∀ x, a.maxBuckets = some x → Settings.isNaturalWhole x = true

namespace Settings

variable {α : Type} [Scalar α]

/-- Settings are accepted if every number is one that passes, or is left out where it may be, and
Redis can be reached if it is switched on. -/
theorem accept_eq_ok_iff (s : Settings α) (a : Accepted α) :
    s.accept = .ok a ↔
      numberWhere (fun x => Scalar.isFinite x && decide (0 < x)) s.rate = some a.limit.rate ∧
      numberWhere (fun x => Scalar.isWhole x && decide (1 ≤ x)) s.capacity =
        some a.limit.capacity ∧
      optionalWhere isPositiveWhole (.notPositive .ttlSeconds) s.ttlSeconds = .ok a.ttlSeconds ∧
      optionalWhere isPositiveWhole (.notPositive .timeout) s.timeout = .ok a.timeout ∧
      optionalWhere isNaturalWhole (.negative .idleTimeout) s.idleTimeout = .ok a.idleTimeout ∧
      optionalWhere isNaturalWhole (.negative .sweepInterval) s.sweepInterval =
        .ok a.sweepInterval ∧
      optionalWhere isNaturalWhole (.negative .maxBuckets) s.maxBuckets = .ok a.maxBuckets ∧
      reachable s.redis = true := by
  unfold accept
  cases numberWhere (fun x => Scalar.isFinite x && decide (0 < x)) s.rate with
  | none => simp [bind, Except.bind]
  | some rate =>
    cases numberWhere (fun x => Scalar.isWhole x && decide (1 ≤ x)) s.capacity with
    | none => simp [bind, Except.bind]
    | some capacity =>
      simp only [bind_eq_ok, Except.ok.injEq, Option.some.injEq, exists_eq_left']
      constructor
      · rintro ⟨ttlSeconds, httl, timeout, htimeout, idleTimeout, hidle, sweepInterval, hsweep,
          maxBuckets, hmax, hreach⟩
        split at hreach
        · next hredis =>
          cases hreach
          exact ⟨rfl, rfl, httl, htimeout, hidle, hsweep, hmax, hredis⟩
        · cases hreach
      · rintro ⟨rfl, rfl, httl, htimeout, hidle, hsweep, hmax, hredis⟩
        refine ⟨_, httl, _, htimeout, _, hidle, _, hsweep, _, hmax, ?_⟩
        rw [if_pos hredis]

theorem checked_of_accept {s : Settings α} {a : Accepted α} (h : s.accept = .ok a) :
    a.Checked := by
  obtain ⟨hrate, hcapacity, httl, htimeout, hidle, hsweep, hmax, -⟩ :=
    (accept_eq_ok_iff s a).mp h
  constructor
  · simpa using passes_of_numberWhere hrate
  · simpa using passes_of_numberWhere hcapacity
  · exact passes_of_optionalWhere httl
  · exact passes_of_optionalWhere htimeout
  · exact passes_of_optionalWhere hidle
  · exact passes_of_optionalWhere hsweep
  · exact passes_of_optionalWhere hmax

end Settings

theorem Scalar.isWhole_iff (x : ℚ) : Scalar.isWhole x = true ↔ ∃ n : ℤ, x = n := by
  have hwhole : Scalar.isWhole x = decide ((x.ceil : ℚ) ≤ x) := rfl
  rw [hwhole, decide_eq_true_iff]
  constructor
  · intro h
    exact ⟨x.ceil, le_antisymm Rat.le_ceil h⟩
  · rintro ⟨n, rfl⟩
    rw [Rat.ceil_intCast]

theorem Scalar.exists_succ_of_isWhole {x : ℚ} (hwhole : isWhole x = true) (hone : 1 ≤ x) :
    ∃ n : ℕ, x = (n + 1 : ℕ) := by
  obtain ⟨n, rfl⟩ := (isWhole_iff x).mp hwhole
  have hpos : 1 ≤ n := by exact_mod_cast hone
  refine ⟨(n - 1).toNat, ?_⟩
  have hnat : (((n - 1).toNat + 1 : ℕ) : ℤ) = n := by omega
  exact_mod_cast hnat.symm

/-- Whole numbers are exact: the positive ones are counts, and counts are whole numbers that are
multiplied as they should be. -/
structure Scalar.ExactCounts (α : Type) [Scalar α] : Prop where
  exists_count : ∀ x : α, isWhole x = true → 0 < x → ∃ n, x = count n
  isWhole_count : ∀ n, isWhole (count n : α) = true
  count_pos : ∀ n, 0 < n → (0 : α) < count n
  count_nonneg : ∀ n, (0 : α) ≤ count n
  count_mul : ∀ m n, (count m * count n : α) = count (m * n)

theorem Scalar.exactCounts_rat : Scalar.ExactCounts ℚ where
  exists_count x hwhole hpos := by
    obtain ⟨n, rfl⟩ := (Scalar.isWhole_iff x).mp hwhole
    obtain ⟨m, rfl⟩ := Int.eq_ofNat_of_zero_le (Int.cast_nonneg_iff.mp (le_of_lt hpos))
    exact ⟨m, by simp [Scalar.count]⟩
  isWhole_count n := (Scalar.isWhole_iff _).mpr ⟨n, by simp [Scalar.count]⟩
  count_pos n hn := by
    show ((0 : ℕ) : ℚ) < (n : ℚ)
    exact_mod_cast hn
  count_nonneg n := by
    show ((0 : ℕ) : ℚ) ≤ (n : ℚ)
    exact_mod_cast Nat.zero_le n
  count_mul m n := (Nat.cast_mul m n).symm

/-- Every number of a configuration, also where it is a default, passes the check of its setting. -/
structure Config.Checked (c : Config ℚ) : Prop where
  rate : 0 < c.limit.rate
  capacity : Scalar.isWhole c.limit.capacity = true ∧ 1 ≤ c.limit.capacity
  ttlSeconds : Settings.isPositiveWhole c.ttlSeconds = true
  timeout : Settings.isPositiveWhole c.timeout = true
  idleTimeout : Settings.isNaturalWhole c.idleTimeout = true
  sweepInterval : Settings.isNaturalWhole c.sweepInterval = true
  maxBuckets : Settings.isNaturalWhole c.maxBuckets = true

namespace Settings

theorem isPositiveWhole_iff (x : ℚ) : isPositiveWhole x = true ↔ (∃ n : ℤ, x = n) ∧ 0 < x := by
  rw [isPositiveWhole, Bool.and_eq_true, Scalar.isWhole_iff, decide_eq_true_iff]

section

variable {α : Type} [Scalar α] (h : Scalar.ExactCounts α)
include h

theorem isPositiveWhole_count {n : ℕ} (hn : 0 < n) :
    isPositiveWhole (Scalar.count n : α) = true := by
  rw [isPositiveWhole, h.isWhole_count, decide_eq_true (h.count_pos n hn), Bool.and_self]

theorem isNaturalWhole_count (n : ℕ) : isNaturalWhole (Scalar.count n : α) = true := by
  rw [isNaturalWhole, h.isWhole_count, decide_eq_true (h.count_nonneg n), Bool.and_self]

/-- A lifetime in seconds is an idle time in milliseconds. -/
theorem isNaturalWhole_thousandfold {x : α} (hx : isPositiveWhole x = true) :
    isNaturalWhole (x * 1000) = true := by
  obtain ⟨hwhole, hpos⟩ := Bool.and_eq_true_iff.mp hx
  obtain ⟨n, rfl⟩ := h.exists_count x hwhole (of_decide_eq_true hpos)
  have hmul : (Scalar.count n * 1000 : α) = Scalar.count (n * 1000) := h.count_mul n 1000
  rw [hmul]
  exact isNaturalWhole_count h _

end

theorem resolve_eq_ok_iff {α : Type} [Scalar α] (s : Settings α) (c : Config α) :
    s.resolve = .ok c ↔ ∃ a, s.accept = .ok a ∧ s.complete a = c := by
  unfold resolve
  cases s.accept with
  | error e => simp [Except.map]
  | ok a => simp [Except.map]

theorem passes_getD {α : Type} {passes : α → Bool} {found : Option α} {usual : α}
    (hfound : ∀ x, found = some x → passes x = true) (husual : passes usual = true) :
    passes (found.getD usual) = true := by
  cases found with
  | none => exact husual
  | some x => exact hfound x rfl

theorem checked_of_resolve {s : Settings ℚ} {c : Config ℚ} (h : s.resolve = .ok c) :
    c.Checked := by
  obtain ⟨a, haccept, rfl⟩ := (resolve_eq_ok_iff s c).mp h
  have hchecked := checked_of_accept haccept
  have httl : isPositiveWhole (a.ttlSeconds.getD defaultTtlSeconds) = true :=
    passes_getD hchecked.ttlSeconds (by decide +kernel)
  constructor
  · exact hchecked.rate.2
  · exact hchecked.capacity
  · exact httl
  · exact passes_getD hchecked.timeout (by decide +kernel)
  · exact passes_getD hchecked.idleTimeout (isNaturalWhole_thousandfold Scalar.exactCounts_rat httl)
  · exact passes_getD hchecked.sweepInterval (by decide +kernel)
  · exact passes_getD hchecked.maxBuckets (by decide +kernel)

end Settings

theorem Config.redisOptions_of_storeChoice {α : Type} {c : Config α} {o : RedisOptions α}
    (h : c.storeChoice = .redis o) : ∃ redis, c.redisOptions redis = o := by
  unfold storeChoice at h
  split at h
  · cases h
  · exact ⟨_, StoreChoice.redis.inj h⟩
  · cases h

end Admission
