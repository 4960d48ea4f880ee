import Admission.Proofs.Bucket.Windows
import Mathlib.Data.List.Forall2

/-!
Two buckets side by side.

A call leaves its trace in a bucket even if it is turned away, and a bucket that admits one call
more may admit a later one less. Two comparisons hold all the same. Calls that are turned away may
be left out of a history: without them a bucket is behind, but only as long as it is too empty to
admit anything, and it has caught up as soon as a call comes with a time that is new. And of two
limits the more generous one has admitted no fewer calls at any point: what its bucket may lack in
tokens it has given out before.
-/
namespace Admission.Bucket

section Omission

variable {β : Type}

/-- The entries of a list whose marks say that they stay. -/
def kept (stays : List Bool) (entries : List β) : List β :=
  ((stays.zip entries).filter Prod.fst).map Prod.snd

@[simp] theorem kept_nil (stays : List Bool) : kept stays ([] : List β) = [] := by
  simp [kept]

@[simp] theorem kept_cons_true (stays : List Bool) (entry : β) (entries : List β) :
    kept (true :: stays) (entry :: entries) = entry :: kept stays entries := rfl

@[simp] theorem kept_cons_false (stays : List Bool) (entry : β) (entries : List β) :
    kept (false :: stays) (entry :: entries) = kept stays entries := rfl

/-- Every call that was admitted stays. -/
def OmitsDenied (answers stays : List Bool) : Prop :=
  List.Forall₂ (fun allowed stays => allowed = true → stays = true) answers stays

instance (answers stays : List Bool) : Decidable (OmitsDenied answers stays) :=
  inferInstanceAs (Decidable (List.Forall₂ _ answers stays))

/-- The bucket `d` has seen what `b` has, apart from calls that were turned away. What it has not
yet refilled for is the time up to the last of those, and if there is any then `b`, which has, is
still too empty to admit a call. -/
structure Trails (limit : Limit ℚ) (b d : Bucket ℚ) : Prop where
  lastUpdate_le : d.lastUpdate ≤ b.lastUpdate
  tokens_eq : b.tokens = d.tokens + limit.rate * (b.lastUpdate - d.lastUpdate) / 1000
  empty : d = b ∨ b.tokens < 1

variable {limit : Limit ℚ} {b d : Bucket ℚ} {now : ℚ}

theorem Trails.refl (limit : Limit ℚ) (b : Bucket ℚ) : Trails limit b b where
  lastUpdate_le := le_refl _
  tokens_eq := by simp
  empty := .inl rfl

theorem tokens_lt_of_denied (h : (b.take limit now).1 = false) :
    (b.take limit now).2.tokens < 1 := by
  rw [take_tokens, h]
  simpa using (take_denied_iff limit b now).mp h

/-- A bucket that turns a call away is not full, so it has kept all of the refill. -/
theorem tokens_of_denied (hcapacity : 1 ≤ limit.capacity) (h : (b.take limit now).1 = false) :
    (b.take limit now).2.tokens =
      b.tokens + limit.rate * (max b.lastUpdate now - b.lastUpdate) / 1000 := by
  have hlevel := (take_denied_iff limit b now).mp h
  rw [take_tokens, h]
  rw [level_eq_moved] at hlevel ⊢
  rcases min_lt_iff.mp hlevel with hfull | hrefill
  · exact absurd hcapacity (not_le.mpr hfull)
  · rw [min_eq_right (hrefill.le.trans hcapacity)]
    simp

namespace Trails

/-- A call that is turned away may be left out. -/
theorem leave_out (h : Trails limit b d) (hcapacity : 1 ≤ limit.capacity)
    (hdenied : (b.take limit now).1 = false) : Trails limit (b.take limit now).2 d where
  lastUpdate_le := by
    rw [take_lastUpdate]
    exact h.lastUpdate_le.trans (le_max_left _ _)
  tokens_eq := by
    rw [tokens_of_denied hcapacity hdenied, take_lastUpdate, h.tokens_eq]
    ring
  empty := .inr (tokens_lt_of_denied hdenied)

/-- At a time that is new the bucket has caught up. -/
theorem take_eq (h : Trails limit b d) (hnow : b.lastUpdate ≤ now) :
    d.take limit now = b.take limit now := by
  have hlast : max d.lastUpdate now = max b.lastUpdate now := by
    rw [max_eq_right hnow, max_eq_right (h.lastUpdate_le.trans hnow)]
  have hlevel : d.level limit now = b.level limit now := by
    rw [level_eq_moved, level_eq_moved, hlast, h.tokens_eq]
    congr 1
    ring
  rw [Bucket.take_eq, Bucket.take_eq, hlevel, hlast]

/-- At a time that both have passed, and at one between the two, neither admits a call. -/
theorem denied (h : Trails limit b d) (hrate : 0 ≤ limit.rate) (hempty : b.tokens < 1)
    (hnow : now < b.lastUpdate) :
    (b.take limit now).1 = false ∧ (d.take limit now).1 = false := by
  have hmoved : limit.rate * (max d.lastUpdate now - d.lastUpdate) / 1000 ≤
      limit.rate * (b.lastUpdate - d.lastUpdate) / 1000 := by
    apply div_le_div_of_nonneg_right _ (by norm_num)
    apply mul_le_mul_of_nonneg_left _ hrate
    exact sub_le_sub_right (max_le h.lastUpdate_le hnow.le) _
  rw [take_denied_iff, take_denied_iff, level_eq_moved, level_eq_moved, max_eq_left hnow.le]
  constructor
  · apply (min_le_right _ _).trans_lt
    simpa using hempty
  · apply (min_le_right _ _).trans_lt
    linarith [h.tokens_eq]

/-- A call that stays is answered alike, and does not part the buckets. -/
theorem take (h : Trails limit b d) (hrate : 0 ≤ limit.rate) (hcapacity : 1 ≤ limit.capacity)
    (now : ℚ) : (d.take limit now).1 = (b.take limit now).1 ∧
      Trails limit (b.take limit now).2 (d.take limit now).2 := by
  rcases le_or_gt b.lastUpdate now with hnow | hnow
  · rw [h.take_eq hnow]
    exact ⟨rfl, .refl limit _⟩
  · rcases h.empty with rfl | hempty
    · exact ⟨rfl, .refl limit _⟩
    · obtain ⟨hb, hd⟩ := h.denied hrate hempty hnow
      refine ⟨hd.trans hb.symm, ?_, ?_, ?_⟩
      · rw [take_lastUpdate, take_lastUpdate]
        exact max_le_max_right now h.lastUpdate_le
      · rw [tokens_of_denied hcapacity hb, tokens_of_denied hcapacity hd, take_lastUpdate,
          take_lastUpdate, h.tokens_eq]
        ring
      · exact .inr (tokens_lt_of_denied hb)

theorem run (h : Trails limit b d) (hrate : 0 ≤ limit.rate) (hcapacity : 1 ≤ limit.capacity)
    (times : List ℚ) {stays : List Bool} (hstays : OmitsDenied (b.answers limit times) stays) :
    d.answers limit (kept stays times) = kept stays (b.answers limit times) ∧
      ∃ b' d', bucketAfter limit (some b) times = some b' ∧
        bucketAfter limit (some d) (kept stays times) = some d' ∧ Trails limit b' d' := by
  induction times generalizing b d stays with
  | nil => exact ⟨by simp, b, d, rfl, by simp, h⟩
  | cons now times ih =>
    rw [answers_cons] at hstays
    obtain ⟨stay, stays, hstay, hrest, rfl⟩ := List.forall₂_cons_left_iff.mp hstays
    cases stay with
    | false =>
      have hdenied : (b.take limit now).1 = false :=
        Bool.eq_false_iff.mpr fun hallowed => Bool.noConfusion (hstay hallowed)
      exact ih (h.leave_out hcapacity hdenied) hrest
    | true =>
      obtain ⟨hanswer, hafter⟩ := h.take hrate hcapacity now
      obtain ⟨hanswers, hbuckets⟩ := ih hafter hrest
      refine ⟨?_, hbuckets⟩
      rw [kept_cons_true, answers_cons, answers_cons, kept_cons_true, hanswer, hanswers]

end Trails

theorem lastUpdate_bucketAfter_le {start : Bucket ℚ} (hstart : start.lastUpdate ≤ now)
    {times : List ℚ} (htimes : ∀ time ∈ times, time ≤ now)
    (hb : bucketAfter limit (some start) times = some b) : b.lastUpdate ≤ now := by
  induction times generalizing start with
  | nil => exact Option.some.inj hb ▸ hstart
  | cons time times ih =>
    have htime := htimes time List.mem_cons_self
    apply ih _ (fun later hlater => htimes later (List.mem_cons_of_mem time hlater)) hb
    simp only [takeOf, Option.getD_some, take_lastUpdate]
    exact max_le hstart htime

/-- Calls that were turned away may be left out of the calls on a key, as many and as one likes: the
others are answered as before, and a call that comes with no time before them is answered alike in
both cases and leaves the same bucket. -/
theorem denied_neutral (limit : Limit ℚ) (hrate : 0 ≤ limit.rate) (hcapacity : 1 ≤ limit.capacity)
    (times : List ℚ) (stays : List Bool)
    (hstays : OmitsDenied (answersOf limit none times) stays) :
    answersOf limit none (kept stays times) = kept stays (answersOf limit none times) ∧
    ∀ now, (∀ time ∈ times, time ≤ now) →
      takeOf limit (bucketAfter limit none (kept stays times)) now =
        takeOf limit (bucketAfter limit none times) now := by
  cases times with
  | nil => simp [answersOf]
  | cons first times =>
    have hfirst : (takeOf limit none first).1 = true := by
      rw [takeOf, take_allowed_iff, Option.getD_none, level_full]
      exact hcapacity
    rw [answersOf_cons, hfirst, answersOf_some] at hstays ⊢
    -- The bucket is full at the first call, which is therefore never left out.
    obtain ⟨stay, stays, hstay, hrest, rfl⟩ := List.forall₂_cons_left_iff.mp hstays
    obtain rfl : stay = true := hstay rfl
    obtain ⟨hanswers, b, d, hb, hd, htrails⟩ :=
      (Trails.refl limit (takeOf limit none first).2).run hrate hcapacity times hrest
    rw [kept_cons_true, kept_cons_true, answersOf_cons, hfirst, answersOf_some, hanswers,
      bucketAfter_cons, bucketAfter_cons, hb, hd]
    refine ⟨rfl, fun now hnow => htrails.take_eq ?_⟩
    have hmade : (takeOf limit none first).2.lastUpdate ≤ now := by
      simpa [takeOf, full] using hnow first List.mem_cons_self
    exact lastUpdate_bucketAfter_le hmade
      (fun time htime => hnow time (List.mem_cons_of_mem first htime)) hb

/-- Two of the calls that were turned away are left out, and a third, whose clock is behind, then
finds a bucket that has not been called at that time. -/
theorem denied_neutral_backward_clock :
    let limit : Limit ℚ := ⟨10, 2⟩
    let times : List ℚ := [0, 0, 0, 50, 20, 100, 100]
    let stays := [true, true, false, false, true, true, true]
    (0 ≤ limit.rate ∧ 1 ≤ limit.capacity ∧ OmitsDenied (answersOf limit none times) stays ∧
      ∀ time ∈ times, time ≤ 250) ∧
    kept stays times = [0, 0, 20, 100, 100] ∧
    answersOf limit none (kept stays times) = [true, true, false, true, false] ∧
    takeOf limit (bucketAfter limit none (kept stays times)) 250 =
      takeOf limit (bucketAfter limit none times) 250 := by
  intro limit times stays
  have hrate : 0 ≤ limit.rate := by decide +kernel
  have hcapacity : 1 ≤ limit.capacity := by decide +kernel
  have hstays : OmitsDenied (answersOf limit none times) stays := by decide +kernel
  have hnow : ∀ time ∈ times, time ≤ 250 := by decide +kernel
  obtain ⟨hanswers, hnext⟩ := denied_neutral limit hrate hcapacity times stays hstays
  refine ⟨⟨hrate, hcapacity, hstays, hnow⟩, rfl, ?_, hnext 250 hnow⟩
  rw [hanswers]
  decide +kernel

end Omission

section Generosity

variable {limit limit' : Limit ℚ} {b b' : Bucket ℚ} {lead : ℕ}

/-- What the bucket `b'` lacks of the tokens of `b`, it has given out in calls that it has admitted
more. -/
structure Leads (b b' : Bucket ℚ) (lead : ℕ) : Prop where
  lastUpdate_eq : b'.lastUpdate = b.lastUpdate
  tokens_le : b.tokens ≤ b'.tokens + lead

theorem Leads.level_le (h : Leads b b' lead) (hrate : limit.rate ≤ limit'.rate)
    (hcapacity : limit.capacity ≤ limit'.capacity) (now : ℚ) :
    b.level limit now ≤ b'.level limit' now + lead := by
  have helapsed : 0 ≤ max b.lastUpdate now - b.lastUpdate := sub_nonneg.mpr (le_max_left _ _)
  have hrefill : limit.rate * (max b.lastUpdate now - b.lastUpdate) / 1000 ≤
      limit'.rate * (max b.lastUpdate now - b.lastUpdate) / 1000 :=
    div_le_div_of_nonneg_right (mul_le_mul_of_nonneg_right hrate helapsed) (by norm_num)
  have hlead : (0 : ℚ) ≤ lead := Nat.cast_nonneg lead
  have htokens := h.tokens_le
  rw [level_eq_moved, level_eq_moved, h.lastUpdate_eq, ← min_add_add_right]
  apply min_le_min
  · linarith
  · linarith

/-- A call that the more generous limit turns away, and the other one admits, takes away a lead that
is there. -/
theorem Leads.take (h : Leads b b' lead) (hrate : limit.rate ≤ limit'.rate)
    (hcapacity : limit.capacity ≤ limit'.capacity) (now : ℚ) :
    ∃ lead', lead + (b'.take limit' now).1.toNat = (b.take limit now).1.toNat + lead' ∧
      Leads (b.take limit now).2 (b'.take limit' now).2 lead' := by
  have hlevel := h.level_le hrate hcapacity now
  have hroom : (b.take limit now).1.toNat ≤ lead + (b'.take limit' now).1.toNat := by
    cases hallowed : (b.take limit now).1 with
    | false => exact Nat.zero_le _
    | true =>
      cases hallowed' : (b'.take limit' now).1 with
      | true => exact Nat.le_add_left _ _
      | false =>
        have hone := (take_allowed_iff limit b now).mp hallowed
        have hless := (take_denied_iff limit' b' now).mp hallowed'
        have hlead : (0 : ℚ) < lead := by linarith
        exact Nat.cast_pos.mp hlead
  obtain ⟨lead', hlead'⟩ := Nat.exists_eq_add_of_le hroom
  refine ⟨lead', hlead', ?_, ?_⟩
  · rw [take_lastUpdate, take_lastUpdate, h.lastUpdate_eq]
  · have hsum : (lead : ℚ) + (b'.take limit' now).1.toNat =
        (b.take limit now).1.toNat + lead' := by exact_mod_cast hlead'
    rw [take_tokens, take_tokens]
    linarith

theorem Leads.admitted_le (h : Leads b b' lead) (hrate : limit.rate ≤ limit'.rate)
    (hcapacity : limit.capacity ≤ limit'.capacity) (times : List ℚ) (i : ℕ) :
    admitted (b.answers limit times) 0 i ≤ lead + admitted (b'.answers limit' times) 0 i := by
  induction times generalizing b b' lead i with
  | nil => simp
  | cons now times ih =>
    cases i with
    | zero => simp
    | succ i =>
      obtain ⟨lead', hlead', hafter⟩ := h.take hrate hcapacity now
      have hrest := ih hafter i
      rw [answers_cons, answers_cons, admitted_cons_zero, admitted_cons_zero]
      omega

/-- Of the same calls, a limit with a higher rate and a higher capacity has admitted no fewer at any
point. -/
theorem admitted_mono_limit (hrate : limit.rate ≤ limit'.rate)
    (hcapacity : limit.capacity ≤ limit'.capacity) (times : List ℚ) (i : ℕ) :
    admitted (answersOf limit none times) 0 i ≤ admitted (answersOf limit' none times) 0 i := by
  cases times with
  | nil => exact le_refl _
  | cons first times =>
    have hfresh : Leads (full limit first) (full limit' first) 0 := ⟨rfl, by simpa [full]⟩
    have hall := hfresh.admitted_le hrate hcapacity (first :: times) i
    rw [Nat.zero_add] at hall
    exact hall

/-- The more generous limit turns away the last call, which the other one admits, but it has
admitted two calls more before. -/
theorem admitted_mono_limit_last_denied :
    let limit : Limit ℚ := ⟨1, 1⟩
    let limit' : Limit ℚ := ⟨6 / 5, 2⟩
    let times : List ℚ := [0, 0, 900, 1000]
    (limit.rate ≤ limit'.rate ∧ limit.capacity ≤ limit'.capacity) ∧
    answersOf limit none times = [true, false, false, true] ∧
    answersOf limit' none times = [true, true, true, false] ∧
    admitted (answersOf limit none times) 0 4 ≤ admitted (answersOf limit' none times) 0 4 := by
  intro limit limit' times
  have hrate : limit.rate ≤ limit'.rate := by decide +kernel
  have hcapacity : limit.capacity ≤ limit'.capacity := by decide +kernel
  refine ⟨⟨hrate, hcapacity⟩, by decide +kernel, by decide +kernel, ?_⟩
  exact admitted_mono_limit hrate hcapacity times 4

end Generosity

end Admission.Bucket
