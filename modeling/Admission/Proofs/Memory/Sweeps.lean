import Admission.Proofs.Memory.Run
import Mathlib.Data.Rat.Floor

/-!
Sweeps and the store without them.

A sweep forgets buckets, so a store that is swept holds less than one that is not. What it has
forgotten, however, are rested buckets: the time that a bucket must have been left alone is enough
to fill it from empty. As long as no call comes with a time before a sweep, the two stores answer
alike, and a bucket that both hold is the same in both.
-/
namespace Admission.MemoryStore

open Bucket

variable {κ : Type} [DecidableEq κ]

/-- No call comes with a time before an earlier sweep. -/
def Event.follows : Event κ ℚ → Event κ ℚ → Prop
  | .sweep now, .allow call => now ≤ call.2
  | _, _ => True

omit [DecidableEq κ] in
/-- An idle bucket has had the time to fill up from empty. -/
theorem refillTime_lt_of_isIdle {s : MemoryStore κ ℚ} {now : ℚ} {b : Bucket ℚ}
    (h : s.isIdle now b = true) :
    s.options.capacity / s.options.rate * 1000 < now - b.lastUpdate := by
  have hidle : b.lastUpdate < now - restTime s.options := by
    simpa only [isIdle, decide_eq_true_eq] using h
  have hceil : s.options.capacity / s.options.rate * 1000 ≤
      ((s.options.capacity / s.options.rate * 1000).ceil : ℚ) := Rat.le_ceil
  have hrest : ((s.options.capacity / s.options.rate * 1000).ceil : ℚ) ≤ restTime s.options :=
    le_max_right s.options.idleTimeout _
  linarith

omit [DecidableEq κ] in
/-- What a sweep removes is rested from the time of the sweep on. -/
theorem rested_of_isIdle {s : MemoryStore κ ℚ} (hrate : 0 < s.options.rate)
    (hcapacity : 0 ≤ s.options.capacity) {now : ℚ} {b : Bucket ℚ} (htokens : 0 ≤ b.tokens)
    (h : s.isIdle now b = true) : b.Rested s.options.toLimit now := by
  have hlong := refillTime_lt_of_isIdle h
  have hrefill : 0 ≤ s.options.capacity / s.options.rate * 1000 := by positivity
  apply rested_of_refillTime hrate htokens
  · linarith
  · have htime : s.options.capacity / s.options.rate ≤ (now - b.lastUpdate) / 1000 := by
      linarith
    exact (div_le_iff₀ hrate).mp htime

/-- The store `s` may have forgotten buckets that `f` still holds, in sweeps at times of `past`. -/
structure Forgets (past : List ℚ) (s f : MemoryStore κ ℚ) : Prop where
  options_eq : s.options = f.options
  nodup : s.keys.Nodup
  held : ∀ key b, s.find? key = some b → f.find? key = some b
  gone : ∀ key b, s.find? key = none → f.find? key = some b →
    ∃ now ∈ past, b.Rested f.options.toLimit now
  tokens_nonneg : ∀ key b, f.find? key = some b → 0 ≤ b.tokens

theorem forgets_empty (options : MemoryOptions ℚ) :
    Forgets [] (empty options : MemoryStore κ ℚ) (empty options) where
  options_eq := rfl
  nodup := List.nodup_nil
  held := by
    intro key b h
    cases h
  gone := by
    intro key b _ h
    cases h
  tokens_nonneg := by
    intro key b h
    cases h

namespace Forgets

variable {past : List ℚ} {s f : MemoryStore κ ℚ}

/-- A call that comes with no time before a sweep finds the same in both stores. -/
theorem take_eq (h : Forgets past s f) (key : κ) {now : ℚ} (hnow : ∀ swept ∈ past, swept ≤ now) :
    (s.bucketFor key now).take s.options.toLimit now =
      (f.bucketFor key now).take f.options.toLimit now := by
  unfold bucketFor
  rw [h.options_eq]
  cases hs : s.find? key with
  | some b => rw [h.held key b hs]
  | none =>
    cases hf : f.find? key with
    | none => rfl
    | some b =>
      obtain ⟨swept, hmem, hrested⟩ := h.gone key b hs hf
      exact (hrested.take_eq_full (hnow swept hmem)).symm

theorem allowed_eq (h : Forgets past s f) (key : κ) {now : ℚ}
    (hnow : ∀ swept ∈ past, swept ≤ now) :
    (s.allow key now).allowed = (f.allow key now).allowed :=
  congrArg Prod.fst (h.take_eq key hnow)

theorem allow (h : Forgets past s f) (hunbounded : Unbounded f.options)
    (hrate : 0 ≤ f.options.rate) (hcapacity : 0 ≤ f.options.capacity) (key : κ) {now : ℚ}
    (hnow : ∀ swept ∈ past, swept ≤ now) :
    Forgets past (s.allow key now).store (f.allow key now).store := by
  have hunbounded' : Unbounded s.options := h.options_eq ▸ hunbounded
  refine ⟨h.options_eq, nodup_allow s hunbounded' h.nodup key now, ?_, ?_, ?_⟩
  · intro other b hs
    by_cases hother : other = key
    · subst hother
      rw [find?_allow_self s hunbounded'] at hs
      rw [find?_allow_self f hunbounded, ← hs, h.take_eq other hnow]
    · rw [find?_allow_ne s hunbounded' hother] at hs
      rw [find?_allow_ne f hunbounded hother]
      exact h.held other b hs
  · intro other b hs hf
    by_cases hother : other = key
    · subst hother
      rw [find?_allow_self s hunbounded'] at hs
      cases hs
    · rw [find?_allow_ne s hunbounded' hother] at hs
      rw [find?_allow_ne f hunbounded hother] at hf
      exact h.gone other b hs hf
  · intro other b hf
    by_cases hother : other = key
    · subst hother
      rw [find?_allow_self f hunbounded, Option.some.injEq] at hf
      rw [← hf]
      apply take_tokens_nonneg hrate hcapacity
      exact f.bucketFor_of other now (full_tokens_nonneg hcapacity now) (h.tokens_nonneg other)
    · rw [find?_allow_ne f hunbounded hother] at hf
      exact h.tokens_nonneg other b hf

/-- A bucket that a sweep removes is rested from then on. -/
theorem rested_of_removed (h : Forgets past s f) (hrate : 0 < f.options.rate)
    (hcapacity : 0 ≤ f.options.capacity) {key : κ} {b : Bucket ℚ} {now : ℚ}
    (hheld : s.find? key = some b) (hremoved : (s.sweep now).2.find? key = none) :
    b.Rested f.options.toLimit now := by
  have hidle : s.isIdle now b = true := by
    simpa [find?_sweep s h.nodup, hheld, Option.filter] using hremoved
  have htokens := h.tokens_nonneg key b (h.held key b hheld)
  rw [← h.options_eq] at hrate hcapacity ⊢
  exact rested_of_isIdle hrate hcapacity htokens hidle

theorem sweep (h : Forgets past s f) (hrate : 0 < f.options.rate)
    (hcapacity : 0 ≤ f.options.capacity) (now : ℚ) :
    Forgets (now :: past) (s.sweep now).2 f := by
  refine ⟨h.options_eq, nodup_sweep s h.nodup now, ?_, ?_, h.tokens_nonneg⟩
  · intro key b hs
    rw [find?_sweep s h.nodup] at hs
    exact h.held key b (Option.filter_eq_some_iff.mp hs).1
  · intro key b hs hf
    rw [find?_sweep s h.nodup] at hs
    cases hfound : s.find? key with
    | none =>
      obtain ⟨swept, hmem, hrested⟩ := h.gone key b hfound hf
      exact ⟨swept, List.mem_cons_of_mem now hmem, hrested⟩
    | some found =>
      rw [← find?_sweep s h.nodup] at hs
      have hrested := h.rested_of_removed hrate hcapacity hfound hs
      have hsame : found = b := by
        have hheld := h.held key found hfound
        rw [hf] at hheld
        exact (Option.some.inj hheld).symm
      exact ⟨now, List.mem_cons_self, hsame ▸ hrested⟩

theorem clear (h : Forgets past s f) : Forgets past s.clear f.clear where
  options_eq := h.options_eq
  nodup := List.nodup_nil
  held := by
    intro key b hs
    cases hs
  gone := by
    intro key b _ hf
    cases hf
  tokens_nonneg := by
    intro key b hf
    cases hf

/-- The answers of a run, and the stores after it. -/
theorem run (h : Forgets past s f) (hunbounded : Unbounded f.options)
    (hrate : 0 < f.options.rate) (hcapacity : 0 ≤ f.options.capacity)
    (events : List (Event κ ℚ))
    (hpast : ∀ swept ∈ past, ∀ call, Event.allow call ∈ events → swept ≤ call.2)
    (hforward : events.Pairwise Event.follows) :
    s.answers events = f.answers (unswept events) ∧
      ∃ past', Forgets past' (s.run events) (f.run (unswept events)) := by
  induction events generalizing past s f with
  | nil => exact ⟨rfl, past, h⟩
  | cons event events ih =>
    obtain ⟨hfirst, hlater⟩ := List.pairwise_cons.mp hforward
    have hpast' : ∀ swept ∈ past, ∀ call, Event.allow call ∈ events → swept ≤ call.2 :=
      fun swept hmem call hcall => hpast swept hmem call (List.mem_cons_of_mem event hcall)
    cases event with
    | allow call =>
      have hnow : ∀ swept ∈ past, swept ≤ call.2 :=
        fun swept hmem => hpast swept hmem call List.mem_cons_self
      obtain ⟨hanswers, hstores⟩ := ih (h.allow hunbounded hrate.le hcapacity call.1 hnow)
        hunbounded hrate hcapacity hpast' hlater
      refine ⟨?_, hstores⟩
      have hallowed := h.allowed_eq call.1 hnow
      exact congrArg₂ List.cons hallowed hanswers
    | sweep now =>
      apply ih (h.sweep hrate hcapacity now) hunbounded hrate hcapacity _ hlater
      intro swept hmem call hcall
      rcases List.mem_cons.mp hmem with rfl | hold
      · exact hfirst (.allow call) hcall
      · exact hpast' swept hold call hcall
    | look key => exact ih h hunbounded hrate hcapacity hpast' hlater
    | clear => exact ih h.clear hunbounded hrate hcapacity hpast' hlater

end Forgets

/-- Without sweeps a bucket stays as it is until its key is called or the store is closed. -/
theorem find?_run_unswept (s : MemoryStore κ ℚ) (hunbounded : Unbounded s.options) (key : κ)
    (events : List (Event κ ℚ)) (h : ∀ event ∈ events, event.concerns key = false) :
    (s.run (unswept events)).find? key = s.find? key := by
  induction events generalizing s with
  | nil => rfl
  | cons event events ih =>
    have hrest : ∀ event ∈ events, event.concerns key = false :=
      fun e he => h e (List.mem_cons_of_mem event he)
    have hevent := h event List.mem_cons_self
    cases event with
    | allow call =>
      have hne : key ≠ call.1 := by
        intro he
        simp [Event.concerns, he] at hevent
      exact (ih (s.allow call.1 call.2).store hunbounded hrest).trans
        (find?_allow_ne s hunbounded hne call.2)
    | sweep now => exact ih s hunbounded hrest
    | look other => exact ih s hunbounded hrest
    | clear => simp [Event.concerns] at hevent

/-- Sweeps change no answer. A bucket that is still held is the same as without them, and what a
sweep has removed would be full at any time from the sweep on, as long as nobody has used it. -/
theorem sweep_invisible (options : MemoryOptions ℚ) (hunbounded : Unbounded options)
    (hrate : 0 < options.rate) (hcapacity : 0 ≤ options.capacity) (events : List (Event κ ℚ))
    (hforward : events.Pairwise Event.follows) :
    let store : MemoryStore κ ℚ := empty options
    store.answers events = store.answers (unswept events) ∧
    (∀ key b, (store.run events).find? key = some b →
      (store.run (unswept events)).find? key = some b) ∧
    (∀ before now after key, events = before ++ .sweep now :: after →
      (store.run before).find? key ≠ none →
      (store.run (before ++ [.sweep now])).find? key = none →
      (∀ event ∈ after, event.concerns key = false) →
      ∃ b, (store.run (unswept events)).find? key = some b ∧
        ∀ later, now ≤ later → b.level options.toLimit later = options.capacity) := by
  intro store
  have hempty := forgets_empty (κ := κ) options
  obtain ⟨hanswers, past, hstores⟩ :=
    hempty.run hunbounded hrate hcapacity events (by simp) hforward
  refine ⟨hanswers, hstores.held, ?_⟩
  intro before now after key hevents hheld hremoved hunused
  subst hevents
  have hbefore := (List.pairwise_append.mp hforward).1
  obtain ⟨-, past', hstores'⟩ :=
    hempty.run hunbounded hrate hcapacity before (by simp) hbefore
  obtain ⟨b, hb⟩ := Option.ne_none_iff_exists'.mp hheld
  have hoptions : (store.run (unswept before)).options = options := options_run store _
  have hrested : b.Rested options.toLimit now := by
    rw [run_append] at hremoved
    rw [← hoptions] at hrate hcapacity ⊢
    exact hstores'.rested_of_removed hrate hcapacity hb hremoved
  refine ⟨b, ?_, hrested.level_eq⟩
  have hsplit : unswept (before ++ .sweep now :: after) = unswept before ++ unswept after := by
    simp [unswept, Event.isSweep]
  rw [hsplit, run_append, find?_run_unswept _ (hoptions ▸ hunbounded) key after hunused]
  exact hstores'.held key b hb

/-- A bucket is removed a millisecond after it has filled up again, and its key is called at the
time of the sweep. -/
theorem sweep_invisible_after_refill :
    let options : MemoryOptions ℚ := ⟨⟨10, 1⟩, 50, some 0⟩
    let events : List (Event String ℚ) :=
      [.allow ("a", 0), .sweep 50, .allow ("b", 60), .sweep 101, .allow ("a", 101)]
    Unbounded options ∧ 0 < options.rate ∧ 0 ≤ options.capacity ∧
      events.Pairwise Event.follows ∧
      ((empty options : MemoryStore String ℚ).run (events.take 4)).find? "a" = none ∧
      (empty options).answers events = (empty options).answers (unswept events) := by
  intro options events
  have hunbounded : Unbounded options := by decide +kernel
  have hrate : 0 < options.rate := by decide +kernel
  have hcapacity : 0 ≤ options.capacity := by decide +kernel
  have hforward : events.Pairwise Event.follows := by
    simp only [events, List.pairwise_cons, List.mem_cons, Event.follows]
    norm_num
  refine ⟨hunbounded, hrate, hcapacity, hforward, by decide +kernel, ?_⟩
  exact (sweep_invisible options hunbounded hrate hcapacity events hforward).1

end Admission.MemoryStore
