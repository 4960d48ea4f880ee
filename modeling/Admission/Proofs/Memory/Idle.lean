import Admission.Proofs.Memory.Recency
import Admission.Proofs.Memory.Sweeps

/-!
What a sweep leaves.

A sweep looks at buckets as they are now, after whatever earlier sweeps have removed and later calls
have made anew. Where times do not run backward this history does not show: a bucket carries the
time of the latest call on its key, and what an earlier sweep found idle would be idle now. So the
keys left are those of the run itself that were called recently enough, in the order of use.
-/
namespace Admission.MemoryStore

open Bucket
open scoped List

variable {κ : Type} [DecidableEq κ]

/-- The time that comes with an operation. -/
def Event.time? {α : Type} : Event κ α → Option α
  | .allow call => some call.2
  | .sweep now => some now
  | .look _ => none
  | .clear => none

/-- The times that come with the operations of a run, in their order. -/
def times {α : Type} (events : List (Event κ α)) : List α := events.filterMap Event.time?

/-- The time of the latest call on a key. -/
def latest? {α : Type} (key : κ) (events : List (Event κ α)) : Option α :=
  (timesOn key (calls events)).getLast?

/-- The keys whose latest call is no older than `oldest`, in the order of these calls. -/
def calledSince (oldest : ℚ) (events : List (Event κ ℚ)) : List κ :=
  (seen events).filter fun key => (latest? key events).any fun time => decide (oldest ≤ time)

section Histories

variable {events : List (Event κ ℚ)} {event : Event κ ℚ} {key : κ} {time : ℚ}

theorem latest?_concat_allow (events : List (Event κ ℚ)) (key other : κ) (now : ℚ) :
    latest? key (events ++ [.allow (other, now)]) =
      if key = other then some now else latest? key events := by
  by_cases hkey : key = other
  · simp [latest?, timesOn, calls, Event.call?, hkey]
  · simp [latest?, timesOn, calls, Event.call?, hkey, Ne.symm hkey]

theorem latest?_concat_of_call?_eq_none (hcall : event.call? = none) :
    latest? key (events ++ [event]) = latest? key events := by
  simp [latest?, calls, hcall]

omit [DecidableEq κ] in
theorem mem_times_of_mem (hmem : event ∈ events) (htime : event.time? = some time) :
    time ∈ times events := List.mem_filterMap.mpr ⟨event, hmem, htime⟩

theorem allow_mem_of_latest? (h : latest? key events = some time) :
    .allow (key, time) ∈ events := by
  obtain ⟨call, hmem, rfl⟩ := List.mem_map.mp (List.mem_of_getLast? h)
  obtain ⟨hcall, hkey⟩ := List.mem_filter.mp hmem
  obtain ⟨event, hevent, hmade⟩ := List.mem_filterMap.mp hcall
  obtain rfl := of_decide_eq_true hkey
  exact call?_eq_some.mp hmade ▸ hevent

theorem mem_seen_of_latest? (h : latest? key events = some time) : key ∈ seen events := by
  have hcall : (key, time) ∈ calls events :=
    List.mem_filterMap.mpr ⟨_, allow_mem_of_latest? h, call?_eq_some.mpr rfl⟩
  exact List.mem_dedup.mpr (List.mem_map_of_mem hcall)

theorem mem_calledSince {oldest : ℚ} :
    key ∈ calledSince oldest events ↔ ∃ time, latest? key events = some time ∧ oldest ≤ time := by
  rw [calledSince, List.mem_filter, Option.any_eq_true]
  constructor
  · rintro ⟨-, time, hlatest, hrecent⟩
    exact ⟨time, hlatest, of_decide_eq_true hrecent⟩
  · rintro ⟨time, hlatest, hrecent⟩
    exact ⟨mem_seen_of_latest? hlatest, time, hlatest, decide_eq_true hrecent⟩

/-- The calls before an operation are no later than it. -/
theorem latest?_le_of_forward (hforward : (times (events ++ [event])).Pairwise (· ≤ ·))
    (htime : event.time? = some time) {called : ℚ} (h : latest? key events = some called) :
    called ≤ time := by
  have hsplit : times (events ++ [event]) = times events ++ [time] := by
    simp [times, htime]
  rw [hsplit, List.pairwise_append] at hforward
  exact hforward.2.2 called (mem_times_of_mem (allow_mem_of_latest? h) rfl) time
    (List.mem_singleton_self time)

omit [DecidableEq κ] in
theorem forward_of_concat (hforward : (times (events ++ [event])).Pairwise (· ≤ ·)) :
    (times events).Pairwise (· ≤ ·) := by
  rw [times, List.filterMap_append] at hforward
  exact (List.pairwise_append.mp hforward).1

end Histories

/-- How the buckets of a store stand to the run that led to it: a bucket was last updated at the
latest call on its key, and a key that was called and has none was idle at some sweep. -/
structure Tracks (events : List (Event κ ℚ)) (s : MemoryStore κ ℚ) : Prop where
  nodup : s.keys.Nodup
  updated : ∀ key b, s.find? key = some b → latest? key events = some b.lastUpdate
  removed : ∀ key time, latest? key events = some time → s.find? key = none →
    ∃ swept, .sweep swept ∈ events ∧ time < swept - restTime s.options

namespace Tracks

variable {events : List (Event κ ℚ)} {s : MemoryStore κ ℚ}

theorem empty (options : MemoryOptions ℚ) :
    Tracks [] (MemoryStore.empty options : MemoryStore κ ℚ) where
  nodup := List.nodup_nil
  updated := by
    intro key b h
    cases h
  removed := by
    intro key time h
    cases h

/-- A call at no earlier time than the ones before moves the last update to its own time. -/
theorem take_lastUpdate_eq (h : Tracks events s) {key : κ} {now : ℚ}
    (hnow : ∀ called, latest? key events = some called → called ≤ now) :
    ((s.bucketFor key now).take s.options.toLimit now).2.lastUpdate = now := by
  rw [take_lastUpdate]
  refine s.bucketFor_of key now (P := fun b => max b.lastUpdate now = now) (max_self now) ?_
  intro b hb
  exact max_eq_right (hnow _ (h.updated key b hb))

theorem allow (h : Tracks events s) (hunbounded : Unbounded s.options) {key : κ} {now : ℚ}
    (hnow : ∀ called, latest? key events = some called → called ≤ now) :
    Tracks (events ++ [.allow (key, now)]) (s.allow key now).store where
  nodup := nodup_allow s hunbounded h.nodup key now
  updated := by
    intro other b hb
    rw [latest?_concat_allow]
    by_cases hother : other = key
    · subst hother
      rw [find?_allow_self s hunbounded, Option.some.injEq] at hb
      rw [if_pos rfl, ← hb, h.take_lastUpdate_eq hnow]
    · rw [find?_allow_ne s hunbounded hother] at hb
      rw [if_neg hother, h.updated other b hb]
  removed := by
    intro other time hlatest hnone
    rw [latest?_concat_allow] at hlatest
    by_cases hother : other = key
    · subst hother
      rw [find?_allow_self s hunbounded] at hnone
      cases hnone
    · rw [find?_allow_ne s hunbounded hother] at hnone
      rw [if_neg hother] at hlatest
      obtain ⟨swept, hmem, hidle⟩ := h.removed other time hlatest hnone
      exact ⟨swept, List.mem_append_left _ hmem, hidle⟩

theorem sweep (h : Tracks events s) (now : ℚ) :
    Tracks (events ++ [.sweep now]) (s.sweep now).2 where
  nodup := nodup_sweep s h.nodup now
  updated := by
    intro key b hb
    rw [find?_sweep s h.nodup] at hb
    rw [latest?_concat_of_call?_eq_none rfl]
    exact h.updated key b (Option.filter_eq_some_iff.mp hb).1
  removed := by
    intro key time hlatest hnone
    rw [latest?_concat_of_call?_eq_none rfl] at hlatest
    rw [find?_sweep s h.nodup] at hnone
    cases hfound : s.find? key with
    | none =>
      obtain ⟨swept, hmem, hidle⟩ := h.removed key time hlatest hfound
      exact ⟨swept, List.mem_append_left _ hmem, hidle⟩
    | some b =>
      have hidle : s.isIdle now b = true := by
        simpa [hfound, Option.filter] using hnone
      obtain rfl : b.lastUpdate = time :=
        Option.some.inj ((h.updated key b hfound).symm.trans hlatest)
      exact ⟨now, by simp, of_decide_eq_true hidle⟩

theorem look (h : Tracks events s) (key : κ) : Tracks (events ++ [.look key]) s where
  nodup := h.nodup
  updated := by
    intro other b hb
    rw [latest?_concat_of_call?_eq_none rfl]
    exact h.updated other b hb
  removed := by
    intro other time hlatest hnone
    rw [latest?_concat_of_call?_eq_none rfl] at hlatest
    obtain ⟨swept, hmem, hidle⟩ := h.removed other time hlatest hnone
    exact ⟨swept, List.mem_append_left _ hmem, hidle⟩

/-- A store that is not closed keeps up with its run, as long as no time runs backward. -/
theorem run {options : MemoryOptions ℚ} (hunbounded : Unbounded options)
    (hopen : .clear ∉ events) (hforward : (times events).Pairwise (· ≤ ·)) :
    Tracks events ((MemoryStore.empty options).run events) := by
  induction events using List.reverseRecOn with
  | nil => exact empty options
  | append_singleton events event ih =>
    obtain ⟨hopen, hevent⟩ : .clear ∉ events ∧ event ≠ .clear := by
      simpa [eq_comm] using hopen
    have htracks := ih hopen (forward_of_concat hforward)
    rw [run_append]
    cases event with
    | allow call =>
      have hunbounded' : Unbounded ((MemoryStore.empty options : MemoryStore κ ℚ).run
          events).options := by rwa [options_run]
      exact htracks.allow hunbounded' fun called => latest?_le_of_forward hforward rfl
    | sweep now => exact htracks.sweep now
    | look key => exact htracks.look key
    | clear => exact absurd rfl hevent

/-- A sweep at no earlier time than those before leaves a key if its latest call is recent enough:
what an earlier sweep has removed would be removed by this one. -/
theorem mem_keys_sweep_iff (h : Tracks events s) {now : ℚ}
    (hnow : ∀ swept, .sweep swept ∈ events → swept ≤ now) (key : κ) :
    key ∈ (s.sweep now).2.keys ↔ key ∈ calledSince (now - restTime s.options) events := by
  rw [mem_calledSince]
  constructor
  · intro hmem
    obtain ⟨⟨key, b⟩, hb, rfl⟩ := List.mem_map.mp hmem
    obtain ⟨hheld, hkept⟩ := List.mem_filter.mp hb
    have hfound := (lookup_eq_some_iff_mem s.buckets h.nodup).mpr hheld
    exact ⟨b.lastUpdate, h.updated key b hfound, by simpa [isIdle] using hkept⟩
  · rintro ⟨time, hlatest, hrecent⟩
    cases hfound : s.find? key with
    | none =>
      obtain ⟨swept, hmem, hidle⟩ := h.removed key time hlatest hfound
      have hswept := hnow swept hmem
      linarith
    | some b =>
      obtain rfl : b.lastUpdate = time :=
        Option.some.inj ((h.updated key b hfound).symm.trans hlatest)
      have hheld := (lookup_eq_some_iff_mem s.buckets h.nodup).mp hfound
      refine List.mem_map.mpr ⟨(key, b), List.mem_filter.mpr ⟨hheld, ?_⟩, rfl⟩
      simpa [isIdle] using hrecent

end Tracks

omit [DecidableEq κ] in
/-- Sweeping again at the same time finds nothing to remove. -/
theorem sweep_sweep (s : MemoryStore κ ℚ) (now : ℚ) :
    (s.sweep now).2.sweep now = (0, (s.sweep now).2) := by
  set left := (s.sweep now).2
  have hkept : left.buckets.filter (fun b => !left.isIdle now b.2) = left.buckets :=
    List.filter_eq_self.mpr fun b hb => (List.mem_filter.mp hb).2
  rw [sweep, hkept, Nat.sub_self]

omit [DecidableEq κ] in
theorem sweep_fst_add_size (s : MemoryStore κ ℚ) (now : ℚ) :
    (s.sweep now).1 + (s.sweep now).2.size = s.size :=
  Nat.sub_add_cancel (List.length_filter_le _ s.buckets)

/-- Without a bound on the buckets, and as long as no time runs backward, a sweep leaves the keys
whose latest call is not older than the rest a bucket needs, in the order of these calls. It counts
what it removes, and leaves nothing to a second sweep at its time. -/
theorem keys_sweep_eq_calledSince (options : MemoryOptions ℚ)
    (hbound : options.maxBuckets.getD 0 = 0) (events : List (Event κ ℚ))
    (hopen : .clear ∉ events) (now : ℚ) (hforward : (times events ++ [now]).Pairwise (· ≤ ·)) :
    let held : MemoryStore κ ℚ := (empty options).run events
    let rest := max options.idleTimeout ((options.capacity / options.rate * 1000).ceil : ℚ)
    (held.sweep now).2.keys = calledSince (now - rest) events ∧
      (held.sweep now).1 + (held.sweep now).2.size = held.size ∧
      (held.sweep now).2.sweep now = (0, (held.sweep now).2) := by
  intro held rest
  refine ⟨?_, sweep_fst_add_size held now, sweep_sweep held now⟩
  obtain ⟨hforward, -, hlast⟩ := List.pairwise_append.mp hforward
  have htracks : Tracks events held := Tracks.run hbound.le hopen hforward
  have hswept : ∀ swept, .sweep swept ∈ events → swept ≤ now := fun swept hmem =>
    hlast swept (mem_times_of_mem hmem rfl) now (List.mem_singleton_self now)
  have hmem : ∀ key, key ∈ (held.sweep now).2.keys ↔ key ∈ calledSince (now - rest) events := by
    have hoptions : held.options = options := options_run _ _
    have hrest : restTime held.options = rest := hoptions ▸ rfl
    exact hrest ▸ htracks.mem_keys_sweep_iff hswept
  have hseen : (held.sweep now).2.keys <+ seen events :=
    (List.filter_sublist.map Prod.fst).trans
      (keys_run_sublist_seen (hbound.trans Nat.cast_zero.symm) events)
  -- Both sides are sublists of the same list without repetition, and have the same members.
  have hsub : (held.sweep now).2.keys <+ calledSince (now - rest) events := by
    have hall : ∀ key ∈ (held.sweep now).2.keys,
        (latest? key events).any (fun time => decide (now - rest ≤ time)) = true :=
      fun key hkey => (List.mem_filter.mp ((hmem key).mp hkey)).2
    rw [← List.filter_eq_self.mpr hall]
    exact hseen.filter _
  have hnodup : (calledSince (now - rest) events).Nodup := (List.nodup_dedup _).filter _
  apply hsub.eq_of_length_le
  exact (List.subperm_of_subset hnodup fun key => (hmem key).mpr).length_le

/-- One key is removed by an earlier sweep and comes back, and is removed again; of the two that
stay, the one called first was used last. -/
theorem keys_sweep_eq_calledSince_returning :
    let options : MemoryOptions ℚ := ⟨⟨10, 1⟩, 50, some 0⟩
    let events : List (Event String ℚ) := [.allow ("a", 0), .allow ("b", 90), .sweep 101,
      .look "a", .allow ("a", 110), .allow ("c", 120), .allow ("b", 130)]
    options.maxBuckets.getD 0 = 0 ∧ .clear ∉ events ∧
      (times events ++ [220]).Pairwise (· ≤ ·) ∧
      ((empty options).run (events.take 3)).keys = ["b"] ∧
      (((empty options).run events).sweep 220).2.keys = ["c", "b"] := by
  intro options events
  have hbound : options.maxBuckets.getD 0 = 0 := by decide +kernel
  have hopen : .clear ∉ events := by simp [events]
  have hforward : (times events ++ [220]).Pairwise (· ≤ ·) := by decide +kernel
  refine ⟨hbound, hopen, hforward, by decide +kernel, ?_⟩
  rw [(keys_sweep_eq_calledSince options hbound events hopen 220 hforward).1]
  decide +kernel

end Admission.MemoryStore
