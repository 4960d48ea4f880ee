import Admission.Proofs.Memory.Run
import Mathlib.Data.List.Dedup
import Mathlib.Data.List.DropRight
import Mathlib.Data.Rat.Cast.Order
import Mathlib.Order.Bounds.Basic

/-!
The order of use in a store in memory.

The list of buckets is index and order of use at once. The keys of a run, each at the place of its
last call, are what the store would hold if it never gave anything up; whatever sweeps, closings and
the bound on the number of buckets take away, the rest stays in that order. A bound takes from the
front, so in a run of calls alone it leaves the keys used last.
-/
namespace Admission.MemoryStore

open Bucket
open scoped List

variable {κ : Type} [DecidableEq κ]

section Lists

variable {β : Type}

/-- A key that is added anew moves to the end. -/
theorem dedup_concat (keys : List κ) (key : κ) :
    (keys ++ [key]).dedup = keys.dedup.filter (· != key) ++ [key] := by
  induction keys with
  | nil => rfl
  | cons held keys ih =>
    rw [List.cons_append]
    by_cases hheld : held ∈ keys
    · rw [List.dedup_cons_of_mem (List.mem_append_left _ hheld), List.dedup_cons_of_mem hheld, ih]
    · by_cases hkey : held = key
      · subst hkey
        rw [List.dedup_cons_of_mem (by simp), List.dedup_cons_of_notMem hheld, ih]
        simp
      · rw [List.dedup_cons_of_notMem (by simp [hheld, hkey]), List.dedup_cons_of_notMem hheld, ih]
        simp [hkey]

theorem length_rtake (l : List β) (n : ℕ) : (l.rtake n).length = min n l.length := by
  rw [List.rtake, List.length_drop]
  omega

theorem rtake_append_of_le (l l' : List β) {n : ℕ} (h : n ≤ l'.length) :
    (l ++ l').rtake n = l'.rtake n := by
  have hdrop : (l ++ l').length - n = l.length + (l'.length - n) := by
    rw [List.length_append]
    omega
  rw [List.rtake, List.rtake, hdrop, List.drop_length_add_append]

theorem rtake_of_length_le {l : List β} {n : ℕ} (h : l.length ≤ n) : l.rtake n = l := by
  rw [List.rtake, Nat.sub_eq_zero_of_le h, List.drop_zero]

/-- Where no key occurs twice, a removal costs the last keys at most one place. -/
theorem rtake_filter_rtake_succ (keys : List κ) (hkeys : keys.Nodup) (key : κ) (n : ℕ) :
    ((keys.rtake (n + 1)).filter (· != key)).rtake n = (keys.filter (· != key)).rtake n := by
  rcases Nat.lt_or_ge n keys.length with hlength | hlength
  · set last := keys.rtake (n + 1) with hlast
    have hsplit : keys = keys.take (keys.length - (n + 1)) ++ last :=
      (List.take_append_drop (keys.length - (n + 1)) keys).symm
    have hlastLength : last.length = n + 1 := by
      rw [hlast, length_rtake]
      omega
    have hnodup : last.Nodup := hkeys.sublist (List.drop_sublist _ _)
    have hfiltered : n ≤ (last.filter (· != key)).length := by
      rw [← hnodup.erase_eq_filter, List.length_erase]
      split <;> omega
    conv_rhs => rw [hsplit, List.filter_append, rtake_append_of_le _ _ hfiltered]
  · rw [rtake_of_length_le (by omega : keys.length ≤ n + 1)]

omit [DecidableEq κ] in
theorem getLast?_of_sublist {keys front : List κ} {key : κ} (h : keys <+ front ++ [key])
    (hnodup : (front ++ [key]).Nodup) (hmem : key ∈ keys) : keys.getLast? = some key := by
  have hfront : key ∉ front :=
    fun hkey => (List.nodup_append.mp hnodup).2.2 key hkey key (by simp) rfl
  obtain ⟨before, last, rfl, hbefore, hlast⟩ := List.sublist_append_iff.mp h
  rcases List.sublist_singleton.mp hlast with rfl | rfl
  · exact absurd (hbefore.subset (by simpa using hmem)) hfront
  · exact List.getLast?_concat

end Lists

section Eviction

variable {options : MemoryOptions ℚ}

omit [DecidableEq κ] in
theorem overflow_snd (m : ℕ) (buckets : List (κ × Bucket ℚ)) :
    (overflow (m : ℚ) buckets).2 = buckets.rtake m := by
  induction buckets with
  | nil => simp [overflow]
  | cons b bs ih =>
    have hcount : (Scalar.count (bs.length + 1) ≤ (m : ℚ)) ↔ bs.length + 1 ≤ m := Nat.cast_le
    rw [overflow]
    split
    · rename_i hfits
      exact (rtake_of_length_le (hcount.mp hfits)).symm
    · rename_i hfull
      have hm : m ≤ bs.length := by
        have hmany := Nat.lt_of_not_le (mt hcount.mpr hfull)
        omega
      exact ih.trans (rtake_append_of_le [b] bs hm).symm

omit [DecidableEq κ] in
theorem unbounded_iff {m : ℕ} (hbound : options.maxBuckets.getD 0 = (m : ℚ)) :
    Unbounded options ↔ m = 0 := by
  unfold Unbounded
  rw [hbound]
  exact ⟨fun h => Nat.le_zero.mp (Nat.cast_le.mp (h.trans_eq Nat.cast_zero.symm)),
    fun h => h ▸ Nat.cast_zero.le⟩

omit [DecidableEq κ] in
theorem evict_snd {m : ℕ} (hbound : options.maxBuckets.getD 0 = (m : ℚ))
    (buckets : List (κ × Bucket ℚ)) :
    (evict options buckets).2 = if m = 0 then buckets else buckets.rtake m := by
  by_cases hm : m = 0
  · rw [evict_of_unbounded ((unbounded_iff hbound).mpr hm), if_pos hm]
  · rw [evict_of_not_unbounded (mt (unbounded_iff hbound).mp hm), hbound, overflow_snd, if_neg hm]

omit [DecidableEq κ] in
theorem evict_concat_of_bound {n : ℕ} (hbound : options.maxBuckets.getD 0 = ((n + 1 : ℕ) : ℚ))
    (buckets : List (κ × Bucket ℚ)) (used : κ × Bucket ℚ) :
    (evict options (buckets ++ [used])).2 = buckets.rtake n ++ [used] := by
  rw [evict_snd hbound, if_neg n.succ_ne_zero, List.rtake_concat_succ]

omit [DecidableEq κ] in
/-- What is given up stood at the front, and never the bucket used last. -/
theorem evict_concat {m : ℕ} (hbound : options.maxBuckets.getD 0 = (m : ℚ))
    (buckets : List (κ × Bucket ℚ)) (used : κ × Bucket ℚ) :
    ∃ rest, rest <:+ buckets ∧ (evict options (buckets ++ [used])).2 = rest ++ [used] := by
  cases m with
  | zero => exact ⟨buckets, List.suffix_refl _, (evict_snd hbound _).trans (if_pos rfl)⟩
  | succ n => exact ⟨buckets.rtake n, List.drop_suffix _ _, evict_concat_of_bound hbound _ _⟩

end Eviction

/-- The call that an operation makes. -/
def Event.call? {α : Type} : Event κ α → Option (κ × α)
  | .allow call => some call
  | _ => none

/-- The calls of a run, in their order. -/
def calls {α : Type} (events : List (Event κ α)) : List (κ × α) := events.filterMap Event.call?

/-- The keys called in a run, each at the place of its last call. -/
def seen {α : Type} (events : List (Event κ α)) : List κ := ((calls events).map Prod.fst).dedup

omit [DecidableEq κ] in
@[simp] theorem call?_eq_some {α : Type} {event : Event κ α} {call : κ × α} :
    event.call? = some call ↔ event = .allow call := by
  cases event <;> simp [Event.call?]

section Steps

variable {options : MemoryOptions ℚ} {m : ℕ} {s : MemoryStore κ ℚ}

/-- A call gives up buckets of other keys from the front, and puts its own at the end. -/
theorem buckets_allow (hbound : s.options.maxBuckets.getD 0 = (m : ℚ)) (key : κ) (now : ℚ) :
    ∃ rest, rest <:+ s.buckets.filter (·.1 != key) ∧
      (s.allow key now).store.buckets =
        rest ++ [(key, ((s.bucketFor key now).take s.options.toLimit now).2)] :=
  evict_concat hbound _ _

theorem keys_allow (hbound : s.options.maxBuckets.getD 0 = (m : ℚ)) (key : κ) (now : ℚ) :
    ∃ rest, rest <:+ s.keys.filter (· != key) ∧
      (s.allow key now).store.keys = rest ++ [key] := by
  obtain ⟨rest, hrest, hbuckets⟩ := buckets_allow hbound key now
  refine ⟨rest.map Prod.fst, ?_, ?_⟩
  · rw [keys, List.filter_map]
    exact hrest.map Prod.fst
  · rw [keys, hbuckets, List.map_append]
    rfl

theorem getLast?_keys_allow (hbound : s.options.maxBuckets.getD 0 = (m : ℚ)) (key : κ) (now : ℚ) :
    (s.allow key now).store.keys.getLast? = some key := by
  obtain ⟨rest, -, hkeys⟩ := keys_allow hbound key now
  rw [hkeys, List.getLast?_concat]

/-- Without a call buckets may go, and none comes or moves. -/
theorem buckets_step_sublist {event : Event κ ℚ} (hcall : event.call? = none) :
    (s.step event).buckets <+ s.buckets := by
  cases event with
  | allow call => cases hcall
  | sweep now => exact List.filter_sublist
  | look key => exact List.Sublist.refl _
  | clear => exact List.nil_sublist _

theorem keys_step_sublist {event : Event κ ℚ} (hcall : event.call? = none) :
    (s.step event).keys <+ s.keys := (buckets_step_sublist hcall).map Prod.fst

theorem nodup_step (hbound : s.options.maxBuckets.getD 0 = (m : ℚ)) (hkeys : s.keys.Nodup)
    (event : Event κ ℚ) : (s.step event).keys.Nodup := by
  cases hcall : event.call? with
  | none => exact hkeys.sublist (keys_step_sublist hcall)
  | some call =>
    obtain rfl := call?_eq_some.mp hcall
    obtain ⟨rest, hrest, hallow⟩ := keys_allow hbound call.1 call.2
    show (s.allow call.1 call.2).store.keys.Nodup
    rw [hallow, List.nodup_append_comm, List.singleton_append, List.nodup_cons]
    refine ⟨fun hmem => ?_, (hkeys.filter _).sublist hrest.sublist⟩
    simpa using hrest.subset hmem

/-- The keys held stay in the order of their last calls. -/
theorem keys_step_sublist_seen (hbound : s.options.maxBuckets.getD 0 = (m : ℚ))
    {events : List (Event κ ℚ)} (horder : s.keys <+ seen events) (event : Event κ ℚ) :
    (s.step event).keys <+ seen (events ++ [event]) := by
  cases hcall : event.call? with
  | none =>
    have hseen : seen (events ++ [event]) = seen events := by
      simp [seen, calls, hcall]
    rw [hseen]
    exact (keys_step_sublist hcall).trans horder
  | some call =>
    have hseen : seen (events ++ [event]) = (seen events).filter (· != call.1) ++ [call.1] := by
      rw [seen, seen, ← dedup_concat]
      simp [calls, hcall]
    obtain rfl := call?_eq_some.mp hcall
    obtain ⟨rest, hrest, hallow⟩ := keys_allow hbound call.1 call.2
    show (s.allow call.1 call.2).store.keys <+ _
    rw [hallow, hseen]
    exact (hrest.sublist.trans (horder.filter _)).append (List.Sublist.refl _)

theorem size_step_le (hbound : s.options.maxBuckets.getD 0 = (m : ℚ)) (hm : 0 < m)
    (hsize : s.size ≤ m) (event : Event κ ℚ) : (s.step event).size ≤ m := by
  cases hcall : event.call? with
  | none => exact (buckets_step_sublist hcall).length_le.trans hsize
  | some call =>
    obtain rfl := call?_eq_some.mp hcall
    show (evict s.options _).2.length ≤ m
    rw [evict_snd hbound, if_neg hm.ne', length_rtake]
    exact min_le_left _ _

/-- The key used last stays the last one held until a sweep or a closing removes it. -/
theorem getLast?_step_or_removed {key : κ} (hkeys : s.keys.Nodup)
    (hlast : s.keys.getLast? = some key) {event : Event κ ℚ} (hcall : event.call? = none) :
    (s.step event).keys.getLast? = some key ∨
      (event.isSweep = true ∨ event = .clear) ∧ key ∉ (s.step event).keys := by
  by_cases hmem : key ∈ (s.step event).keys
  · left
    obtain ⟨front, hfront⟩ := List.getLast?_eq_some_iff.mp hlast
    rw [hfront] at hkeys
    exact getLast?_of_sublist (hfront ▸ keys_step_sublist hcall) hkeys hmem
  · right
    refine ⟨?_, hmem⟩
    cases event with
    | allow call => cases hcall
    | sweep now => exact .inl rfl
    | look other => exact absurd (List.mem_of_getLast? hlast) hmem
    | clear => exact .inr rfl

/-- A key that is not held comes back with a call only. -/
theorem notMem_run {key : κ} (hkey : key ∉ s.keys) {events : List (Event κ ℚ)}
    (hcalls : calls events = []) : key ∉ (s.run events).keys := by
  induction events generalizing s with
  | nil => exact hkey
  | cons event events ih =>
    obtain ⟨hcall, hcalls⟩ : event.call? = none ∧ calls events = [] := by
      simpa [calls, List.filterMap_eq_nil_iff] using hcalls
    exact ih (fun hmem => hkey ((keys_step_sublist hcall).subset hmem)) hcalls

theorem getLast?_run_or_removed {key : κ} (hkeys : s.keys.Nodup)
    (hlast : s.keys.getLast? = some key) {events : List (Event κ ℚ)} (hcalls : calls events = []) :
    (s.run events).keys.getLast? = some key ∨
      key ∉ (s.run events).keys ∧ ∃ before event after, events = before ++ event :: after ∧
        (event.isSweep = true ∨ event = .clear) ∧ (s.run before).keys.getLast? = some key ∧
        key ∉ (s.run (before ++ [event])).keys := by
  induction events generalizing s with
  | nil => exact .inl hlast
  | cons event events ih =>
    obtain ⟨hcall, hcalls⟩ : event.call? = none ∧ calls events = [] := by
      simpa [calls, List.filterMap_eq_nil_iff] using hcalls
    rcases getLast?_step_or_removed hkeys hlast hcall with hstep | ⟨hremoves, hgone⟩
    · rcases ih (hkeys.sublist (keys_step_sublist hcall)) hstep hcalls with
        hrun | ⟨hgone, before, removal, after, rfl, hremoves, hbefore, hafter⟩
      · exact .inl hrun
      · exact .inr ⟨hgone, event :: before, removal, after, rfl, hremoves, hbefore, hafter⟩
    · exact .inr ⟨notMem_run hgone hcalls, [], event, events, rfl, hremoves, hlast, hgone⟩

end Steps

section Runs

variable {options : MemoryOptions ℚ} {m : ℕ}
  (hbound : options.maxBuckets.getD 0 = (m : ℚ)) (events : List (Event κ ℚ))

include hbound

theorem nodup_run : ((empty options).run events).keys.Nodup := by
  induction events using List.reverseRecOn with
  | nil => exact List.nodup_nil
  | append_singleton events event ih =>
    rw [run_append]
    exact nodup_step (by rwa [options_run]) ih event

theorem keys_run_sublist_seen : ((empty options).run events).keys <+ seen events := by
  induction events using List.reverseRecOn with
  | nil => exact List.Sublist.refl _
  | append_singleton events event ih =>
    rw [run_append]
    exact keys_step_sublist_seen (by rwa [options_run]) ih event

theorem size_run_le (hm : 0 < m) : ((empty options).run events).size ≤ m := by
  induction events using List.reverseRecOn with
  | nil => exact Nat.zero_le m
  | append_singleton events event ih =>
    rw [run_append]
    exact size_step_le (by rwa [options_run]) hm ih event

end Runs

section Buckets

variable {options : MemoryOptions ℚ} {m : ℕ}

/-- What a run has been to a key since the call at `first` that made its bucket: the key had none
before, has had one ever since, and `last` is the latest time it was called at. -/
structure Since (options : MemoryOptions ℚ) (before : List (Event κ ℚ)) (key : κ) (first : ℚ)
    (since : List (Event κ ℚ)) (last : ℚ) : Prop where
  fresh : key ∉ ((empty options).run before).keys
  held : ∀ part, part <+: since →
    key ∈ ((empty options).run (before ++ .allow (key, first) :: part)).keys
  last_isGreatest : IsGreatest {time | .allow (key, time) ∈ .allow (key, first) :: since} last

/-- What is known of the bucket of a key after a run: its tokens are within the capacity, and its
last update is the latest time of a call since it was made. -/
structure Sound (options : MemoryOptions ℚ) (events : List (Event κ ℚ)) (key : κ) (b : Bucket ℚ) :
    Prop where
  tokens_nonneg : 0 ≤ b.tokens
  tokens_le : b.tokens ≤ options.capacity
  made : ∃ before first since, events = before ++ .allow (key, first) :: since ∧
    Since options before key first since b.lastUpdate

theorem Since.concat {before since : List (Event κ ℚ)} {key : κ} {first last last' : ℚ}
    (h : Since options before key first since last) {event : Event κ ℚ}
    (hheld : key ∈ ((empty options).run
      ((before ++ .allow (key, first) :: since) ++ [event])).keys)
    (hlast : ∀ times, IsGreatest times last →
      IsGreatest {time | time ∈ times ∨ event = .allow (key, time)} last') :
    Since options before key first (since ++ [event]) last' where
  fresh := h.fresh
  held := by
    intro part hpart
    rcases List.prefix_concat_iff.mp hpart with rfl | hpart
    · simpa using hheld
    · exact h.held part hpart
  last_isGreatest := by
    have hgreatest := hlast _ h.last_isGreatest
    simpa [or_assoc, eq_comm] using hgreatest

/-- An operation that leaves a bucket alone leaves it sound. -/
theorem Sound.concat {events : List (Event κ ℚ)} {key : κ} {b : Bucket ℚ}
    (h : Sound options events key b) {event : Event κ ℚ}
    (hheld : key ∈ ((empty options).run (events ++ [event])).keys)
    (hother : ∀ time, event ≠ .allow (key, time)) : Sound options (events ++ [event]) key b where
  tokens_nonneg := h.tokens_nonneg
  tokens_le := h.tokens_le
  made := by
    obtain ⟨before, first, since, rfl, hsince⟩ := h.made
    refine ⟨before, first, since ++ [event], by simp, hsince.concat hheld ?_⟩
    intro times htimes
    simpa [hother] using htimes

variable (hrate : 0 ≤ options.rate) (hcapacity : 0 ≤ options.capacity)

include hrate hcapacity in
/-- A call leaves its own bucket sound, whether it finds the bucket or makes it. -/
theorem sound_allow {events : List (Event κ ℚ)} {key : κ} {now : ℚ}
    (hsound : ∀ b, ((empty options).run events).find? key = some b → Sound options events key b)
    (hheld : key ∈ ((empty options).run (events ++ [.allow (key, now)])).keys) :
    Sound options (events ++ [.allow (key, now)]) key
      ((((empty options).run events).bucketFor key now).take options.toLimit now).2 := by
  set s : MemoryStore κ ℚ := (empty options).run events with hs
  have hoptions : s.options = options := options_run _ _
  have hnonneg : 0 ≤ (s.bucketFor key now).tokens :=
    s.bucketFor_of key now (hoptions ▸ full_tokens_nonneg hcapacity now)
      fun b hb => (hsound b hb).tokens_nonneg
  refine ⟨take_tokens_nonneg hrate hcapacity hnonneg now, take_tokens_le _ _ _, ?_⟩
  rw [take_lastUpdate]
  cases hfound : s.find? key with
  | none =>
    have hfull : s.bucketFor key now = full options.toLimit now := by
      rw [bucketFor, hfound, hoptions, Option.getD_none]
    have hfresh : key ∉ s.keys := by
      rw [find?, List.lookup_eq_none_iff] at hfound
      rw [keys, List.mem_map]
      rintro ⟨entry, hentry, rfl⟩
      simpa using hfound entry hentry
    refine ⟨events, now, [], rfl, hfresh, ?_, ?_⟩
    · intro part hpart
      rw [List.prefix_nil.mp hpart]
      exact hheld
    · simp [hfull, full]
  | some b =>
    have hbucket : s.bucketFor key now = b := by
      rw [bucketFor, hfound, Option.getD_some]
    obtain ⟨before, first, since, rfl, hsince⟩ := (hsound b hfound).made
    refine ⟨before, first, since ++ [.allow (key, now)], by simp, hsince.concat hheld ?_⟩
    intro times htimes
    have hinsert := htimes.insert now
    rw [hbucket, max_comm]
    simpa [Set.insert_def, or_comm, eq_comm] using hinsert

include hrate hcapacity in
theorem sound_run (hbound : options.maxBuckets.getD 0 = (m : ℚ)) (events : List (Event κ ℚ)) :
    ∀ entry ∈ ((empty options).run events).buckets, Sound options events entry.1 entry.2 := by
  induction events using List.reverseRecOn with
  | nil =>
    intro entry hentry
    cases hentry
  | append_singleton events event ih =>
    set s : MemoryStore κ ℚ := (empty options).run events with hs
    have hrun : (empty options).run (events ++ [event]) = s.step event := run_append _ _ _
    intro entry hentry
    have hheld : entry.1 ∈ ((empty options).run (events ++ [event])).keys :=
      List.mem_map_of_mem hentry
    rw [hrun] at hentry
    cases hcall : event.call? with
    | none =>
      refine (ih entry ((buckets_step_sublist hcall).subset hentry)).concat hheld ?_
      rintro time rfl
      cases hcall
    | some call =>
      obtain rfl := call?_eq_some.mp hcall
      have hoptions : s.options = options := options_run _ _
      obtain ⟨rest, hrest, hbuckets⟩ := buckets_allow (hoptions ▸ hbound) call.1 call.2
      have hentry : entry ∈ (s.allow call.1 call.2).store.buckets := hentry
      rw [hbuckets, List.mem_append, List.mem_singleton] at hentry
      rcases hentry with hentry | rfl
      · obtain ⟨hmem, hother⟩ := List.mem_filter.mp (hrest.subset hentry)
        refine (ih entry hmem).concat hheld ?_
        rintro time htime
        obtain rfl := Event.allow.inj htime
        simp at hother
      · rw [hoptions]
        refine sound_allow hrate hcapacity (fun b hb => ?_) hheld
        obtain ⟨front, back, heq, -⟩ := List.lookup_eq_some_iff.mp hb
        exact ih (call.1, b) (heq ▸ List.mem_append_right _ List.mem_cons_self)

end Buckets

theorem keys_allow_of_bound {s : MemoryStore κ ℚ} {n : ℕ}
    (hbound : s.options.maxBuckets.getD 0 = ((n + 1 : ℕ) : ℚ)) (key : κ) (now : ℚ) :
    (s.allow key now).store.keys = (s.keys.filter (· != key)).rtake n ++ [key] := by
  have hbuckets : (s.allow key now).store.buckets =
      (s.buckets.filter (·.1 != key)).rtake n ++
        [(key, ((s.bucketFor key now).take s.options.toLimit now).2)] :=
    evict_concat_of_bound hbound _ _
  rw [keys, hbuckets, List.map_append, List.rtake, List.map_drop, ← List.length_map Prod.fst, keys,
    List.filter_map]
  rfl

/-- In a run of calls alone a bound leaves the keys used last. -/
theorem keys_run_calls {options : MemoryOptions ℚ} {m : ℕ} (hm : 0 < m)
    (hbound : options.maxBuckets.getD 0 = (m : ℚ)) (called : List (κ × ℚ)) :
    ((empty options).run (called.map .allow)).keys = (called.map Prod.fst).dedup.rtake m := by
  obtain ⟨n, rfl⟩ := Nat.exists_eq_succ_of_ne_zero hm.ne'
  induction called using List.reverseRecOn with
  | nil => simp [empty, keys]
  | append_singleton called call ih =>
    set s : MemoryStore κ ℚ := (empty options).run (called.map .allow) with hs
    have hrun : (empty options).run ((called ++ [call]).map .allow) =
        (s.allow call.1 call.2).store := by
      rw [List.map_append, run_append]
      rfl
    have hoptions : s.options = options := options_run _ _
    rw [hrun, keys_allow_of_bound (hoptions ▸ hbound), ih,
      rtake_filter_rtake_succ _ (List.nodup_dedup _), List.map_append, List.map_singleton,
      dedup_concat, List.rtake_concat_succ]

/-- The buckets of a store, after any run from an empty one. No key occurs twice, and the keys held
stand in the order of their last calls, for the keys called are listed each at the place of its last
call. The key called last stands last until a sweep or a closing removes it. A bucket's tokens are
within the capacity, and its last update is the latest time of a call since it was made. A bound on
the number of buckets holds, and in a run of calls alone it leaves the keys used last. -/
theorem order_of_use (options : MemoryOptions ℚ) (hrate : 0 ≤ options.rate)
    (hcapacity : 0 ≤ options.capacity) (m : ℕ) (hbound : options.maxBuckets.getD 0 = (m : ℚ))
    (events : List (Event κ ℚ)) :
    let held := (empty options : MemoryStore κ ℚ).run
    (held events).keys.Nodup ∧
    (held events).keys <+ ((calls events).map Prod.fst).dedup ∧
    (∀ before key now after, events = before ++ .allow (key, now) :: after → calls after = [] →
      let called := before ++ [.allow (key, now)]
      (held called).keys.getLast? = some key ∧
      ((held events).keys.getLast? = some key ∨
        key ∉ (held events).keys ∧ ∃ part removal rest, after = part ++ removal :: rest ∧
          (removal.isSweep = true ∨ removal = .clear) ∧
          (held (called ++ part)).keys.getLast? = some key ∧
          key ∉ (held (called ++ part ++ [removal])).keys)) ∧
    (∀ key b, (key, b) ∈ (held events).buckets →
      0 ≤ b.tokens ∧ b.tokens ≤ options.capacity ∧
      ∃ before first since, events = before ++ .allow (key, first) :: since ∧
        key ∉ (held before).keys ∧
        (∀ part, part <+: since → key ∈ (held (before ++ .allow (key, first) :: part)).keys) ∧
        IsGreatest {time | .allow (key, time) ∈ .allow (key, first) :: since} b.lastUpdate) ∧
    (0 < m → (held events).size ≤ m) ∧
    (∀ called : List (κ × ℚ), 0 < m → events = called.map .allow →
      (held events).keys = (called.map Prod.fst).dedup.rtake m ∧
      (held events).size = min m (called.map Prod.fst).dedup.length) := by
  intro held
  refine ⟨nodup_run hbound events, keys_run_sublist_seen hbound events, ?_, ?_, ?_, ?_⟩
  · rintro before key now after rfl hcalls called
    have hlast : (held called).keys.getLast? = some key := by
      have hstep : held called = ((held before).allow key now).store := run_append _ _ _
      have hoptions : (held before).options = options := options_run _ _
      rw [hstep]
      exact getLast?_keys_allow (hoptions ▸ hbound) key now
    have hrest : ∀ part, held (called ++ part) = (held called).run part := run_append _ _
    have hevents : before ++ .allow (key, now) :: after = called ++ after := by simp [called]
    rw [hevents, hrest]
    refine ⟨hlast, ?_⟩
    rcases getLast?_run_or_removed (nodup_run hbound called) hlast hcalls with
      hrun | ⟨hgone, part, removal, rest, hsplit, hremoves, hpart, hremoved⟩
    · exact .inl hrun
    · refine .inr ⟨hgone, part, removal, rest, hsplit, hremoves, ?_, ?_⟩
      · rw [hrest]
        exact hpart
      · rw [List.append_assoc, hrest]
        exact hremoved
  · intro key b hb
    have hsound := sound_run hrate hcapacity hbound events (key, b) hb
    obtain ⟨before, first, since, hsplit, hsince⟩ := hsound.made
    exact ⟨hsound.tokens_nonneg, hsound.tokens_le, before, first, since, hsplit, hsince.fresh,
      hsince.held, hsince.last_isGreatest⟩
  · exact fun hm => size_run_le hbound events hm
  · rintro called hm rfl
    have hkeys := keys_run_calls hm hbound called
    refine ⟨hkeys, ?_⟩
    rw [size, ← List.length_map Prod.fst]
    exact (congrArg List.length hkeys).trans (length_rtake _ _)

/-- With room for two, the third key takes the place of the one used least recently, which is not
the one called first; a sweep then leaves a key its place. -/
theorem order_of_use_room_for_two :
    let options : MemoryOptions ℚ := ⟨⟨10, 2⟩, 0, some 2⟩
    let called : List (String × ℚ) := [("a", 1000), ("b", 900), ("a", 950), ("c", 2000)]
    let run := (empty options).run
    0 ≤ options.rate ∧ 0 ≤ options.capacity ∧ options.maxBuckets.getD 0 = ((2 : ℕ) : ℚ) ∧
      (run (called.map .allow)).keys = ["a", "c"] ∧
      (run (called.map .allow ++ [.sweep 1500])).keys.getLast? = some "c" := by
  intro options called run
  have hrate : 0 ≤ options.rate := by decide +kernel
  have hcapacity : 0 ≤ options.capacity := by decide +kernel
  have hbound : options.maxBuckets.getD 0 = ((2 : ℕ) : ℚ) := by decide +kernel
  refine ⟨hrate, hcapacity, hbound, ?_, ?_⟩
  · have horder := order_of_use options hrate hcapacity 2 hbound (called.map .allow)
    rw [(horder.2.2.2.2.2 called (by decide) rfl).1]
    decide +kernel
  · have horder :=
      order_of_use options hrate hcapacity 2 hbound (called.map .allow ++ [.sweep 1500])
    have hlast := (horder.2.2.1 ([("a", 1000), ("b", 900), ("a", 950)].map .allow) "c" 2000
      [.sweep 1500] rfl rfl).2
    exact hlast.resolve_right fun hgone => absurd hgone.1 (by decide +kernel)

end Admission.MemoryStore
