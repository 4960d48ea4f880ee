import Admission.Proofs.Memory.Recency

/-!
Keys in use under a bound on the number of buckets.

A bound takes away the buckets that were used least recently. How many other keys were called since
the last call on a key therefore settles whether its bucket is still there: with fewer of them than
the bound it is, and otherwise it is not. The buckets of the other keys, which may go and be made
anew, play no part. So the calls on a key that is never left alone for longer are answered as if
there were no bound.
-/
namespace Admission.MemoryStore

open Bucket
open scoped List

variable {κ : Type} [DecidableEq κ]

/-- The keys called after the call at position `i` and before the one at position `j`. -/
def between (keys : List κ) (i j : ℕ) : List κ := (keys.take j).drop (i + 1)

/-- The calls at the positions `i` and `j` are on the key, and none between them is. -/
structure Consecutive (key : κ) (keys : List κ) (i j : ℕ) : Prop where
  first : keys[i]? = some key
  second : keys[j]? = some key
  notMem_between : key ∉ between keys i j

instance (key : κ) (keys : List κ) (i j : ℕ) : Decidable (Consecutive key keys i j) :=
  decidable_of_iff (keys[i]? = some key ∧ keys[j]? = some key ∧ key ∉ between keys i j)
    ⟨fun h => ⟨h.1, h.2.1, h.2.2⟩, fun h => ⟨h.first, h.second, h.notMem_between⟩⟩

/-- Between any two consecutive calls on the key, fewer than `m` other keys are called. -/
def InUse (m : ℕ) (key : κ) (keys : List κ) : Prop :=
  ∀ j < keys.length, ∀ i < j, Consecutive key keys i j → (between keys i j).dedup.length < m

instance (m : ℕ) (key : κ) (keys : List κ) : Decidable (InUse m key keys) :=
  inferInstanceAs (Decidable (∀ j < keys.length, ∀ i < j, Consecutive key keys i j →
    (between keys i j).dedup.length < m))

section Lists

omit [DecidableEq κ] in
/-- The last entries hold an entry if fewer follow it than are taken. -/
theorem mem_rtake_iff (front rest : List κ) {key : κ} (hrest : key ∉ rest) (m : ℕ) :
    key ∈ (front ++ key :: rest).rtake m ↔ rest.length < m := by
  constructor
  · intro hmem
    by_contra hmany
    have hsplit : front ++ key :: rest = (front ++ [key]) ++ rest := by simp
    rw [hsplit, rtake_append_of_le _ _ (not_lt.mp hmany)] at hmem
    exact hrest (List.mem_of_mem_drop hmem)
  · intro hfew
    have hlength : (front ++ key :: rest).length = front.length + (rest.length + 1) := by simp
    have hdrop : (front ++ key :: rest).drop front.length <+ (front ++ key :: rest).rtake m :=
      List.drop_sublist_drop_left _ (by omega)
    rw [List.drop_left] at hdrop
    exact hdrop.subset List.mem_cons_self

omit [DecidableEq κ] in
theorem exists_last_of_mem {keys : List κ} {key : κ} (h : key ∈ keys) :
    ∃ before after, keys = before ++ key :: after ∧ key ∉ after := by
  induction keys with
  | nil => cases h
  | cons held keys ih =>
    by_cases hlater : key ∈ keys
    · obtain ⟨before, after, rfl, hafter⟩ := ih hlater
      exact ⟨held :: before, after, rfl, hafter⟩
    · obtain rfl : key = held := (List.mem_cons.mp h).resolve_right hlater
      exact ⟨[], keys, rfl, hlater⟩

omit [DecidableEq κ] in
theorem between_append (before middle after : List κ) (key : κ) :
    between (before ++ key :: middle ++ after) before.length (before.length + 1 + middle.length) =
      middle := by
  have hlength : (before ++ key :: middle).length = before.length + 1 + middle.length := by
    rw [List.length_append, List.length_cons]
    omega
  have hsplit : before ++ key :: middle = (before ++ [key]) ++ middle := by simp
  have hstart : before.length + 1 = (before ++ [key]).length := by simp
  rw [between, ← hlength, List.take_left, hsplit, hstart, List.drop_left]

end Lists

theorem InUse.of_append {m : ℕ} {key : κ} {keys later : List κ} (h : InUse m key (keys ++ later)) :
    InUse m key keys := by
  intro j hj i hij hcalls
  have hbetween : between (keys ++ later) i j = between keys i j := by
    rw [between, between, List.take_append_of_le_length hj.le]
  have hcalls' : Consecutive key (keys ++ later) i j := by
    refine ⟨?_, ?_, hbetween ▸ hcalls.notMem_between⟩
    · rw [List.getElem?_append_left (hij.trans hj), hcalls.first]
    · rw [List.getElem?_append_left hj, hcalls.second]
  rw [← hbetween]
  exact h j (by rw [List.length_append]; omega) i hij hcalls'

/-- A key that is called now has been called when fewer other keys were. -/
theorem InUse.length_lt {m : ℕ} {key : κ} {before middle : List κ}
    (h : InUse m key (before ++ key :: middle ++ [key])) (hmiddle : key ∉ middle) :
    middle.dedup.length < m := by
  have hbetween := between_append before middle [key] key
  have hlength : (before ++ key :: middle).length = before.length + 1 + middle.length := by
    rw [List.length_append, List.length_cons]
    omega
  have hcalls : Consecutive key (before ++ key :: middle ++ [key]) before.length
      (before.length + 1 + middle.length) := by
    refine ⟨by simp, ?_, by rwa [hbetween]⟩
    rw [← hlength, List.getElem?_concat_length]
  have hnow := h (before.length + 1 + middle.length) (by simp; omega) before.length (by omega)
    hcalls
  rwa [hbetween] at hnow

section Held

variable {options : MemoryOptions ℚ} {m : ℕ}

/-- A key is held exactly if fewer other keys than the bound were called since its last call. -/
theorem mem_keys_run_iff (hm : 0 < m) (hbound : options.maxBuckets.getD 0 = (m : ℚ))
    {called : List (κ × ℚ)} {before after : List κ} {key : κ}
    (hcalled : called.map Prod.fst = before ++ key :: after) (hafter : key ∉ after) :
    key ∈ ((empty options).run (called.map .allow)).keys ↔ after.dedup.length < m := by
  have hdedup : (key :: after).dedup = key :: after.dedup := List.dedup_cons_of_notMem hafter
  obtain ⟨front, hfront⟩ := List.suffix_union_right before (key :: after).dedup
  rw [keys_run_calls hm hbound, hcalled, List.dedup_append, ← hfront, hdedup,
    mem_rtake_iff _ _ (by rwa [List.mem_dedup])]

theorem notMem_keys_run (hbound : options.maxBuckets.getD 0 = (m : ℚ)) {called : List (κ × ℚ)}
    {key : κ} (hnew : key ∉ called.map Prod.fst) :
    key ∉ ((empty options).run (called.map .allow)).keys := by
  intro hmem
  have hseen := (keys_run_sublist_seen hbound (called.map .allow)).subset hmem
  have hcalls : calls (called.map .allow) = called := by
    simp [calls, List.filterMap_map, Function.comp_def, Event.call?]
  rw [seen, hcalls, List.mem_dedup] at hseen
  exact hnew hseen

end Held

section Stores

variable {s f : MemoryStore κ ℚ} {m : ℕ} {key : κ}

theorem find?_eq_some_iff (hkeys : s.keys.Nodup) {b : Bucket ℚ} :
    s.find? key = some b ↔ (key, b) ∈ s.buckets := lookup_eq_some_iff_mem s.buckets hkeys

theorem find?_ne_none_of_mem (h : key ∈ s.keys) : s.find? key ≠ none := by
  intro hnone
  obtain ⟨entry, hentry, rfl⟩ := List.mem_map.mp h
  simpa using List.lookup_eq_none_iff.mp hnone entry hentry

/-- A bound leaves the bucket that a call has used. -/
theorem find?_allow_used (hbound : s.options.maxBuckets.getD 0 = (m : ℚ)) (hkeys : s.keys.Nodup)
    (key : κ) (now : ℚ) : (s.allow key now).store.find? key =
      some ((s.bucketFor key now).take s.options.toLimit now).2 := by
  obtain ⟨rest, -, hbuckets⟩ := buckets_allow hbound key now
  have hnodup : (s.allow key now).store.keys.Nodup := nodup_step hbound hkeys (.allow (key, now))
  rw [find?_eq_some_iff hnodup, hbuckets]
  exact List.mem_append_right rest List.mem_cons_self

/-- A call on another key may cost a key its bucket, and does not change it. -/
theorem find?_of_allow_other (hbound : s.options.maxBuckets.getD 0 = (m : ℚ))
    (hkeys : s.keys.Nodup) {other : κ} (hother : key ≠ other) {now : ℚ} {b : Bucket ℚ}
    (h : (s.allow other now).store.find? key = some b) : s.find? key = some b := by
  obtain ⟨rest, hrest, hbuckets⟩ := buckets_allow hbound other now
  have hnodup : (s.allow other now).store.keys.Nodup :=
    nodup_step hbound hkeys (.allow (other, now))
  rw [find?_eq_some_iff hnodup, hbuckets, List.mem_append, List.mem_singleton] at h
  rw [find?_eq_some_iff hkeys]
  rcases h with hmem | heq
  · exact (List.mem_filter.mp (hrest.subset hmem)).1
  · exact absurd (congrArg Prod.fst heq) hother

/-- The store `s` may have given up buckets that `f` holds. If it still has one for the key, it is
the one that `f` has. -/
structure AgreesOn (key : κ) (s f : MemoryStore κ ℚ) : Prop where
  limit_eq : s.options.toLimit = f.options.toLimit
  nodup : s.keys.Nodup
  unbounded : Unbounded f.options
  held : ∀ b, s.find? key = some b → f.find? key = some b

namespace AgreesOn

theorem allow_other (h : AgreesOn key s f) (hbound : s.options.maxBuckets.getD 0 = (m : ℚ))
    {other : κ} (hother : key ≠ other) (now : ℚ) :
    AgreesOn key (s.allow other now).store (f.allow other now).store where
  limit_eq := h.limit_eq
  nodup := nodup_step hbound h.nodup (.allow (other, now))
  unbounded := h.unbounded
  held := by
    intro b hb
    rw [find?_allow_ne f h.unbounded hother]
    exact h.held b (find?_of_allow_other hbound h.nodup hother hb)

/-- Where the key has not lost its bucket, a call on it finds the same in both stores. -/
theorem bucketFor_eq (h : AgreesOn key s f) (hlost : s.find? key = none → f.find? key = none)
    (now : ℚ) : s.bucketFor key now = f.bucketFor key now := by
  unfold bucketFor
  cases hs : s.find? key with
  | none => rw [hlost hs, h.limit_eq]
  | some b => rw [h.held b hs, Option.getD_some, Option.getD_some]

theorem allow_own (h : AgreesOn key s f) (hbound : s.options.maxBuckets.getD 0 = (m : ℚ))
    (hlost : s.find? key = none → f.find? key = none) (now : ℚ) :
    (s.allow key now).allowed = (f.allow key now).allowed ∧
      (∃ b, (s.allow key now).store.find? key = some b ∧
        (f.allow key now).store.find? key = some b) ∧
      AgreesOn key (s.allow key now).store (f.allow key now).store := by
  have htake : (s.bucketFor key now).take s.options.toLimit now =
      (f.bucketFor key now).take f.options.toLimit now := by
    rw [h.bucketFor_eq hlost now, h.limit_eq]
  have hfound : (s.allow key now).store.find? key = (f.allow key now).store.find? key := by
    rw [find?_allow_used hbound h.nodup, find?_allow_self f h.unbounded, htake]
  refine ⟨congrArg Prod.fst htake, ⟨_, find?_allow_used hbound h.nodup key now, ?_⟩, ?_⟩
  · rw [← hfound, find?_allow_used hbound h.nodup]
  · exact ⟨h.limit_eq, nodup_step hbound h.nodup (.allow (key, now)), h.unbounded,
      fun b hb => hfound.symm.trans hb⟩

end AgreesOn

end Stores

section Runs

variable {bounded unbounded : MemoryOptions ℚ} {m : ℕ} {key : κ}

theorem run_concat (options : MemoryOptions ℚ) (called : List (κ × ℚ)) (call : κ × ℚ) :
    (empty options).run ((called ++ [call]).map .allow) =
      (((empty options).run (called.map .allow)).allow call.1 call.2).store := by
  rw [List.map_append, run_append]
  rfl

/-- A key in use finds its bucket at every call, or has never been called. -/
theorem find?_eq_none_of_inUse (hm : 0 < m) (hbound : bounded.maxBuckets.getD 0 = (m : ℚ))
    (hfree : unbounded.maxBuckets.getD 0 = ((0 : ℕ) : ℚ)) {called : List (κ × ℚ)}
    (hused : InUse m key (called.map Prod.fst ++ [key]))
    (hnone : ((empty bounded).run (called.map .allow)).find? key = none) :
    ((empty unbounded).run (called.map .allow)).find? key = none := by
  have hnew : key ∉ called.map Prod.fst := by
    intro hmem
    obtain ⟨before, middle, hsplit, hmiddle⟩ := exists_last_of_mem hmem
    rw [hsplit] at hused
    have hheld := (mem_keys_run_iff hm hbound hsplit hmiddle).mpr (hused.length_lt hmiddle)
    exact find?_ne_none_of_mem hheld hnone
  exact lookup_eq_none_of_notMem _ (notMem_keys_run hfree hnew)

theorem agreesOn_run (hm : 0 < m) (hlimit : bounded.toLimit = unbounded.toLimit)
    (hbound : bounded.maxBuckets.getD 0 = (m : ℚ))
    (hfree : unbounded.maxBuckets.getD 0 = ((0 : ℕ) : ℚ)) (called : List (κ × ℚ))
    (hused : InUse m key (called.map Prod.fst)) :
    AgreesOn key ((empty bounded).run (called.map .allow))
      ((empty unbounded).run (called.map .allow)) := by
  induction called using List.reverseRecOn with
  | nil =>
    refine ⟨hlimit, List.nodup_nil, (unbounded_iff hfree).mpr rfl, ?_⟩
    intro b hb
    cases hb
  | append_singleton called call ih =>
    rw [List.map_append, List.map_singleton] at hused
    have hagrees := ih hused.of_append
    have hboundRun : ((empty bounded).run (called.map .allow)).options.maxBuckets.getD 0 =
        (m : ℚ) := by rwa [options_run]
    rw [run_concat, run_concat]
    by_cases hkey : call.1 = key
    · subst hkey
      have hlost := find?_eq_none_of_inUse hm hbound hfree hused
      exact (hagrees.allow_own hboundRun hlost call.2).2.2
    · exact hagrees.allow_other hboundRun (Ne.symm hkey) call.2

end Runs

/-- A bound on the number of buckets is not felt by a key in use: every call on it is answered as in
the store without a bound, and leaves the same bucket, whatever becomes of the other keys. -/
theorem bound_invisible (options : MemoryOptions ℚ) {m : ℕ} (hm : 0 < m) (key : κ)
    (called : List (κ × ℚ)) (hused : InUse m key (called.map Prod.fst)) :
    let bounded : MemoryStore κ ℚ := empty { options with maxBuckets := some (m : ℚ) }
    let unbounded : MemoryStore κ ℚ := empty { options with maxBuckets := some 0 }
    ∀ before now after, called = before ++ (key, now) :: after →
      let answer := (bounded.run (before.map .allow)).allow key now
      let answer' := (unbounded.run (before.map .allow)).allow key now
      answer.allowed = answer'.allowed ∧
        ∃ b, answer.store.find? key = some b ∧ answer'.store.find? key = some b := by
  rintro bounded unbounded before now after rfl answer answer'
  have hsplit : (before ++ (key, now) :: after).map Prod.fst =
      (before.map Prod.fst ++ [key]) ++ after.map Prod.fst := by simp
  rw [hsplit] at hused
  have hfree : ({ options with maxBuckets := some 0 } : MemoryOptions ℚ).maxBuckets.getD 0 =
      ((0 : ℕ) : ℚ) := Nat.cast_zero.symm
  have hbound : ({ options with maxBuckets := some (m : ℚ) } : MemoryOptions ℚ).maxBuckets.getD 0 =
      (m : ℚ) := rfl
  have hagrees := agreesOn_run hm (by rfl) hbound hfree before hused.of_append.of_append
  have hlost := find?_eq_none_of_inUse hm hbound hfree hused.of_append
  obtain ⟨hallowed, hbucket, -⟩ := hagrees.allow_own (by rw [options_run]; rfl) hlost now
  exact ⟨hallowed, hbucket⟩

/-- With room for two, a key that is called every other time keeps its bucket, while another one
loses its own and is let pass once more. -/
theorem bound_invisible_every_other :
    let options : MemoryOptions ℚ := ⟨⟨1, 1⟩, 0, none⟩
    let called : List (String × ℚ) :=
      [("a", 0), ("b", 0), ("a", 300), ("c", 400), ("a", 500), ("b", 600), ("a", 900)]
    let bounded : MemoryStore String ℚ := empty { options with maxBuckets := some (2 : ℕ) }
    let unbounded : MemoryStore String ℚ := empty { options with maxBuckets := some 0 }
    (0 < 2 ∧ InUse 2 "a" (called.map Prod.fst)) ∧
      bounded.answersOn "b" called = [true, true] ∧
      unbounded.answersOn "b" called = [true, false] ∧
      ∃ b, (bounded.run (called.map .allow)).find? "a" = some b ∧
        (unbounded.run (called.map .allow)).find? "a" = some b := by
  intro options called bounded unbounded
  have hm : 0 < 2 := by decide
  have hused : InUse 2 "a" (called.map Prod.fst) := by decide
  refine ⟨⟨hm, hused⟩, by decide +kernel, by decide +kernel, ?_⟩
  exact (bound_invisible options hm "a" called hused (called.take 6) 900 [] rfl).2

end Admission.MemoryStore
