import Admission.Memory
import Admission.Proofs.Association
import Admission.Proofs.Bucket.Windows

/-!
Runs of a store in memory.

A run is what callers make of a store: calls, sweeps, look-ups and closings in any order. Seen from
one key, every operation is a step on the bucket of that key, if it has one; in a store without a
bound on its buckets no other key has a part in it. The answers to a key are therefore those of one
bucket, whatever happens to the rest of the store.
-/
namespace Admission.MemoryStore

variable {κ α : Type} [DecidableEq κ] [Scalar α]

/-- An operation on a store. -/
inductive Event (κ α : Type) where
  /-- A call on a key at a time. -/
  | allow (call : κ × α)
  | sweep (now : α)
  /-- A look at the bucket of a key. -/
  | look (key : κ)
  | clear

def Event.isSweep : Event κ α → Bool
  | .sweep _ => true
  | _ => false

/-- Whether an operation may bring about or change the bucket of a key otherwise than by a sweep. -/
def Event.concerns (key : κ) : Event κ α → Bool
  | .allow call => call.1 = key
  | .clear => true
  | _ => false

def step (s : MemoryStore κ α) : Event κ α → MemoryStore κ α
  | .allow call => (s.allow call.1 call.2).store
  | .sweep now => (s.sweep now).2
  | .look _ => s
  | .clear => s.clear

def run (s : MemoryStore κ α) (events : List (Event κ α)) : MemoryStore κ α := events.foldl step s

/-- The run with its sweeps left out. -/
def unswept (events : List (Event κ α)) : List (Event κ α) := events.filter fun e => !e.isSweep

/-- The answers to the calls of a run. -/
def answers (s : MemoryStore κ α) : List (Event κ α) → List Bool
  | [] => []
  | .allow call :: events =>
    (s.allow call.1 call.2).allowed :: answers (s.step (.allow call)) events
  | event :: events => answers (s.step event) events

/-- The answers to calls made one after the other, with nothing in between. -/
def callAnswers (s : MemoryStore κ α) (calls : List (κ × α)) : List Bool :=
  s.answers (calls.map .allow)

/-- The times of the calls on a key. -/
def timesOn (key : κ) (calls : List (κ × α)) : List α :=
  (calls.filter fun call => call.1 = key).map Prod.snd

/-- The answers to the calls on a key. -/
def answersOn (s : MemoryStore κ α) (key : κ) (calls : List (κ × α)) : List Bool :=
  ((calls.zip (s.callAnswers calls)).filter fun c => c.1.1 = key).map Prod.snd

/-- There is no bound on the number of buckets. -/
def Unbounded (options : MemoryOptions α) : Prop := options.maxBuckets.getD 0 ≤ 0

instance (options : MemoryOptions α) : Decidable (Unbounded options) :=
  inferInstanceAs (Decidable (options.maxBuckets.getD 0 ≤ 0))

@[simp] theorem run_nil (s : MemoryStore κ α) : s.run [] = s := rfl

@[simp] theorem run_cons (s : MemoryStore κ α) (event : Event κ α) (events : List (Event κ α)) :
    s.run (event :: events) = (s.step event).run events := rfl

theorem run_append (s : MemoryStore κ α) (before after : List (Event κ α)) :
    s.run (before ++ after) = (s.run before).run after := List.foldl_append

omit [DecidableEq κ] in
theorem evict_of_unbounded {options : MemoryOptions α} (h : Unbounded options)
    (buckets : List (κ × Bucket α)) : evict options buckets = ([], buckets) := by
  unfold evict
  exact if_pos h

omit [DecidableEq κ] in
theorem evict_of_not_unbounded {options : MemoryOptions α} (h : ¬ Unbounded options)
    (buckets : List (κ × Bucket α)) :
    evict options buckets = overflow (options.maxBuckets.getD 0) buckets := by
  unfold evict
  exact if_neg h

omit [Scalar α] in
/-- What holds of a full bucket and of the one that a key has holds of the one that a call finds. -/
theorem bucketFor_of (s : MemoryStore κ α) (key : κ) (now : α) {P : Bucket α → Prop}
    (hfull : P (Bucket.full s.options.toLimit now)) (hheld : ∀ b, s.find? key = some b → P b) :
    P (s.bucketFor key now) := by
  unfold bucketFor
  cases hfound : s.find? key with
  | none => exact hfull
  | some b => exact hheld b hfound

theorem find?_allow (s : MemoryStore κ α) (h : Unbounded s.options) (key other : κ) (now : α) :
    (s.allow key now).store.find? other =
      if other = key then some ((s.bucketFor key now).take s.options.toLimit now).2
      else s.find? other := by
  simp only [allow, evict_of_unbounded h, find?, List.lookup_append, lookup_filter_ne]
  by_cases hother : other = key
  · simp [hother]
  · simp [hother, lookup_pair_cons]

@[simp] theorem find?_allow_self (s : MemoryStore κ α) (h : Unbounded s.options) (key : κ)
    (now : α) : (s.allow key now).store.find? key =
      some ((s.bucketFor key now).take s.options.toLimit now).2 := by
  rw [find?_allow s h, if_pos rfl]

theorem find?_allow_ne (s : MemoryStore κ α) (h : Unbounded s.options) {key other : κ}
    (hne : other ≠ key) (now : α) : (s.allow key now).store.find? other = s.find? other := by
  rw [find?_allow s h, if_neg hne]

@[simp] theorem options_step (s : MemoryStore κ α) (event : Event κ α) :
    (s.step event).options = s.options := by
  cases event <;> rfl

@[simp] theorem options_run (s : MemoryStore κ α) (events : List (Event κ α)) :
    (s.run events).options = s.options := by
  induction events generalizing s with
  | nil => rfl
  | cons event events ih => rw [run_cons, ih, options_step]

theorem nodup_allow (s : MemoryStore κ α) (h : Unbounded s.options) (hkeys : s.keys.Nodup)
    (key : κ) (now : α) : (s.allow key now).store.keys.Nodup := by
  simp only [keys, allow, evict_of_unbounded h, List.map_append, List.map_cons, List.map_nil]
  rw [List.nodup_append_comm, List.singleton_append, List.nodup_cons]
  constructor
  · simp [List.mem_map, List.mem_filter]
  · exact hkeys.sublist (List.filter_sublist.map Prod.fst)

omit [DecidableEq κ] in
theorem nodup_sweep (s : MemoryStore κ α) (hkeys : s.keys.Nodup) (now : α) :
    (s.sweep now).2.keys.Nodup :=
  hkeys.sublist (List.filter_sublist.map Prod.fst)

theorem find?_sweep (s : MemoryStore κ α) (hkeys : s.keys.Nodup) (now : α) (key : κ) :
    (s.sweep now).2.find? key = (s.find? key).filter fun b => !s.isIdle now b :=
  lookup_filter_of_nodup s.buckets hkeys (fun b => !s.isIdle now b) key

/-- A store without a bound answers a key as if it held nothing else. -/
theorem answersOn_eq (s : MemoryStore κ α) (h : Unbounded s.options) (key : κ)
    (calls : List (κ × α)) :
    s.answersOn key calls =
      Bucket.answersOf s.options.toLimit (s.find? key) (timesOn key calls) := by
  induction calls generalizing s with
  | nil => cases s.find? key <;> rfl
  | cons call calls ih =>
    have hrest := ih (s.allow call.1 call.2).store h
    have hcons : s.callAnswers (call :: calls) =
        (s.allow call.1 call.2).allowed ::
          (s.allow call.1 call.2).store.callAnswers calls := rfl
    unfold answersOn at hrest ⊢
    unfold timesOn at hrest ⊢
    by_cases hkey : call.1 = key
    · subst hkey
      rw [find?_allow_self s h] at hrest
      simp only [hcons, List.zip_cons_cons, decide_true, List.filter_cons_of_pos, List.map_cons,
        Bucket.answersOf_cons, hrest]
      rfl
    · rw [find?_allow_ne s h (Ne.symm hkey)] at hrest
      simp only [hcons, List.zip_cons_cons, hkey, decide_false, Bool.false_eq_true,
        not_false_eq_true, List.filter_cons_of_neg, hrest]
      rfl

end Admission.MemoryStore
