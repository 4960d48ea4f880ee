import Admission.Key
import Admission.Memory
import Admission.Unchecked

/-!
Buckets kept in this process for callers who have checked neither their keys nor their numbers.

As long as everything can be read and written, the store does what it always does. A call or a
sweep that comes upon something else fails there, and what it has done up to that point stands.
-/
namespace Admission

namespace MemoryOptions

variable {α : Type}

/-- Options as they are handed over. Null counts as no bound. -/
def ofValues (rate capacity idleTimeout maxBuckets : Option (Value α)) :
    MemoryOptions (Unchecked α) where
  rate := ⟨rate⟩
  capacity := ⟨capacity⟩
  idleTimeout := ⟨idleTimeout⟩
  maxBuckets := match maxBuckets with
    | none | some .null => none
    | some v => some ⟨some v⟩

def unchecked (o : MemoryOptions α) : MemoryOptions (Unchecked α) where
  rate := .ofNumber o.rate
  capacity := .ofNumber o.capacity
  idleTimeout := .ofNumber o.idleTimeout
  maxBuckets := o.maxBuckets.map .ofNumber

end MemoryOptions

namespace MemoryStore

variable {α : Type} [Scalar α] [Textual α]

structure Attempt (α : Type) where
  allowed : Option Bool
  evicted : List String
  store : MemoryStore Key (Unchecked α)

/-- A call on `key`. It can fail on the bound on the number of buckets, on a key given up that has
no text to be reported by, and on the numbers of the bucket, which then stays as it is. -/
def attempt (s : MemoryStore Key (Unchecked α)) (key : Key) (now : Unchecked α) : Attempt α :=
  let touched := s.touch key now
  if s.options.maxBuckets.all Unchecked.isReadable then
    let a := s.allow key now
    let reported := (a.evicted.map Key.text?).takeWhile Option.isSome |>.filterMap id
    if reported.length < a.evicted.length then
      let rest := touched.buckets.drop (reported.length + 1)
      ⟨none, reported, { s with buckets := rest }⟩
    else if ((s.bucketFor key now).take s.options.toLimit now).2.tokens.isReadable then
      ⟨some a.allowed, reported, a.store⟩
    else ⟨none, reported, { s with buckets := (evict s.options touched.buckets).2 }⟩
  else ⟨none, [], touched⟩

/-- A sweep: the number of buckets removed, `none` if it failed, and the store afterwards. It can
fail on the options and the time before it begins, and on the last update of a bucket. -/
def attemptSweep (s : MemoryStore Key (Unchecked α)) (now : Unchecked α) :
    Option Nat × MemoryStore Key (Unchecked α) :=
  let isSound (b : Key × Bucket (Unchecked α)) : Bool := b.2.lastUpdate.isReadable
  if !(now - restTime s.options).isReadable then (none, s)
  else if s.buckets.all isSound then
    let (removed, store) := s.sweep now
    (some removed, store)
  else
    let swept := (s.buckets.takeWhile isSound).filter fun b => !s.isIdle now b.2
    (none, { s with buckets := swept ++ s.buckets.dropWhile isSound })

end MemoryStore

end Admission
