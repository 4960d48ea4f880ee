import Admission.Bucket
import Admission.Number.Scalar

/-!
Buckets kept in this process.

The buckets stand in order of use, least recently used first, so that the front of the list is what
a full store gives up. A call on a key moves its bucket to the end, or puts a full one there.
Sweeping removes the buckets that nobody has used for so long that they are full again. Anything
that can be told apart serves as a key.
-/
namespace Admission

structure MemoryOptions (α : Type) extends Limit α where
  idleTimeout : α
  /-- The most buckets held; unbounded when missing or not positive. -/
  maxBuckets : Option α

structure MemoryStore (κ α : Type) where
  options : MemoryOptions α
  /-- Least recently used first, each key once. -/
  buckets : List (κ × Bucket α)

namespace MemoryStore

variable {κ α : Type}

def empty (options : MemoryOptions α) : MemoryStore κ α := ⟨options, []⟩

def size (s : MemoryStore κ α) : Nat := s.buckets.length

def keys (s : MemoryStore κ α) : List κ := s.buckets.map Prod.fst

def find? [DecidableEq κ] (s : MemoryStore κ α) (key : κ) : Option (Bucket α) :=
  s.buckets.lookup key

variable [Scalar α]

/-- Gives up buckets from the front until at most `limit` are left: the keys given up, the rest. -/
def overflow (limit : α) : List (κ × Bucket α) → List κ × List (κ × Bucket α)
  | [] => ([], [])
  | b :: bs =>
    if Scalar.count (bs.length + 1) ≤ limit then ([], b :: bs)
    else
      let (keys, rest) := overflow limit bs
      (b.1 :: keys, rest)

def evict (options : MemoryOptions α) (buckets : List (κ × Bucket α)) :
    List κ × List (κ × Bucket α) :=
  let limit := options.maxBuckets.getD 0
  if limit ≤ 0 then ([], buckets) else overflow limit buckets

def bucketFor [DecidableEq κ] (s : MemoryStore κ α) (key : κ) (now : α) : Bucket α :=
  (s.find? key).getD (Bucket.full s.options.toLimit now)

def touch [DecidableEq κ] (s : MemoryStore κ α) (key : κ) (now : α) : MemoryStore κ α :=
  { s with buckets := s.buckets.filter (·.1 != key) ++ [(key, s.bucketFor key now)] }

structure Allowed (κ α : Type) where
  allowed : Bool
  evicted : List κ
  store : MemoryStore κ α

/-- Refills the bucket of `key` up to `now` and tries to take one token. The bucket becomes the most
recently used before the bound on the number of buckets is applied. -/
def allow [DecidableEq κ] (s : MemoryStore κ α) (key : κ) (now : α) : Allowed κ α :=
  let (allowed, bucket) := (s.bucketFor key now).take s.options.toLimit now
  let (evicted, buckets) := evict s.options (s.buckets.filter (·.1 != key) ++ [(key, bucket)])
  ⟨allowed, evicted, { s with buckets }⟩

/-- How long a bucket must have been left alone before a sweep removes it: the idle time, and long
enough to be full again from empty. -/
def restTime (options : MemoryOptions α) : α :=
  Scalar.larger options.idleTimeout (Scalar.ceiling (options.capacity / options.rate * 1000))

def isIdle (s : MemoryStore κ α) (now : α) (b : Bucket α) : Bool :=
  decide (b.lastUpdate < now - restTime s.options)

def sweep (s : MemoryStore κ α) (now : α) : Nat × MemoryStore κ α :=
  let kept := s.buckets.filter fun b => !s.isIdle now b.2
  (s.buckets.length - kept.length, { s with buckets := kept })

def clear (s : MemoryStore κ α) : MemoryStore κ α := { s with buckets := [] }

end MemoryStore

end Admission
