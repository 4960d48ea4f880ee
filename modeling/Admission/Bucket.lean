import Admission.Number.Scalar

/-!
Token buckets.

A bucket holds tokens up to a capacity, refills at a fixed rate, and admits a call by giving up one
token. It is only ever looked at when a call arrives, so it keeps the number of tokens and the time
of its last update, and refills for the time that has passed since.
-/
namespace Admission

/-- Tokens per second, and the most tokens a bucket holds. -/
structure Limit (α : Type) where
  rate : α
  capacity : α

/-- Times are in milliseconds. -/
structure Bucket (α : Type) where
  tokens : α
  lastUpdate : α

namespace Bucket

variable {α : Type} [Scalar α]

def full (limit : Limit α) (now : α) : Bucket α := ⟨limit.capacity, now⟩

def refilled (limit : Limit α) (tokens elapsed : α) : α :=
  Scalar.smaller limit.capacity (tokens + elapsed / 1000 * limit.rate)

/-- Refills the bucket up to `now` and tries to take one token. A time before the last update
refills nothing and does not move the last update back. -/
def take (limit : Limit α) (b : Bucket α) (now : α) : Bool × Bucket α :=
  let tokens := refilled limit b.tokens (Scalar.larger 0 (now - b.lastUpdate))
  let lastUpdate := Scalar.larger b.lastUpdate now
  if 1 ≤ tokens then (true, ⟨tokens - 1, lastUpdate⟩) else (false, ⟨tokens, lastUpdate⟩)

def takeAll (b : Bucket α) : List (Limit α × α) → List (Bool × Bucket α)
  | [] => []
  | (limit, now) :: calls =>
    let answer := b.take limit now
    answer :: takeAll answer.2 calls

end Bucket

end Admission
