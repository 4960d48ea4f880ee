import Admission.Fault
import Admission.Memory.Unchecked

/-!
Collaborators that follow a script.

A limiter talks to a Redis client or to a store that an application supplies. Both are described by
what they do when they are called: a list of replies, taken in turn, the last of which repeats. A
reply may arrive at once, after a delay, or never, and it may be an answer or a failure.
-/
namespace Admission

abbrev Outcome (α : Type) := Except (Fault α) (Option (Value α))

/-- How a client stands to its server. Only a waiting client can be told to connect. -/
inductive LinkStatus where
  | waiting
  | connecting
  | ready
  | ended
  | other
deriving DecidableEq

def LinkStatus.ofText : String → LinkStatus
  | "wait" => waiting
  | "connecting" => connecting
  | "ready" => ready
  | "end" => ended
  | _ => other

inductive Reply (α : Type) where
  | throws (fault : Fault α)
  /-- Settles at once, or after a delay; a connection may leave its client in a state of its own. -/
  | settles (delay : Option α) (outcome : Outcome α) (status : Option LinkStatus)
  | never

abbrev Replies (α : Type) := List (Reply α)

def Replies.next {α : Type} (usual : Reply α) : Replies α → Reply α × Replies α
  | [] => (usual, [])
  | [r] => (r, [r])
  | r :: rs => (r, rs)

/-- An answer that a store has at hand. Waiting for it takes no longer than for a reply that settles
at once. -/
def Reply.direct {α : Type} (answer : Option (Value α)) : Reply α := settles none (.ok answer) none

def Reply.value {α : Type} (v : Value α) : Reply α := direct (some v)

structure ClientScript (α : Type) where
  eval : Replies α := []
  ping : Replies α := []
  connect : Replies α := []
  quit : Replies α := []

inductive Backend where
  | memory
  | redis
  | other (name : Option String)
deriving DecidableEq

def Backend.name? : Backend → Option String
  | memory => some "memory"
  | redis => some "redis"
  | other name => name

def Backend.text (b : Backend) : String := b.name?.getD "undefined"

/-- What a scripted store does. It can sweep only if there are counts for its sweeps. -/
structure StoreScript (α : Type) where
  backend : Backend
  allow : Replies α := []
  start : Option (Reply α) := none
  close : Option (Reply α) := none
  sweep : Option (List (Value α)) := none

inductive PrebuiltStore (α : Type) where
  | memory (options : MemoryOptions (Unchecked α))
  | scripted (script : StoreScript α)

def PrebuiltStore.backend {α : Type} : PrebuiltStore α → Backend
  | memory _ => .memory
  | scripted script => script.backend

end Admission
