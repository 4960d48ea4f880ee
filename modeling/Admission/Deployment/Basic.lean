import Admission.Notice
import Admission.Scripted
import Admission.Shared.Bucket
import Admission.StoreChoice

/-!
Limiters together with everything they talk to.

A `Deployment` holds the stores and the clients they use, the limiters built on them, the calls in
progress, and the clock. Nothing in it happens by itself: work that is ready to go on stands in the
agenda, work that waits for the clock stands among the timers, and the modules that follow say what
each piece of work does. What can be seen from outside is recorded in the order in which it happens.
-/
namespace Admission

/-! Calls in progress, stores, clients and limiters are known by their position. -/

abbrev TaskId := Nat
abbrev StoreId := Nat
abbrev ClientId := Nat
abbrev LimiterId := Nat

/-- What may abandon a check: a signal that callers share by name, or the end of one request. -/
inductive SignalId where
  | named (name : String)
  | request (task : TaskId)
deriving DecidableEq

inductive Origin where
  | store
  | limiter (l : LimiterId)
  | middleware (l : LimiterId)
  | guard (l : LimiterId)
deriving DecidableEq

structure Check (α : Type) where
  origin : Origin
  key : Option (Value α)
  /-- What a store in memory keeps the bucket of the key under. -/
  bucket : Key
  now : Option (Value α)
  signal : Option SignalId

inductive Clockwork where
  /-- The timers of a running process, which hold whole milliseconds up to a longest delay. -/
  | real
  /-- A clock that is moved by hand and holds every delay. -/
  | simulated
deriving DecidableEq

def Clockwork.longest : Nat := 2147483647

/-- After how long a timer falls due. A delay that is too short, too long or undefined is taken for
one millisecond. -/
def Clockwork.delay {α : Type} [Scalar α] : Clockwork → α → α
  | simulated, delay => if 1 ≤ delay then delay else 1
  | real, delay =>
    if 1 ≤ delay ∧ delay ≤ Scalar.count longest then
      if Scalar.isWhole delay then delay else Scalar.count (Scalar.wholeSteps delay)
    else 1

inductive Closer where
  | store
  | limiter
  | application
deriving DecidableEq

inductive Purpose (α : Type) where
  | check (c : Check α)
  /-- Making a store ready, for its own sake or for a limiter's. -/
  | boot (limiter : Option LimiterId)
  | close (closer : Closer)

inductive Stage where
  | verdict
  | link
  | ping
deriving DecidableEq

inductive Progress (α : Type) where
  | running
  | waiting (stage : Stage)
  | leaving (stage : Stage) (outcome : Outcome α)
  /-- The wait is over, but what ended it could not be put into words: the task never goes on. -/
  | lost
  | ended

structure Task (α : Type) where
  store : StoreId
  purpose : Purpose α
  progress : Progress α

inductive Job (α : Type) where
  | evaluate (task : TaskId)
  | answer (task : TaskId) (outcome : Outcome α)
  | resume (task : TaskId)
  | conclude (task : TaskId) (verdict : Except (Fault α) Bool)
  | linkSettled (store : StoreId) (outcome : Outcome α) (status : LinkStatus)
  | started (task : TaskId) (outcome : Outcome α)
  | closed (task : TaskId) (outcome : Outcome α)

inductive Alarm (α : Type) where
  | deadline (task : TaskId) (milliseconds : String)
  /-- A reply arrives; its job takes its turn after so many others. -/
  | reply (turns : Nat) (job : Job α)
  | sweep (limiter : LimiterId) (name : String) (period : α)

structure Timer (α : Type) where
  due : α
  alarm : Alarm α

structure RedisStore (α : Type) where
  options : RedisOptions α
  client : ClientId
  /-- The store built its client itself, and so connects and closes it. -/
  owned : Bool
  /-- The tasks that wait for the attempt to connect under way, if there is one. -/
  attempt : Option (List TaskId)

inductive Store (α : Type) where
  | memory (store : MemoryStore Key (Unchecked α))
  | redis (store : RedisStore α)
  | scripted (script : StoreScript α)

def Store.backend {α : Type} : Store α → Backend
  | memory _ => .memory
  | redis _ => .redis
  | scripted script => script.backend

inductive ClientKind (α : Type) where
  | scripted (script : ClientScript α)
  | server
  | unusable

structure Client (α : Type) where
  kind : ClientKind α
  status : LinkStatus

inductive SignalState where
  | none
  | live
  | aborted

/-- One run of the shared script as a client is asked for it: the key in Redis, and the arguments as
they stand. -/
structure Evaluation (α : Type) where
  key : String
  rate : Option (Value α)
  capacity : Option (Value α)
  now : Option (Value α)
  ttlSeconds : Option (Value α)

inductive Call (α : Type) where
  | built (address : ClientAddress α)
  | eval (evaluation : Evaluation α)
  | ping
  | connect
  | quit
  | disconnect
  | storeStart
  | storeAllow (key now : Option (Value α)) (signal : SignalState)
  | storeClose
  | storeSweep (now : Option (Value α))

inductive Settlement (α : Type) where
  | verdict (allowed : Bool)
  | decision (d : Decision)
  | admitted
  | done
  | answered (answer : Option (Value α))
  | failed (fault : Fault α)
  /-- The call failed before it had anything to wait for, and said so at once. -/
  | thrown (fault : Fault α)

inductive Exchange where
  | handedOn
  | refused (answer : Refusal)
deriving DecidableEq

structure Limiter (α : Type) where
  config : Config α
  store : StoreId
  scheduled : Bool
  interval : Option String

structure Deployment (α : Type) where
  clockwork : Clockwork := .real
  clock : α
  timers : List (Timer α) := []
  /-- Work that is ready, each piece with the turns it still lets pass. -/
  agenda : List (Nat × Job α) := []
  tasks : List (Task α) := []
  listeners : List (SignalId × TaskId) := []
  abortedSignals : List SignalId := []
  /-- Requests whose end would abandon their check. -/
  attached : List TaskId := []
  stores : List (Store α) := []
  clients : List (Client α) := []
  keyspace : Keyspace String α := []
  limiters : List (Limiter α) := []
  intervals : List String := []
  intervalCount : Nat := 0
  calls : List (Call α) := []
  notices : List (Notice α) := []
  exchanges : List (TaskId × Exchange) := []
  settled : List (TaskId × Settlement α) := []
  /-- Faults that no call caught. The first one surfaces where the deployment was operated. -/
  raised : List (Fault α) := []

namespace Deployment

variable {α : Type}

def post (s : Deployment α) (turns : Nat) (job : Job α) : Deployment α :=
  { s with agenda := s.agenda ++ [(turns, job)] }

def note (s : Deployment α) (notice : Notice α) : Deployment α :=
  { s with notices := s.notices ++ [notice] }

def raise (s : Deployment α) (fault : Fault α) : Deployment α :=
  { s with raised := s.raised ++ [fault] }

def record (s : Deployment α) (call : Call α) : Deployment α :=
  { s with calls := s.calls ++ [call] }

def dueAfter [Scalar α] (s : Deployment α) (delay : α) : α := s.clock + s.clockwork.delay delay

def setTimer [Scalar α] (s : Deployment α) (delay : α) (alarm : Alarm α) : Deployment α :=
  { s with timers := s.timers ++ [⟨s.dueAfter delay, alarm⟩] }

def exchange (s : Deployment α) (t : TaskId) (e : Exchange) : Deployment α :=
  { s with exchanges := s.exchanges ++ [(t, e)] }

def setStore (s : Deployment α) (i : StoreId) (store : Store α) : Deployment α :=
  { s with stores := s.stores.set i store }

def setLimiter (s : Deployment α) (l : LimiterId) (limiter : Limiter α) : Deployment α :=
  { s with limiters := s.limiters.set l limiter }

def setProgress (s : Deployment α) (t : TaskId) (progress : Progress α) : Deployment α :=
  { s with tasks := s.tasks.modify t fun task => { task with progress } }

def settle (s : Deployment α) (t : TaskId) (settlement : Settlement α) : Deployment α :=
  { s.setProgress t .ended with settled := s.settled ++ [(t, settlement)] }

def newTask (s : Deployment α) (store : StoreId) (purpose : Purpose α) : TaskId × Deployment α :=
  (s.tasks.length, { s with tasks := s.tasks ++ [⟨store, purpose, .running⟩] })

def isAborted (s : Deployment α) : Option SignalId → Bool
  | none => false
  | some signal => s.abortedSignals.contains signal

def signalState (s : Deployment α) (signal : Option SignalId) : SignalState :=
  match signal with
  | none => .none
  | some _ => if s.isAborted signal then .aborted else .live

end Deployment

end Admission
