import Admission.Deployment.Running

/-!
What can be asked of a deployment.

Calls that take time are started, several of them in the same instant if need be, and end when their
task is settled. Between two operations all work that is ready takes its turns.
-/
namespace Admission

inductive Start (α : Type) where
  | ask (store : StoreId) (key now : Option (Value α)) (signal : Option SignalId)
  | bootStore (store : StoreId)
  | closeStore (store : StoreId)
  | allow (l : LimiterId) (key now : Option (Value α)) (signal : Option SignalId)
  | decide (l : LimiterId) (request : Option (Request α)) (signal : Option SignalId)
  | pass (l : LimiterId) (request : Option (Request α))
  | enter (l : LimiterId) (request : Option (Request α))
  | bootLimiter (l : LimiterId)
  | closeLimiter (l : LimiterId)
  | shutDown (l : LimiterId)

inductive Operation (α : Type) where
  | start (calls : List (Start α))
  | advance (milliseconds : α)
  | abort (signal : SignalId)
  | hangUp (task : TaskId)
  | linkFault (store : StoreId) (message : String)
  | sweep (l : LimiterId) (now : Option (Value α))

namespace Deployment

variable {α : Type} [Scalar α] [Textual α]

/-- The time that a call gives, or the clock's where it gives none. -/
def timeOr (s : Deployment α) (now : Option (Value α)) : Option (Value α) :=
  some (now.getD (.number s.clock))

def callKey (s : Deployment α) (key : Option (Value α)) : Key :=
  .ofValue (.call s.tasks.length) key

def startCheck (s : Deployment α) (store : StoreId) (c : Check α) : Deployment α :=
  let (t, s) := s.newTask store (.check c)
  s.check t store c

/-- Asks a limiter about a request, under the key that its rule gives. A rule that fails ends the
call at once. -/
def startRequest (s : Deployment α) (limiter : Limiter α) (origin : Origin)
    (request : Option (Request α)) (signal : Option SignalId) (failed : Fault α → Settlement α) :
    Deployment α :=
  let now := s.timeOr none
  match limiter.config.keyRule.key request with
  | .ok key =>
    let bucket := Key.ofValue (limiter.config.keyRule.maker request s.tasks.length) key
    s.startCheck limiter.store ⟨origin, key, bucket, now, signal⟩
  | .error e =>
    let (t, s) := s.newTask limiter.store (.check ⟨origin, none, .missing, now, signal⟩)
    (s.detach t).settle t (failed (.ofKeyFault e))

def startPass (s : Deployment α) (limiter : Limiter α) (l : LimiterId)
    (request : Option (Request α)) : Deployment α :=
  let t := s.tasks.length
  { s with attached := s.attached ++ [t] }.startRequest limiter (.middleware l) request
    (some (.request t)) .failed

def bootLimiter (s : Deployment α) (limiter : Limiter α) (l : LimiterId) : Deployment α :=
  let (t, s) := s.newTask limiter.store (.boot (some l))
  s.boot t limiter.store .failed

/-- Shuts a limiter down: its regular sweep stops at once, and then its store is closed. -/
def closeLimiter (s : Deployment α) (limiter : Limiter α) (l : LimiterId) (closer : Closer) :
    Deployment α :=
  let (t, s) := (s.cancelSweep l).newTask limiter.store (.close closer)
  s.close t limiter.store closer

/-- A call on something that is not there fails at once. -/
def refuse (s : Deployment α) (purpose : Purpose α) : Deployment α :=
  let (t, s) := s.newTask s.stores.length purpose
  s.settle t (.thrown (.misuse ""))

def onStore (s : Deployment α) (i : StoreId) (purpose : Purpose α)
    (f : TaskId → Deployment α → Deployment α) : Deployment α :=
  if i < s.stores.length then
    let (t, s) := s.newTask i purpose
    f t s
  else s.refuse purpose

def onLimiter (s : Deployment α) (l : LimiterId) (f : Limiter α → Deployment α) : Deployment α :=
  match s.limiters[l]? with
  | some limiter => f limiter
  | none => s.refuse (.boot (some l))

def start (s : Deployment α) : Start α → Deployment α
  | .ask i key now signal =>
    let c : Check α := ⟨.store, key, s.callKey key, now, signal⟩
    s.onStore i (.check c) fun t s => s.check t i c
  | .bootStore i => s.onStore i (.boot none) fun t s => s.boot t i .thrown
  | .closeStore i => s.onStore i (.close .store) fun t s => s.close t i .store
  | .allow l key now signal =>
    s.onLimiter l fun limiter =>
      s.startCheck limiter.store ⟨.limiter l, key, s.callKey key, s.timeOr now, signal⟩
  | .decide l request signal =>
    s.onLimiter l fun limiter => s.startRequest limiter (.limiter l) request signal .thrown
  | .pass l request => s.onLimiter l fun limiter => s.startPass limiter l request
  | .enter l request =>
    s.onLimiter l fun limiter => s.startRequest limiter (.guard l) request none .failed
  | .bootLimiter l => s.onLimiter l fun limiter => s.bootLimiter limiter l
  | .closeLimiter l => s.onLimiter l fun limiter => s.closeLimiter limiter l .limiter
  | .shutDown l => s.onLimiter l fun limiter => s.closeLimiter limiter l .application

/-- The client of a store reports an error of its own. A store listens to the client that it built;
an error of a client that nobody listens to is raised where it happens. -/
def linkFault (s : Deployment α) (i : StoreId) (message : String) : Deployment α :=
  match s.stores[i]? with
  | some (.redis store) =>
    if store.owned then s.note (.linkFault message)
    else
      match s.clients[store.client]?.map Client.kind with
      | some (.scripted _) | some .server => s.raise (.general message)
      | _ => s.raise (.misuse "")
  | _ => s.raise (.misuse "")

def perform (s : Deployment α) : Operation α → Deployment α
  | .start calls => (calls.foldl start s).drain
  | .advance milliseconds => s.advance milliseconds
  | .abort signal => (s.abort signal).drain
  | .hangUp t => (s.hangUp t).drain
  | .linkFault i message => s.linkFault i message
  | .sweep l now => (s.sweep l (s.timeOr now)).2

end Deployment

end Admission
