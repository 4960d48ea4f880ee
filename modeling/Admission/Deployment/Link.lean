import Admission.Deployment.Client
import Admission.Deployment.Wait

/-!
Connecting an owned client.

A client that a store built for itself is connected when it is first needed. There is one attempt at
a time, and everyone who needs the connection meanwhile waits for that attempt. A client that was
supplied is taken to be connected.
-/
namespace Admission

def Reply.linkStatus {α : Type} (outcome : Outcome α) (status : Option LinkStatus) : LinkStatus :=
  status.getD (match outcome with
    | .ok _ => .ready
    | .error _ => .ended)

namespace Deployment

variable {α : Type} [Scalar α] [Textual α]

/-- The reply to an attempt to connect. While it is outstanding the client is connecting. -/
def arrangeLink (s : Deployment α) (i : StoreId) (client : ClientId) (reply : Reply α) :
    Deployment α :=
  let job (outcome : Outcome α) (status : Option LinkStatus) : Job α :=
    .linkSettled i outcome (Reply.linkStatus outcome status)
  match reply with
  | .throws _ => s
  | .settles none outcome status => s.post 0 (job outcome status)
  | .settles (some delay) outcome status =>
    (s.setLinkStatus client .connecting).setTimer delay (.reply 0 (job outcome status))
  | .never => s.setLinkStatus client .connecting

/-- Lets a task go on with `whenReady` once its store is connected, connecting the store if nobody
has done so yet. A connection that cannot even be attempted is a fault. -/
def connectFor (s : Deployment α) (t : TaskId) (i : StoreId) (store : RedisStore α)
    (whenReady : Job α) : Option (Fault α) × Deployment α :=
  match store.attempt with
  | some waiters => (none, s.setStore i (.redis { store with attempt := some (waiters ++ [t]) }))
  | none =>
    if store.owned && s.linkStatus store.client == .waiting then
      match s.callClient store.client .connect with
      | (.throws fault, s) => (some fault, s)
      | (reply, s) =>
        (none, (s.setStore i (.redis { store with attempt := some [t] })).arrangeLink i store.client
          reply)
    else (none, s.post 0 whenReady)

def wake (outcome : Outcome α) (s : Deployment α) (t : TaskId) : Deployment α :=
  match s.tasks[t]?.map Task.purpose, outcome with
  | some (.check _), .ok _ => s.post 2 (.evaluate t)
  | some (.check _), .error fault => s.post 3 (.answer t (.error fault))
  | some _, outcome => s.post 2 (.answer t outcome)
  | none, _ => s

def linkSettled (s : Deployment α) (i : StoreId) (outcome : Outcome α) (status : LinkStatus) :
    Deployment α :=
  match s.stores[i]? with
  | some (.redis store) =>
    let waiters := store.attempt.getD []
    let s := s.setLinkStatus store.client status
    waiters.foldl (wake outcome) (s.setStore i (.redis { store with attempt := none }))
  | _ => s

end Deployment

end Admission
