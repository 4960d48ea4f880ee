import Admission.Deployment.Link

/-!
Checks.

A check asks a store whether one more call on a key may pass. A store in memory answers on the spot;
a scripted store replies as it is told; a store in Redis connects if it has to, sends the script,
and waits for the answer under a deadline. What the answer turns into depends on who asked: a
decision of the limiter follows its policy for failures, and fails itself only where its report
cannot be put into words.
-/
namespace Admission

/-- What a check asks of Redis; `none` if its key there cannot be written. -/
def RedisOptions.evaluation? {α : Type} [Textual α] (o : RedisOptions α) (c : Check α) :
    Option (Evaluation α) := do
  let keyLead ← textOrMissing? o.keyLead
  let key ← textOrMissing? c.key
  some ⟨keyLead ++ key, o.rate, o.capacity, c.now, o.ttlSeconds⟩

def Fault.ofReply {α : Type} [Textual α] (reply : Option (Value α)) : Fault α :=
  match textOrMissing? reply with
  | some text => .malformed text
  | none => .wordless

def Fault.verdictOf {α : Type} [Scalar α] [Textual α] : Outcome α → Except (Fault α) Bool
  | .ok (some (.number x)) =>
    if x ≤ 1 ∧ 1 ≤ x then .ok true
    else if x ≤ 0 ∧ 0 ≤ x then .ok false
    else .error (.ofReply (some (.number x)))
  | .ok reply => .error (.ofReply reply)
  | .error fault => .error fault

/-- What the answer of a store of the application's own means: whatever counts as given lets the
call pass. -/
def Fault.permissionOf {α : Type} [Scalar α] : Outcome α → Except (Fault α) Bool
  | .ok answer => .ok (answer.any Value.isTruthy)
  | .error fault => .error fault

namespace Config

variable {α : Type} [Scalar α] [Textual α]

def decisionOnFailure (c : Config α) : Decision := if c.failOpen.isTruthy then .allow else .deny

/-- What is reported about a check that gets this decision; `none` if it cannot be put into words. A
call that may pass is not reported, and abandoning a check is no failure. -/
def report? (key : Key) (decision : Decision) : Except (Fault α) Bool → Option (List (Notice α))
  | .ok true => some []
  | .ok false => key.text?.map fun key => [.exceeded key]
  | .error fault => do
    let key ← key.text?
    if fault.reason? = some .aborted then some [.abandoned key]
    else
      let cause ← fault.message?
      some [.undecided key decision cause]

/-- The decision on a check, and what is reported about it. It fails only where that cannot be put
into words. -/
def judge (c : Config α) (key : Key) (verdict : Except (Fault α) Bool) :
    Except (Fault α) (Decision × List (Notice α)) :=
  let decision : Decision := match verdict with
    | .ok true => .allow
    | .ok false => .deny
    | .error _ => c.decisionOnFailure
  match report? key decision verdict with
  | some notices => .ok (decision, notices)
  | none => .error .wordless

end Config

namespace Deployment

variable {α : Type} [Scalar α] [Textual α]

def judge (s : Deployment α) (l : LimiterId) (key : Key) (verdict : Except (Fault α) Bool) :
    Except (Fault α) Decision × Deployment α :=
  match s.limiters[l]? with
  | none => (.ok .deny, s)
  | some limiter =>
    match limiter.config.judge key verdict with
    | .ok (decision, notices) => (.ok decision, { s with notices := s.notices ++ notices })
    | .error fault => (.error fault, s)

def conclude (s : Deployment α) (t : TaskId) (verdict : Except (Fault α) Bool) : Deployment α :=
  match s.tasks[t]?.map Task.purpose with
  | some (.check c) =>
    match c.origin with
    | .store =>
      match verdict with
      | .ok allowed => s.settle t (.verdict allowed)
      | .error fault => s.settle t (.failed fault)
    | .limiter l =>
      match s.judge l c.bucket verdict with
      | (.ok decision, s) => s.settle t (.decision decision)
      | (.error fault, s) => s.settle t (.failed fault)
    | .middleware l =>
      match s.judge l c.bucket verdict with
      | (.ok .allow, s) => ((s.detach t).exchange t .handedOn).settle t .done
      | (.ok .deny, s) => ((s.detach t).exchange t (.refused refusal)).settle t .done
      | (.error fault, s) => (s.detach t).settle t (.failed fault)
    | .guard l =>
      match s.judge l c.bucket verdict with
      | (.ok .allow, s) => s.settle t .admitted
      | (.ok .deny, s) => s.settle t (.failed .limitExceeded)
      | (.error fault, s) => s.settle t (.failed fault)
  | _ => s

def checkMemory (s : Deployment α) (t : TaskId) (i : StoreId)
    (store : MemoryStore Key (Unchecked α)) (c : Check α) : Deployment α :=
  let a := store.attempt c.bucket ⟨c.now⟩
  let s := s.setStore i (.memory a.store)
  let s := { s with notices := s.notices ++ a.evicted.map Notice.evicted }
  match a.allowed with
  | some allowed => s.post 0 (.conclude t (.ok allowed))
  | none => s.conclude t (.error .wordless)

def checkScripted (s : Deployment α) (t : TaskId) (i : StoreId) (script : StoreScript α)
    (c : Check α) : Deployment α :=
  let (reply, allow) := script.allow.next (.value (.bool true))
  let s := (s.setStore i (.scripted { script with allow })).record
    (.storeAllow c.key c.now (s.signalState c.signal))
  match reply with
  | .throws fault => s.conclude t (.error fault)
  | reply => s.arrange reply 0 0 fun outcome => .conclude t (Fault.permissionOf outcome)

/-- Asks the store in Redis. A check that is abandoned before it begins asks nobody. -/
def checkRedis (s : Deployment α) (t : TaskId) (i : StoreId) (store : RedisStore α) (c : Check α) :
    Deployment α :=
  if s.isAborted c.signal then s.post 0 (.conclude t (.error .aborted))
  else
    match s.connectFor t i store (.evaluate t) with
    | (some fault, s) => s.post 0 (.conclude t (.error fault))
    | (none, s) => s.startWait t .verdict store.options.timeout c.signal

def check (s : Deployment α) (t : TaskId) (i : StoreId) (c : Check α) : Deployment α :=
  match s.stores[i]? with
  | some (.memory store) => s.checkMemory t i store c
  | some (.scripted script) => s.checkScripted t i script c
  | some (.redis store) => s.checkRedis t i store c
  | none => s

def evaluate (s : Deployment α) (t : TaskId) : Deployment α :=
  match s.tasks[t]? with
  | some ⟨i, .check c, _⟩ =>
    match s.stores[i]? with
    | some (.redis store) =>
      match store.options.evaluation? c with
      | none => s.post 0 (.answer t (.error .wordless))
      | some evaluation =>
        match s.callClient store.client (.eval evaluation) with
        | (.throws fault, s) => s.post 0 (.answer t (.error fault))
        | (reply, s) => s.arrange reply 2 1 (.answer t)
    | _ => s
  | _ => s

end Deployment

end Admission
