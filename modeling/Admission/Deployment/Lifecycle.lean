import Admission.Deployment.Checking

/-!
Startup, regular sweeps and shutdown.

A limiter starts by making its store ready. A Redis that cannot be reached is reported and does not
keep the limiter from starting. Stores that can sweep are then swept at regular intervals, each
under a name of its own, until the limiter shuts down and closes its store.
-/
namespace Admission

def Store.canSweep {α : Type} : Store α → Bool
  | .memory _ => true
  | .redis _ => false
  | .scripted script => script.sweep.isSome

namespace Deployment

variable {α : Type} [Scalar α] [Textual α]

/-! Startup -/

/-- Redis could not be reached, which ends the startup of its store without failing it, as long as
it can be put into words. -/
def giveUpBoot (s : Deployment α) (t : TaskId) (fault : Fault α) : Deployment α :=
  match fault.message? with
  | some message => (s.note (.unreachable message)).post 0 (.started t (.ok none))
  | none => s.post 0 (.started t (.error .wordless))

def bootRedis (s : Deployment α) (t : TaskId) (i : StoreId) (store : RedisStore α) : Deployment α :=
  match s.connectFor t i store (.answer t (.ok none)) with
  | (some fault, s) => s.giveUpBoot t fault
  | (none, s) => s.startWait t .link store.options.timeout none

/-- Makes a store ready. If it fails before there is anything to wait for, the task ends as `failed`
says. -/
def boot (s : Deployment α) (t : TaskId) (i : StoreId) (failed : Fault α → Settlement α) :
    Deployment α :=
  match s.stores[i]? with
  | some (.memory _) => s.post 0 (.started t (.ok none))
  | some (.redis store) => s.bootRedis t i store
  | some (.scripted script) =>
    let s := s.record .storeStart
    match script.start.getD (.value .null) with
    | .throws fault => s.settle t (failed fault)
    | reply => s.arrange reply 0 0 (.started t)
  | none => s

def bootLinked (s : Deployment α) (t : TaskId) (store : RedisStore α) : Outcome α → Deployment α
  | .error fault => s.giveUpBoot t fault
  | .ok _ =>
    match s.callClient store.client .ping with
    | (.throws fault, s) => s.giveUpBoot t fault
    | (reply, s) => (s.arrange reply 0 0 (.answer t)).startWait t .ping store.options.timeout none

def bootAnswered (s : Deployment α) (t : TaskId) (store : RedisStore α) : Outcome α → Deployment α
  | .error fault => s.giveUpBoot t fault
  | .ok _ =>
    match textOrMissing? store.options.keyLead with
    | some keyLead => (s.note (.linked keyLead)).post 0 (.started t (.ok none))
    | none => s.giveUpBoot t .wordless

def sweepTopic : String := "rate-limit:sweep"

def sweepName (n : Nat) : String := sweepTopic ++ ":" ++ toString n

/-- Sets a regular sweep going and registers it. A name that is in use cannot be registered again,
and the startup fails. -/
def registerSweep (s : Deployment α) (t : TaskId) (l : LimiterId) (limiter : Limiter α) :
    Deployment α :=
  let period := limiter.config.sweepInterval
  let n := s.intervalCount + 1
  let name := sweepName n
  let s := { s with intervalCount := n }.setTimer period (.sweep l name period)
  if s.intervals.contains name then
    s.settle t (.failed (.general
      ("Interval with the given name (" ++ name ++ ") already exists. Ignored.")))
  else
    let s := { s with intervals := s.intervals ++ [name] }
    ((s.setLimiter l { limiter with interval := some name }).note (.sweeping period)).settle t .done

def limiterReady (s : Deployment α) (t : TaskId) (l : LimiterId) (limiter : Limiter α)
    (store : Store α) : Deployment α :=
  let limit := limiter.config.limit
  let s := s.note (.ready limit.rate limit.capacity store.backend)
  if store.canSweep && decide (0 < limiter.config.sweepInterval) && limiter.scheduled then
    s.registerSweep t l limiter
  else s.settle t .done

def started (s : Deployment α) (t : TaskId) (outcome : Outcome α) : Deployment α :=
  match outcome, s.tasks[t]?.map Task.purpose with
  | .error fault, _ => s.settle t (.failed fault)
  | .ok _, some (.boot (some l)) =>
    match s.limiters[l]? with
    | some limiter =>
      match s.stores[limiter.store]? with
      | some store => s.limiterReady t l limiter store
      | none => s.settle t .done
    | none => s.settle t .done
  | .ok answer, _ => s.settle t (.answered answer)

/-! Sweeping -/

/-- Sweeps a store: what the sweep reports, unless it fails, and the deployment afterwards. Stores
that cannot sweep report nothing removed. -/
def sweepStore (s : Deployment α) (i : StoreId) (now : Option (Value α)) :
    Option (Value α) × Deployment α :=
  match s.stores[i]? with
  | some (.memory store) =>
    let (removed, store) := store.attemptSweep ⟨now⟩
    let s := s.setStore i (.memory store)
    match removed with
    | none => (none, s.raise .wordless)
    | some n =>
      (some (.number (Scalar.count n)), if n = 0 then s else s.note (.swept n store.size))
  | some (.scripted script) =>
    match script.sweep with
    | none => (some (.number 0), s)
    | some counts =>
      let rest := if counts.length ≤ 1 then counts else counts.drop 1
      (some (counts.headD .null),
        (s.setStore i (.scripted { script with sweep := some rest })).record (.storeSweep now))
  | _ => (some (.number 0), s)

def sweep (s : Deployment α) (l : LimiterId) (now : Option (Value α)) :
    Option (Value α) × Deployment α :=
  match s.limiters[l]? with
  | some limiter => s.sweepStore limiter.store now
  | none => (some (.number 0), s)

/-! Shutdown -/

def removeInterval (s : Deployment α) (name : String) : Deployment α :=
  { s with
    intervals := s.intervals.filter (· != name)
    timers := s.timers.filter fun timer =>
      match timer.alarm with
      | .sweep _ other _ => other != name
      | _ => true }

def cancelSweep (s : Deployment α) (l : LimiterId) : Deployment α :=
  match s.limiters[l]? with
  | some limiter =>
    match limiter.interval with
    | some name => (s.removeInterval name).setLimiter l { limiter with interval := none }
    | none => s
  | none => s

def removeIntervals (s : Deployment α) : Deployment α := s.intervals.foldl removeInterval s

/-- A store is closed. An application goes on from there to stop all regular sweeps. -/
def finishClose (s : Deployment α) (t : TaskId) (closer : Closer) (answer : Option (Value α)) :
    Deployment α :=
  match closer with
  | .store => s.settle t (.answered answer)
  | .limiter => s.settle t .done
  | .application => s.removeIntervals.settle t .done

/-- A client that does not quit in order is cut off, which closes its store all the same. The store
does not get that far if it cannot put into words why. -/
def disconnect (s : Deployment α) (t : TaskId) (closer : Closer) (fault : Fault α) : Deployment α :=
  match fault.message? with
  | some message => ((s.note (.quitFailed message)).record .disconnect).finishClose t closer none
  | none => s.settle t (.failed .wordless)

/-- Closes a store. If it fails before there is anything to wait for, whoever asked the store itself
learns of it at once. -/
def close (s : Deployment α) (t : TaskId) (i : StoreId) (closer : Closer) : Deployment α :=
  match s.stores[i]? with
  | some (.memory store) => (s.setStore i (.memory store.clear)).post 0 (.closed t (.ok none))
  | some (.redis store) =>
    if store.owned then
      match s.callClient store.client .quit with
      | (.throws fault, s) => s.disconnect t closer fault
      | (reply, s) => s.arrange reply 0 0 (.closed t)
    else s.post 0 (.closed t (.ok none))
  | some (.scripted script) =>
    let s := s.record .storeClose
    match script.close.getD (.value .null) with
    | .throws fault => s.settle t (if closer = .store then .thrown fault else .failed fault)
    | reply => s.arrange reply 0 0 (.closed t)
  | none => s

def closed (s : Deployment α) (t : TaskId) (outcome : Outcome α) : Deployment α :=
  match s.tasks[t]? with
  | some ⟨i, .close closer, _⟩ =>
    match s.stores[i]?, outcome with
    | some (.redis _), .ok _ => s.finishClose t closer none
    | some (.redis _), .error fault => s.disconnect t closer fault
    | _, .ok answer => s.finishClose t closer answer
    | _, .error fault => s.settle t (.failed fault)
  | _ => s

end Deployment

end Admission
