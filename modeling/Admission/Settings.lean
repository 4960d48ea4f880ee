import Admission.Bucket
import Admission.Key
import Admission.Scripted
import Admission.Value

/-!
Settings of a limiter.

Settings arrive unchecked: a field may be missing or hold a value of any type. `Settings.accept`
takes exactly the settings that describe a working limiter, with the numbers in them known to be
numbers, and names the first fault otherwise. `Settings.resolve` fills in every default.
-/
namespace Admission

/-- A client that the application supplies: one that follows a script, one that talks to the Redis
inside this process, or something that is no client. -/
inductive SuppliedClient where
  | scripted
  | server
  | unusable
deriving DecidableEq

/-- Where Redis is found. A supplied client is used as it is; otherwise the store builds one. -/
structure RedisSettings (α : Type) where
  client : Option SuppliedClient := none
  url : Option (Value α) := none
  host : Option (Value α) := none
  portNumber : Option (Value α) := none
  password : Option (Value α) := none
  others : List (String × Value α) := []

/-- The field that chooses Redis: switched off by a value that counts as not given. -/
inductive RedisChoice (α : Type) where
  | off (value : Value α)
  | on (settings : RedisSettings α)

/-- The field that brings a store along: none comes with a value that counts as not given. -/
inductive PrebuiltChoice (α : Type) where
  | off (value : Value α)
  | on (store : PrebuiltStore α)

structure Settings (α : Type) where
  rate : Option (Value α) := none
  capacity : Option (Value α) := none
  keyRule : Option (KeyRule α) := none
  redis : Option (RedisChoice α) := none
  store : Option (PrebuiltChoice α) := none
  keyLead : Option (Value α) := none
  ttlSeconds : Option (Value α) := none
  timeout : Option (Value α) := none
  failOpen : Option (Value α) := none
  idleTimeout : Option (Value α) := none
  sweepInterval : Option (Value α) := none
  maxBuckets : Option (Value α) := none

inductive WholeSetting where
  | ttlSeconds
  | timeout
  | idleTimeout
  | sweepInterval
  | maxBuckets
deriving DecidableEq

def WholeSetting.name : WholeSetting → String
  | ttlSeconds => "ttlSeconds"
  | timeout => "timeoutMs"
  | idleTimeout => "idleTimeoutMs"
  | sweepInterval => "sweepIntervalMs"
  | maxBuckets => "maxBuckets"

inductive SettingsFault (α : Type) where
  | rate (got : Option (Value α))
  | capacity (got : Option (Value α))
  | notPositive (setting : WholeSetting) (got : Value α)
  | negative (setting : WholeSetting) (got : Value α)
  | noEndpoint

namespace SettingsFault

variable {α : Type} [Textual α]

/-- What is wrong, and with which value; `none` if that value has no text. -/
def message? : SettingsFault α → Option String
  | rate got =>
    (textOrMissing? got).map ("Rate limit config rate must be a positive number, got " ++ ·)
  | capacity got =>
    (textOrMissing? got).map
      ("Rate limit config capacity must be an integer of at least 1, got " ++ ·)
  | notPositive setting got =>
    got.text?.map
      ("Rate limit config " ++ setting.name ++ " must be a positive integer, got " ++ ·)
  | negative setting got =>
    got.text?.map
      ("Rate limit config " ++ setting.name ++ " must be a non-negative integer, got " ++ ·)
  | noEndpoint => some "Rate limit redis options require a client, url or host"

def error (f : SettingsFault α) : Fault α := .worded f.message?

end SettingsFault

structure Accepted (α : Type) where
  limit : Limit α
  ttlSeconds : Option α
  timeout : Option α
  idleTimeout : Option α
  sweepInterval : Option α
  maxBuckets : Option α

structure Config (α : Type) where
  limit : Limit α
  keyRule : KeyRule α
  redis : Option (RedisChoice α)
  store : Option (PrebuiltChoice α)
  keyLead : Value α
  ttlSeconds : α
  timeout : α
  failOpen : Value α
  idleTimeout : α
  sweepInterval : α
  maxBuckets : α

namespace Settings

def defaultKeyLead : String := "ratelimit:"

variable {α : Type} [Scalar α]

def defaultTtlSeconds : α := 60

def defaultTimeout : α := 100

def defaultSweepInterval : α := 60000

def numberWhere (passes : α → Bool) (got : Option (Value α)) : Option α :=
  (got.bind Value.number?).filter passes

def optionalWhere (passes : α → Bool) (fault : Value α → SettingsFault α) :
    Option (Value α) → Except (SettingsFault α) (Option α)
  | none => .ok none
  | some got =>
    match numberWhere passes (some got) with
    | some x => .ok (some x)
    | none => .error (fault got)

def isPositiveWhole (x : α) : Bool := Scalar.isWhole x && decide (0 < x)

def isNaturalWhole (x : α) : Bool := Scalar.isWhole x && decide (0 ≤ x)

def isGiven (v : Option (Value α)) : Bool := v.any Value.isTruthy

def reachable : Option (RedisChoice α) → Bool
  | some (.on r) => r.client.isSome || isGiven r.url || isGiven r.host
  | _ => true

/-- The settings as they are accepted; otherwise the first fault in the order of the checks. -/
def accept (s : Settings α) : Except (SettingsFault α) (Accepted α) := do
  let rate ← match numberWhere (fun x => Scalar.isFinite x && decide (0 < x)) s.rate with
    | some x => .ok x
    | none => .error (.rate s.rate)
  let capacity ← match numberWhere (fun x => Scalar.isWhole x && decide (1 ≤ x)) s.capacity with
    | some x => .ok x
    | none => .error (.capacity s.capacity)
  let ttlSeconds ← optionalWhere isPositiveWhole (.notPositive .ttlSeconds) s.ttlSeconds
  let timeout ← optionalWhere isPositiveWhole (.notPositive .timeout) s.timeout
  let idleTimeout ← optionalWhere isNaturalWhole (.negative .idleTimeout) s.idleTimeout
  let sweepInterval ← optionalWhere isNaturalWhole (.negative .sweepInterval) s.sweepInterval
  let maxBuckets ← optionalWhere isNaturalWhole (.negative .maxBuckets) s.maxBuckets
  if reachable s.redis then
    .ok ⟨⟨rate, capacity⟩, ttlSeconds, timeout, idleTimeout, sweepInterval, maxBuckets⟩
  else .error .noEndpoint

def validate (s : Settings α) : Except (SettingsFault α) Unit := s.accept.map fun _ => ()

/-- A value that stands in for a missing one, and for null. -/
def orDefault (usual : Value α) : Option (Value α) → Value α
  | none | some .null => usual
  | some v => v

/-- Accepted settings with the defaults filled in. Unless it is set, the idle time is as long as a
bucket lives in Redis. -/
def complete (s : Settings α) (a : Accepted α) : Config α :=
  let ttlSeconds := a.ttlSeconds.getD defaultTtlSeconds
  { limit := a.limit
    keyRule := s.keyRule.getD .global
    redis := s.redis
    store := s.store
    keyLead := orDefault (.text defaultKeyLead) s.keyLead
    ttlSeconds
    timeout := a.timeout.getD defaultTimeout
    failOpen := orDefault (.bool true) s.failOpen
    idleTimeout := a.idleTimeout.getD (ttlSeconds * 1000)
    sweepInterval := a.sweepInterval.getD defaultSweepInterval
    maxBuckets := a.maxBuckets.getD 0 }

def resolve (s : Settings α) : Except (SettingsFault α) (Config α) := s.accept.map s.complete

end Settings

def Config.toSettings {α : Type} (c : Config α) : Settings α where
  rate := some (.number c.limit.rate)
  capacity := some (.number c.limit.capacity)
  keyRule := some c.keyRule
  redis := c.redis
  store := c.store
  keyLead := some c.keyLead
  ttlSeconds := some (.number c.ttlSeconds)
  timeout := some (.number c.timeout)
  failOpen := some c.failOpen
  idleTimeout := some (.number c.idleTimeout)
  sweepInterval := some (.number c.sweepInterval)
  maxBuckets := some (.number c.maxBuckets)

end Admission
