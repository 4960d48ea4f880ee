import Admission.Memory
import Admission.Settings

/-!
Which store a limiter uses.

The choice is made once, from the resolved settings: the store that the application brings along, or
else Redis when it is switched on, or else the memory of this process.
-/
namespace Admission

/-- The options of a store in Redis. The store hands most of them on as they stand, so they need not
be what they should be. -/
structure RedisOptions (α : Type) where
  rate : Option (Value α)
  capacity : Option (Value α)
  keyLead : Option (Value α)
  ttlSeconds : Option (Value α)
  timeout : Option (Value α)
  redis : RedisSettings α

inductive StoreChoice (α : Type) where
  | prebuilt (store : PrebuiltStore α)
  | redis (options : RedisOptions α)
  | memory (options : MemoryOptions α)

def StoreChoice.backend {α : Type} : StoreChoice α → Backend
  | prebuilt store => store.backend
  | redis _ => .redis
  | memory _ => .memory

namespace Config

variable {α : Type}

def memoryOptions (c : Config α) : MemoryOptions α where
  toLimit := c.limit
  idleTimeout := c.idleTimeout
  maxBuckets := some c.maxBuckets

def redisOptions (c : Config α) (redis : RedisSettings α) : RedisOptions α where
  rate := some (.number c.limit.rate)
  capacity := some (.number c.limit.capacity)
  keyLead := some c.keyLead
  ttlSeconds := some (.number c.ttlSeconds)
  timeout := some (.number c.timeout)
  redis := redis

def storeChoice (c : Config α) : StoreChoice α :=
  match c.store, c.redis with
  | some (.on store), _ => .prebuilt store
  | _, some (.on redis) => .redis (c.redisOptions redis)
  | _, _ => .memory c.memoryOptions

end Config

def Settings.storeChoice {α : Type} [Scalar α] (s : Settings α) :
    Except (SettingsFault α) (StoreChoice α) :=
  s.resolve.map Config.storeChoice

/-- How the client of a store that is given none is built: from one address, or from its parts. -/
inductive ClientAddress (α : Type) where
  | url (url : Value α)
  | host (host portNumber : Value α) (password : Option (Value α))

def RedisSettings.address? {α : Type} [Scalar α] (r : RedisSettings α) : Option (ClientAddress α) :=
  let given (v : Option (Value α)) : Option (Value α) := v.filter Value.isTruthy
  match r.client with
  | some _ => none
  | none =>
    match given r.url with
    | some url => some (.url url)
    | none =>
      let host := (given r.host).getD (.text "localhost")
      let portNumber := (given r.portNumber).getD (.number 6379)
      some (.host host portNumber r.password)

end Admission
