import Admission.Deployment.Basic

/-!
Setting a deployment up.

Every deployment has the same three supplied clients: one that follows the script, one that talks to
the Redis inside this process, and one that is no client. A store that is supplied none builds a
client of its own, which follows the script from its beginning.
-/
namespace Admission

def SuppliedClient.position : SuppliedClient → ClientId
  | scripted => 0
  | server => 1
  | unusable => 2

namespace Deployment

variable {α : Type} [Scalar α]

/-- A deployment without stores, on a clock that is moved by hand. -/
def empty (clock : α) (script : ClientScript α) : Deployment α where
  clockwork := .simulated
  clock := clock
  clients := [⟨.scripted script, .ready⟩, ⟨.server, .ready⟩, ⟨.unusable, .ready⟩]

def addStore (s : Deployment α) (store : Store α) : Deployment α :=
  { s with stores := s.stores ++ [store] }

def addRedis (s : Deployment α) (script : ClientScript α) (options : RedisOptions α) :
    Deployment α :=
  match options.redis.client, options.redis.address? with
  | none, some address =>
    let client : Client α := ⟨.scripted script, .waiting⟩
    let store : RedisStore α := ⟨options, s.clients.length, true, none⟩
    ({ s with clients := s.clients ++ [client] }.record (.built address)).addStore (.redis store)
  | client, _ =>
    let store : RedisStore α := ⟨options, (client.getD .unusable).position, false, none⟩
    s.addStore (.redis store)

def addPrebuilt (s : Deployment α) : PrebuiltStore α → Deployment α
  | .memory options => s.addStore (.memory (.empty options))
  | .scripted script => s.addStore (.scripted script)

def addChosen (s : Deployment α) (script : ClientScript α) : StoreChoice α → Deployment α
  | .prebuilt store => s.addPrebuilt store
  | .redis options => s.addRedis script options
  | .memory options => s.addStore (.memory (.empty options.unchecked))

def addLimiter (s : Deployment α) (settings : Settings α) (store : StoreId) (scheduled : Bool) :
    Except (SettingsFault α) (Deployment α) :=
  settings.resolve.map fun config =>
    { s with limiters := s.limiters ++ [⟨config, store, scheduled, none⟩] }

/-- Builds a limiter on a store that is handed to it, or else on the one its settings choose. -/
def buildLimiter (s : Deployment α) (script : ClientScript α) (settings : Settings α)
    (store : Option (PrebuiltStore α)) (scheduled : Bool) :
    Except (SettingsFault α) (Deployment α) := do
  let _ ← settings.resolve
  let withStore ← match store with
    | some store => .ok (s.addPrebuilt store)
    | none => settings.storeChoice.map (s.addChosen script)
  withStore.addLimiter settings s.stores.length scheduled

end Deployment

end Admission
