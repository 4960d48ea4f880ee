import Admission.Deployment.Basic

/-!
Calling a Redis client.

A scripted client records each call and takes its next reply. The client of the Redis inside this
process runs the script against the shared table and answers at once. Something that is no client
fails on every call.
-/
namespace Admission

inductive ClientCall (α : Type) where
  | eval (evaluation : Evaluation α)
  | ping
  | connect
  | quit

namespace ClientCall

variable {α : Type}

def recorded : ClientCall α → Call α
  | eval evaluation => .eval evaluation
  | ping => .ping
  | connect => .connect
  | quit => .quit

def name : ClientCall α → String
  | eval _ => "eval"
  | ping => "ping"
  | connect => "connect"
  | quit => "quit"

end ClientCall

/-- The arguments of a run in the written form; `none` if one of them cannot be written. -/
def Evaluation.command? {α : Type} [Textual α] (e : Evaluation α) :
    Option (Shared.Command String) := do
  let rate ← textOrMissing? e.rate
  let capacity ← textOrMissing? e.capacity
  let now ← textOrMissing? e.now
  let ttlSeconds ← textOrMissing? e.ttlSeconds
  some ⟨e.key, rate, capacity, now, ttlSeconds⟩

def ClientScript.next {α : Type} [Scalar α] (script : ClientScript α) :
    ClientCall α → Reply α × ClientScript α
  | .eval _ =>
    let (reply, eval) := script.eval.next (.value (.number 1))
    (reply, { script with eval })
  | .ping =>
    let (reply, ping) := script.ping.next (.value (.text "PONG"))
    (reply, { script with ping })
  | .connect =>
    let (reply, connect) := script.connect.next (.value .null)
    (reply, { script with connect })
  | .quit =>
    let (reply, quit) := script.quit.next (.value (.text "OK"))
    (reply, { script with quit })

namespace Deployment

variable {α : Type}

def setClient (s : Deployment α) (i : ClientId) (client : Client α) : Deployment α :=
  { s with clients := s.clients.set i client }

def setLinkStatus (s : Deployment α) (i : ClientId) (status : LinkStatus) : Deployment α :=
  { s with clients := s.clients.modify i fun client => { client with status } }

def linkStatus (s : Deployment α) (i : ClientId) : LinkStatus :=
  match s.clients[i]? with
  | some client => client.status
  | none => .other

/-- The answer of the Redis inside this process to one run of the script. -/
def evalHere [Scalar α] [Textual α] (s : Deployment α) (evaluation : Evaluation α) :
    Reply α × Deployment α :=
  match evaluation.command? with
  | none => (.settles none (.error .wordless) none, s)
  | some command =>
    let (answer, keyspace) := Shared.run .textual s.clock command s.keyspace
    match answer with
    | .ok allowed => (.value (.number (if allowed then 1 else 0)), { s with keyspace })
    | .error e => (.settles none (.error (.general e.message)) none, { s with keyspace })

def callClient [Scalar α] [Textual α] (s : Deployment α) (i : ClientId) (call : ClientCall α) :
    Reply α × Deployment α :=
  let unusable : Reply α := .throws (.misuse ("this.client." ++ call.name ++ " is not a function"))
  match s.clients[i]? with
  | some ⟨.scripted script, status⟩ =>
    let (reply, script) := script.next call
    (reply, (s.setClient i ⟨.scripted script, status⟩).record call.recorded)
  | some ⟨.server, _⟩ =>
    match call with
    | .eval evaluation => s.evalHere evaluation
    | .ping => (.value (.text "PONG"), s)
    | .connect => (.value .null, s)
    | .quit => (.value (.text "OK"), s)
  | some ⟨.unusable, _⟩ | none => (unusable, s)

/-- Puts the outcome of a reply where it will be taken up: at once or when its time has come, and
then after so many turns. A reply that throws is the caller's to deal with. -/
def arrange [Scalar α] (s : Deployment α) (reply : Reply α) (turnsNow turnsLater : Nat)
    (job : Outcome α → Job α) : Deployment α :=
  match reply with
  | .throws _ | .never => s
  | .settles none outcome _ => s.post turnsNow (job outcome)
  | .settles (some delay) outcome _ => s.setTimer delay (.reply turnsLater (job outcome))

end Deployment

end Admission
