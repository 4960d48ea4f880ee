import Admission.Bucket
import Admission.Shared.Keyspace
import Admission.Value

/-!
The bucket that several limiters share.

A bucket is a key with two fields, its tokens and its last update, and one script reads, refills,
takes and writes in one go. The script works on numbers, but its arguments and the fields are kept
in a written form; reading what is no number gives nothing, and arithmetic on nothing fails. Every
number is needed before anything is written.
-/
namespace Admission.Shared

/-- How the script reads its arguments and fields, and how it writes a field. -/
structure Form (α τ : Type) where
  read : τ → Option α
  field : α → τ

def Form.textual {α : Type} [Textual α] : Form α String where
  read := Textual.readStored
  field := Textual.stored

def Form.exact {α : Type} : Form α α where
  read := some
  field x := x

/-- What a caller asks of the script, in the written form: its limit, its own clock, and how long
the key is to live. -/
structure Command (τ : Type) where
  key : String
  rate : τ
  capacity : τ
  now : τ
  ttlSeconds : τ

inductive ScriptError where
  | now
  | rate
  | tokens
  | capacity
deriving DecidableEq

def ScriptError.text : ScriptError → String
  | now => "[string \"...\"]:17: attempt to perform arithmetic on a nil value (local \x27now\x27)"
  | rate => "[string \"...\"]:23: attempt to perform arithmetic on a nil value (local \x27rate\x27)"
  | tokens =>
    "[string \"...\"]:23: attempt to perform arithmetic on a nil value (local \x27tokens\x27)"
  | capacity => "attempt to compare number with nil"

def ScriptError.message (e : ScriptError) : String :=
  "Error trying to loading or executing lua code string in VM: " ++ e.text

def tokensField : String := "tokens"

def lastUpdateField : String := "last_update"

variable {α τ : Type} [Scalar α]

/-- The transition of a bucket that holds `tokens` since `lastUpdate`: whether a token was taken,
and the bucket afterwards. -/
def transition (limit : Limit α) (tokens lastUpdate now : α) : Bool × α × α :=
  let elapsed := now - lastUpdate
  let (elapsed, now) := if elapsed < 0 then (0, lastUpdate) else (elapsed, now)
  let refilled := tokens + elapsed / 1000 * limit.rate
  let tokens := if refilled < limit.capacity then refilled else limit.capacity
  if 1 ≤ tokens then (true, tokens - 1, now) else (false, tokens, now)

def held (form : Form α τ) (space : Keyspace τ α) (clock : α) (key : String) : Option (α × α) := do
  let tokens ← (space.field? clock key tokensField).bind form.read
  let lastUpdate ← (space.field? clock key lastUpdateField).bind form.read
  some (tokens, lastUpdate)

/-- The transition on numbers that may be missing. A bucket that cannot be read starts full. -/
def attempt (rate capacity now : Option α) (held : Option (α × α)) :
    Except ScriptError (Bool × α × α) :=
  match now, rate, capacity, held with
  | none, _, _, _ => .error .now
  | some _, none, _, _ => .error .rate
  | some _, some _, none, none => .error .tokens
  | some _, some _, none, some _ => .error .capacity
  | some now, some rate, some capacity, held =>
    let (tokens, lastUpdate) := held.getD (capacity, now)
    .ok (transition ⟨rate, capacity⟩ tokens lastUpdate now)

/-- Runs the script at an instant of the table's clock: whether it let the call pass or failed, and
the table it leaves. A time to live that is no number sets an instant that is none. -/
def run (form : Form α τ) (clock : α) (c : Command τ) (space : Keyspace τ α) :
    Except ScriptError Bool × Keyspace τ α :=
  let held := held form space clock c.key
  match attempt (form.read c.rate) (form.read c.capacity) (form.read c.now) held with
  | .error e => (.error e, space)
  | .ok (allowed, tokens, lastUpdate) =>
    let fields := [(tokensField, form.field tokens), (lastUpdateField, form.field lastUpdate)]
    let ttl := (form.read c.ttlSeconds).getD (0 / 0)
    (.ok allowed, (space.write clock c.key fields).expire clock c.key ttl)

end Admission.Shared
