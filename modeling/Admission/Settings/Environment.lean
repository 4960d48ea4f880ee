import Admission.Settings

/-!
Settings read from environment variables.

A variable that is missing or empty leaves its setting out; rate and capacity must be there. Numbers
and flags are read from text, and a variable whose value does not fit its setting is an error that
names the variable.
-/
namespace Admission

abbrev Environment (α : Type) := String → Option (Value α)

inductive EnvironmentFault where
  | notNumber (name got : String)
  | notFlag (name : String) (got : String)
  | incomplete
  | key (error : KeyNameError)
  /-- A value is neither what its variable needs nor a text. -/
  | unusable
deriving DecidableEq

namespace Environment

variable {α : Type}

def rateVariable : String := "RATE_LIMIT_RATE"
def capacityVariable : String := "RATE_LIMIT_CAPACITY"
def keyVariable : String := "RATE_LIMIT_KEY"
def redisVariable : String := "RATE_LIMIT_REDIS_URL"
def keyLeadVariable : String := "RATE_LIMIT_KEY_PREFIX"
def ttlVariable : String := "RATE_LIMIT_TTL_SECONDS"
def timeoutVariable : String := "RATE_LIMIT_TIMEOUT_MS"
def failOpenVariable : String := "RATE_LIMIT_FAIL_OPEN"

/-- The value of a variable that is set to something. -/
def given (env : Environment α) (name : String) : Option (Value α) :=
  (env name).filter fun
    | .text s => s != ""
    | _ => true

def meaningful [Scalar α] (env : Environment α) (name : String) : Option (Value α) :=
  (env name).filter Value.isTruthy

def readNumber [Scalar α] [Textual α] (env : Environment α) (name : String) :
    Except EnvironmentFault (Option α) :=
  match env.given name with
  | none => .ok none
  | some raw =>
    match raw.asNumber?, raw.text? with
    | some x, _ => .ok (some x)
    | none, some got => .error (.notNumber name got)
    | none, none => .error .unusable

def flag? (text : String) : Option Bool :=
  match lowercase text with
  | "true" | "1" => some true
  | "false" | "0" => some false
  | _ => none

def readFlag (env : Environment α) (name : String) : Except EnvironmentFault (Option Bool) :=
  match env.given name with
  | none => .ok none
  | some (.bool b) => .ok (some b)
  | some (.text s) =>
    match flag? s with
    | some b => .ok (some b)
    | none => .error (.notFlag name s)
  | some _ => .error .unusable

def readKeyRule [Scalar α] (env : Environment α) : Except EnvironmentFault (Option (KeyRule α)) :=
  match env.meaningful keyVariable with
  | none => .ok none
  | some (.text name) =>
    match KeyRule.named name with
    | .ok rule => .ok (some rule)
    | .error e => .error (.key e)
  | some _ => .error .unusable

/-- The settings that an environment describes. They are not yet validated. -/
def settings [Scalar α] [Textual α] (env : Environment α) :
    Except EnvironmentFault (Settings α) := do
  let rate ← env.readNumber rateVariable
  let capacity ← env.readNumber capacityVariable
  match rate, capacity with
  | some rate, some capacity =>
    let keyRule ← env.readKeyRule
    let ttlSeconds ← env.readNumber ttlVariable
    let timeout ← env.readNumber timeoutVariable
    let failOpen ← env.readFlag failOpenVariable
    .ok {
      rate := some (.number rate)
      capacity := some (.number capacity)
      keyRule
      redis := (env.meaningful redisVariable).map fun url => .on { url := some url }
      keyLead := env.meaningful keyLeadVariable
      ttlSeconds := ttlSeconds.map .number
      timeout := timeout.map .number
      failOpen := failOpen.map .bool }
  | _, _ => .error .incomplete

end Environment

def EnvironmentFault.error {α : Type} : EnvironmentFault → Fault α
  | notNumber name got => .general (name ++ " must be a number, got \"" ++ got ++ "\"")
  | notFlag name got => .general (name ++ " must be true or false, got \"" ++ got ++ "\"")
  | incomplete => .general "RATE_LIMIT_RATE and RATE_LIMIT_CAPACITY must be set"
  | key e => .general e.message
  | unusable => .misuse ""

end Admission
