import Admission.Decision
import Admission.Key
import Admission.Value

/-!
What can go wrong in a check, and how it is worded.

A store that cannot reach a decision raises a store fault, which carries its reason. Everything else
that may surface is listed beside it, so that a fault says what happened and not only how it is
worded. Only a bare value may be beyond words; where it has to be put into words, that fails in
turn.
-/
namespace Admission

inductive FailureReason where
  | timeout
  | aborted
  | unavailable
  | malformed
  /-- A reason that only a store of the application's own gives. -/
  | other (name : String)
deriving DecidableEq

def FailureReason.text : FailureReason → String
  | timeout => "timeout"
  | aborted => "aborted"
  | unavailable => "unavailable"
  | malformed => "protocol"
  | other name => name

def FailureReason.ofText : String → FailureReason
  | "timeout" => timeout
  | "aborted" => aborted
  | "unavailable" => unavailable
  | "protocol" => malformed
  | name => other name

inductive Fault (α : Type) where
  | general (message : String)
  | misuse (message : String)
  | bare (value : Option (Value α))
  | limitExceeded
  | aborted
  | timedOut (milliseconds : String)
  | unavailable (cause : Fault α)
  | malformed (reply : String)
  /-- A store fault that a store made itself. -/
  | reported (reason : FailureReason) (message : String)

namespace Fault

variable {α : Type}

/-- A value that has no text was to be put into words. -/
def wordless : Fault α := misuse "Cannot convert object to primitive value"

def worded : Option String → Fault α
  | some message => general message
  | none => wordless

def reason? : Fault α → Option FailureReason
  | aborted => some .aborted
  | timedOut _ => some .timeout
  | unavailable _ => some .unavailable
  | malformed _ => some .malformed
  | reported reason _ => some reason
  | _ => none

def refusal? : Fault α → Option Refusal
  | limitExceeded => some refusal
  | _ => none

def ofKeyFault : KeyFault → Fault α
  | .failed message => general message
  | .unusable => misuse ""

variable [Textual α]

/-- The message of a fault; `none` if it goes back to a value that has no text. -/
def message? : Fault α → Option String
  | general message => some message
  | misuse message => some message
  | bare value => textOrMissing? value
  | limitExceeded => some refusal.message
  | aborted => some "Rate limit check aborted"
  | timedOut milliseconds => some ("Redis did not answer within " ++ milliseconds ++ "ms")
  | unavailable cause => cause.message?
  | malformed reply => some ("Unexpected token bucket script reply: " ++ reply)
  | reported _ message => some message

/-- A failure to reach the store, unless the failure is a store fault already; `none` if it cannot
be put into words. -/
def asStoreFault? (f : Fault α) : Option (Fault α) :=
  match f.reason? with
  | some _ => some f
  | none => f.message?.map fun _ => unavailable f

def causeText? : Fault α → Option String
  | unavailable cause => cause.message?
  | _ => none

end Fault

/-- A name and a message on one line; the name alone when the message is empty. -/
def headline (name message : String) : String :=
  if message = "" then name else name ++ ": " ++ message

end Admission
