import Admission.Decision
import Admission.Fault
import Admission.Scripted

/-!
What a limiter reports about itself.

Every line of the log is a `Notice`: what happened, which part of the limiter noticed it, how
serious it is, and how it is worded.
-/
namespace Admission

inductive Severity where
  | debug
  | info
  | warning
deriving DecidableEq

def Severity.name : Severity → String
  | debug => "debug"
  | info => "log"
  | warning => "warn"

inductive Reporter where
  | memoryStore
  | redisStore
  | limiter
deriving DecidableEq

def Reporter.name : Reporter → String
  | memoryStore => "MemoryBucketStore"
  | redisStore => "RedisBucketStore"
  | limiter => "RateLimiterService"

/-- Keys, what keys begin with, and causes stand in a notice as they are written. -/
inductive Notice (α : Type) where
  | evicted (key : String)
  | swept (removed remaining : Nat)
  | linked (keyLead : String)
  | unreachable (cause : String)
  | quitFailed (cause : String)
  | linkFault (message : String)
  | ready (rate capacity : α) (backend : Backend)
  | sweeping (interval : α)
  | exceeded (key : String)
  | abandoned (key : String)
  | undecided (key : String) (decision : Decision) (cause : String)

namespace Notice

variable {α : Type}

def severity : Notice α → Severity
  | linked _ | ready .. | sweeping _ => .info
  | unreachable _ | linkFault _ | undecided .. => .warning
  | evicted _ | swept .. | quitFailed _ | exceeded _ | abandoned _ => .debug

def reporter : Notice α → Reporter
  | evicted _ | swept .. => .memoryStore
  | linked _ | unreachable _ | quitFailed _ | linkFault _ => .redisStore
  | ready .. | sweeping _ | exceeded _ | abandoned _ | undecided .. => .limiter

def text [Textual α] : Notice α → String
  | evicted key => "Evicted least recently used bucket " ++ key
  | swept removed remaining =>
    "Swept " ++ toString removed ++ " idle buckets, " ++ toString remaining ++ " remaining"
  | linked keyLead => "Initialized RedisBucketStore with prefix: " ++ keyLead
  | unreachable cause => "Redis unreachable at startup: " ++ cause
  | quitFailed cause => "Redis quit failed, disconnecting: " ++ cause
  | linkFault message => "Redis connection error: " ++ message
  | ready rate capacity backend =>
    "Rate limiter ready: " ++ Textual.text rate ++ " tokens/s, capacity " ++
      Textual.text capacity ++ ", " ++ backend.text ++ " backend"
  | sweeping interval => "Registered idle bucket sweep every " ++ Textual.text interval ++ "ms"
  | exceeded key => "Rate limit exceeded for key " ++ key
  | abandoned key => "Rate limit check for key " ++ key ++ " aborted"
  | undecided key decision cause =>
    "Rate limit store failure for key " ++ key ++ ", decision " ++ decision.text ++ ": " ++ cause

end Notice

end Admission
