/-!
The outcome of an admission check, and the answer a refused request gets.
-/
namespace Admission

inductive Decision where
  | allow
  | deny
deriving DecidableEq

def Decision.text : Decision → String
  | allow => "allow"
  | deny => "deny"

/-- The answer to a refused request. -/
structure Refusal where
  status : Nat
  message : String
  field : String
  detail : String
deriving DecidableEq

def refusal : Refusal where
  status := 429
  message := "rate limit exceeded"
  field := "rate_limit"
  detail := "too many requests"

end Admission
