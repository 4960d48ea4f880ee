import Admission.Value

/-!
Incoming requests, as far as a limiter looks at them.

Nobody has checked the parts of a request either. Most are texts, and so are the addresses and paths
taken from them; what is something else is passed on as it stands wherever that is possible.
-/
namespace Admission

structure Request (α : Type) where
  /-- Missing if there is nothing in which headers could be looked up. -/
  headers : Option (List (String × Value α)) := some []
  remoteAddress : Option (Value α) := none
  receivedUrl : Option (Value α) := none
  url : Option (Value α) := none
  clientId : Option (Value α) := none
  /-- What tells a request apart that may come more than once. -/
  serial : Option Nat := none

namespace Request

variable {α : Type}

/-- The headers that a value holds; `none` if nothing can be looked up in it. The parts of a list
or a text go by their numbers, and stand beside its length. -/
def headersOf [Scalar α] : Option (Value α) → Option (List (String × Value α))
  | some .null => none
  | some (.object fields) => some fields
  | some (.list items) => some (numbered items)
  | some (.text s) => some (numbered (s.toList.map fun c => .text c.toString))
  | _ => some []
where
  numbered (parts : List (Value α)) : List (String × Value α) :=
    ("length", .number (Scalar.count parts.length)) ::
      parts.zipIdx.map fun (part, i) => (toString i, part)

def orEmpty : Option (Value α) → Value α
  | none | some .null => .text ""
  | some v => v

/-- The value of a header given by its lower-case name, several values joined to one text; `none` if
it cannot be looked up or joined. -/
def header? [Textual α] (r : Request α) (name : String) : Option (Value α) :=
  r.headers.bind fun headers =>
    match orEmpty (headers.lookup name) with
    | .list items => (Value.itemTexts? items).map fun texts => .text (String.intercalate ", " texts)
    | v => some v

def address? [Textual α] (r : Request α) : Option (Value α) :=
  (r.header? "x-forwarded-for").map fun
    | .text "" => orEmpty r.remoteAddress
    | forwarded => forwarded

def target [Scalar α] (r : Request α) : Value α :=
  let given (url : Option (Value α)) : Option (Value α) := url.filter Value.isTruthy
  ((given r.receivedUrl).orElse fun _ => given r.url).getD (.text "")

def isQuestionMark : Value α → Bool
  | .text "?" => true
  | _ => false

def isCut [Scalar α] (r : Request α) : Bool :=
  match r.target with
  | .list items => items.any isQuestionMark
  | _ => false

/-- The target up to its first question mark; `none` if that can be found in nothing of its kind. -/
def path? [Scalar α] (r : Request α) : Option (Value α) :=
  match r.target with
  | .text target => some (.text (String.ofList (target.toList.takeWhile (· != '?'))))
  | .list items => some (.list (items.takeWhile fun item => !isQuestionMark item))
  | _ => none

def client (r : Request α) : Value α := orEmpty r.clientId

def identify (r : Request α) (id : Option (Value α)) : Request α := { r with clientId := id }

end Request

end Admission
