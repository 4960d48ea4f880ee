import Admission.Request
import Admission.Text.Lowercase

/-!
Which bucket a request belongs to.

A key rule turns a request into a key; requests with equal keys share a bucket. The usual rules have
names by which a setting chooses them.
-/
namespace Admission

/-- Who made a list or an object that serves as a key. It differs from what anyone else made. -/
inductive Maker where
  | rule
  | request (serial : Nat)
  | call (serial : Nat)
deriving DecidableEq

/-- What tells the keys of buckets apart. Keys are texts as a rule. Values of other kinds are keys
too, and differ from every text, even from one that is written like them. -/
inductive Key where
  | text (s : String)
  | missing
  | null
  | bool (b : Bool)
  | number (written : String)
  /-- A list or an object, which is a key of its own each time somebody makes it. -/
  | made (maker : Maker) (written : Option String)
deriving DecidableEq

namespace Key

variable {α : Type} [Textual α]

def ofValue (maker : Maker) : Option (Value α) → Key
  | none => missing
  | some .null => null
  | some (.bool b) => bool b
  | some (.number x) => number (Textual.text x)
  | some (.text s) => text s
  | some v => made maker v.text?

def text? : Key → Option String
  | text s => some s
  | missing => some "undefined"
  | null => some "null"
  | bool b => some (if b then "true" else "false")
  | number written => some written
  | made _ written => written

end Key

inductive KeyFault where
  | failed (message : String)
  /-- What should be a rule, the name of a header, a request or a part of one is something else. -/
  | unusable
deriving DecidableEq

def Request.maker {α : Type} (r : Request α) (call : Nat) : Maker :=
  match r.serial with
  | some serial => .request serial
  | none => .call call

inductive KeyRule (α : Type) where
  | global
  | address
  | path
  | addressAndPath
  | client
  | clientAndPath
  | header (name : String)
  | constant (key : Option (Value α))
  | failing (fault : KeyFault)
  /-- Something that is no rule at all stands in the place of one. -/
  | invalid

namespace KeyRule

variable {α : Type}

def globalKey : String := "global"

def joined [Textual α] (identity path : Option (Value α)) : Option (Value α) := do
  let identity ← (← identity).text?
  let path ← (← path).text?
  some (.text (identity ++ ":" ++ path))

def part (found : Option (Value α)) : Except KeyFault (Option (Value α)) :=
  match found with
  | some v => .ok (some v)
  | none => .error .unusable

def key [Scalar α] [Textual α] (rule : KeyRule α) (r : Option (Request α)) :
    Except KeyFault (Option (Value α)) :=
  match rule with
  | global => .ok (some (.text globalKey))
  | address => part (r.bind Request.address?)
  | path => part (r.bind Request.path?)
  | addressAndPath => part (joined (r.bind Request.address?) (r.bind Request.path?))
  | client => .ok (some ((r.getD {}).client))
  | clientAndPath => part (joined (some (r.getD {}).client) (r.bind Request.path?))
  | header name => part (r.bind (·.header? (lowercase name)))
  | constant key => .ok key
  | failing fault => .error fault
  | invalid => .error .unusable

/-- Who makes the keys that a rule gives a request in one call. A request whose path has to be cut
brings no list along that could serve as it is. -/
def maker [Scalar α] (rule : KeyRule α) (r : Option (Request α)) (call : Nat) : Maker :=
  match rule, r with
  | constant _, _ => .rule
  | path, some r => if r.isCut then .call call else r.maker call
  | _, some r => r.maker call
  | _, none => .rule

end KeyRule

inductive KeyNameError where
  | emptyHeader
  | unknown (name : String)
deriving DecidableEq

def KeyNameError.message : KeyNameError → String
  | emptyHeader => "Rate limit key \"header:\" must name a header"
  | unknown name => "Unsupported rate limit key: " ++ name

def afterStart (start : List Char) (text : List Char) : Option (List Char) :=
  if start.isPrefixOf text then some (text.drop start.length) else none

def KeyRule.named {α : Type} (name : String) : Except KeyNameError (KeyRule α) :=
  match afterStart "header:".toList name.toList with
  | some [] => .error .emptyHeader
  | some rest => .ok (.header (String.ofList rest))
  | none =>
    match name with
    | "global" => .ok .global
    | "ip" => .ok .address
    | "path" => .ok .path
    | "ip-path" => .ok .addressAndPath
    | "client-id" => .ok .client
    | "client-id-path" => .ok .clientAndPath
    | _ => .error (.unknown name)

end Admission
