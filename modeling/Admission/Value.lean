import Admission.Number.Layout
import Admission.Number.Numeral

/-!
Values of unknown type.

Settings, environment variables, keys and the answers of a store arrive as values whose type nobody
has checked yet. `Value` holds them, `Value.text?` writes them the way messages show them,
`Value.asNumber?` reads them as numbers, and `Value.isTruthy` says which of them count as given.
-/
namespace Admission

class Textual (α : Type) where
  text : α → String
  read : String → Option α
  /-- The text in which the shared bucket keeps a number, which may round it. -/
  stored : α → String
  readStored : String → Option α

instance : Textual Float where
  text := plainText
  read := readSetting
  stored := storedText
  readStored := readStored

inductive Value (α : Type) where
  | null
  | bool (b : Bool)
  | number (x : α)
  | text (s : String)
  | list (items : List (Value α))
  | object (fields : List (String × Value α))
deriving Inhabited

namespace Value

variable {α : Type}

/-- Values that count as given: not null, not false, not empty text, and no number that is zero or
undefined. -/
def isTruthy [Scalar α] : Value α → Bool
  | null => false
  | bool b => b
  | number x => decide (x < 0) || decide (0 < x)
  | text s => s != ""
  | list _ => true
  | object _ => true

def number? : Value α → Option α
  | number x => some x
  | _ => none

def textField : String := "toString"

mutual

/-- The text of a value inside a message. An object that says itself how it is written says so with
something that cannot be followed, and has no text; neither has a list it stands in. -/
def text? [Textual α] : Value α → Option String
  | null => some "null"
  | bool b => some (if b then "true" else "false")
  | number x => some (Textual.text x)
  | text s => some s
  | list items => (itemTexts? items).map (String.intercalate ",")
  | object fields => if fields.any (·.1 == textField) then none else some "[object Object]"

def itemTexts? [Textual α] : List (Value α) → Option (List String)
  | [] => some []
  | null :: items => (itemTexts? items).map ("" :: ·)
  | item :: items => do
    let text ← item.text?
    let texts ← itemTexts? items
    some (text :: texts)

end

def asNumber? [Scalar α] [Textual α] : Value α → Option α
  | null => some 0
  | bool b => some (if b then 1 else 0)
  | number x => if x ≤ x then some x else none
  | text s => Textual.read s
  | v => v.text?.bind Textual.read

end Value

section

variable {α : Type}

def textOrMissing? [Textual α] : Option (Value α) → Option String
  | none => some "undefined"
  | some v => v.text?

/-- The number that calculations take a value for. What is no number is taken for what zero divided
by zero gives. -/
def numeral [Scalar α] [Textual α] (v : Option (Value α)) : α :=
  (v.bind Value.asNumber?).getD (0 / 0)

end

end Admission
