import Admission.Number.Scalar
import Admission.Value

/-!
Values that are taken for numbers.

Limits, times and the contents of buckets may come from callers who have not checked them. They are
read as numbers only when it comes to calculating with them, so that every rule that holds for
numbers can be applied to them as they are. Sums are made before they are read: a text, or what is
written as one, is joined with what is added to it. What cannot be written cannot be read either; a
calculation gives it back, and so it shows in the end that the calculation has failed.
-/
namespace Admission

/-- A value that may be missing, in the place of a number. -/
structure Unchecked (α : Type) where
  value : Option (Value α)

namespace Unchecked

variable {α : Type}

def ofNumber (x : α) : Unchecked α := ⟨some (.number x)⟩

variable [Textual α]

def isReadable (x : Unchecked α) : Bool :=
  match x.value with
  | some (.list items) => (Value.itemTexts? items).isSome
  | some (.object fields) => (Value.object fields).text?.isSome
  | _ => true

variable [Scalar α]

def toNumber (x : Unchecked α) : α := numeral x.value

def map (f : α → α) (x : Unchecked α) : Unchecked α :=
  if x.isReadable then ofNumber (f x.toNumber) else x

def map₂ (f : α → α → α) (x y : Unchecked α) : Unchecked α :=
  if !x.isReadable then x else if y.isReadable then ofNumber (f x.toNumber y.toNumber) else y

/-- Whether a value is joined to another as text. -/
def isText (x : Unchecked α) : Bool :=
  match x.value with
  | some (.text _) | some (.list _) | some (.object _) => true
  | _ => false

def add (x y : Unchecked α) : Unchecked α :=
  if x.isText || y.isText then
    match textOrMissing? x.value, textOrMissing? y.value with
    | some start, some rest => ⟨some (.text (start ++ rest))⟩
    | none, _ => x
    | some _, none => y
  else map₂ (· + ·) x y

instance : Scalar (Unchecked α) where
  add := add
  sub := map₂ (· - ·)
  mul := map₂ (· * ·)
  div := map₂ (· / ·)
  le x y := x.toNumber ≤ y.toNumber
  lt x y := x.toNumber < y.toNumber
  count n := ofNumber (Scalar.count n)
  decideLE x y := inferInstanceAs (Decidable (x.toNumber ≤ y.toNumber))
  decideLT x y := inferInstanceAs (Decidable (x.toNumber < y.toNumber))
  larger := map₂ Scalar.larger
  smaller := map₂ Scalar.smaller
  ceiling := map Scalar.ceiling
  isFinite x := x.isReadable && Scalar.isFinite x.toNumber
  wholeSteps x := Scalar.wholeSteps x.toNumber

end Unchecked

end Admission
