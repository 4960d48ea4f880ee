import Admission.Number.Decimal

/-!
The numbers a limiter computes with.

Every rule of the library is written once, over any `Scalar`. Two kinds of number matter: the
binary floating point numbers a running limiter uses, and the exact rationals in which its laws
are stated. The operations are those the rules need; `larger` and `smaller` fix what happens when
an operand is no number at all, which the rationals never show.
-/
namespace Admission

class Scalar (α : Type) extends Add α, Sub α, Mul α, Div α, LE α, LT α where
  count : Nat → α
  decideLE (x y : α) : Decidable (x ≤ y)
  decideLT (x y : α) : Decidable (x < y)
  /-- The larger of two numbers; undefined as soon as one of them is. -/
  larger : α → α → α
  smaller : α → α → α
  ceiling : α → α
  isFinite : α → Bool
  /-- How many whole steps of one fit below; zero for anything negative. -/
  wholeSteps : α → Nat

namespace Scalar

variable {α : Type} [Scalar α]

instance (x y : α) : Decidable (x ≤ y) := decideLE x y

instance (x y : α) : Decidable (x < y) := decideLT x y

instance (priority := low) literal (n : Nat) : OfNat α n := ⟨count n⟩

def isWhole (x : α) : Bool := isFinite x && decide (ceiling x ≤ x)

end Scalar

/-- The exact rationals: every number is finite, and a comparison never fails. -/
instance : Scalar Rat where
  count n := n
  decideLE _ _ := inferInstance
  decideLT _ _ := inferInstance
  larger x y := if x ≤ y then y else x
  smaller x y := if x ≤ y then x else y
  ceiling x := x.ceil
  isFinite _ := true
  wholeSteps x := x.floor.toNat

def isSigned (x : Float) : Bool := x.toBits >>> 63 == 1

/-- The least whole number that is not below a binary number. A number without bits below the point
is whole; what is undefined or infinite has none either. -/
def ceilingOf (x : Float) : Float :=
  let size := Dyadic.ofFloat x
  let unit := Nat.pow 2 (-size.scale).toNat
  if size.mantissa % unit = 0 then x
  else if isSigned x then -Float.ofNat (size.mantissa / unit)
  else Float.ofNat (size.mantissa / unit + 1)

/--
Binary floating point numbers. An operand that is no number makes `larger` and `smaller` no number;
of the two zeros the signed one is the smaller.
-/
instance : Scalar Float where
  count n := Float.ofNat n
  decideLE _ _ := inferInstance
  decideLT _ _ := inferInstance
  larger x y :=
    if x.isNaN then x else if y.isNaN then y
    else if y < x then x else if x < y then y
    else if isSigned x then y else x
  smaller x y :=
    if x.isNaN then x else if y.isNaN then y
    else if x < y then x else if y < x then y
    else if isSigned x then x else y
  ceiling := ceilingOf
  isFinite x := x.isFinite
  wholeSteps x := x.toUInt64.toNat

end Admission
