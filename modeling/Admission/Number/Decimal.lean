/-!
Decimals of a binary floating point number.

A finite number is taken apart into `mantissa * 2 ^ scale`, and everything below is exact
arithmetic on that pair. `shortest` gives the decimal with the fewest digits that reads back to the
same number, the nearest of those if there are several. `significant n` rounds to `n` digits.
-/
namespace Admission

structure Decimal where
  digits : Nat
  exponent : Int
deriving DecidableEq

namespace Decimal

def width (n : Nat) : Nat :=
  if n = 0 then 0 else width (n / 10) + 1
termination_by n
decreasing_by omega

def trimmed (d : Decimal) : Decimal :=
  if h : d.digits ≠ 0 ∧ d.digits % 10 = 0 then trimmed ⟨d.digits / 10, d.exponent + 1⟩ else d
termination_by d.digits
decreasing_by omega

end Decimal

/-- A positive number `mantissa * 2 ^ scale`, as the binary format holds it. -/
structure Dyadic where
  mantissa : Nat
  scale : Int
  /-- The neighbour below is half as far away as the neighbour above. -/
  narrowBelow : Bool

namespace Dyadic

def ofFloat (x : Float) : Dyadic :=
  let bits := x.toBits
  let field := ((bits >>> 52) &&& 0x7FF).toNat
  let fraction := (bits &&& 0xFFFFFFFFFFFFF).toNat
  if field = 0 then ⟨fraction, -1074, false⟩
  else ⟨0x10000000000000 + fraction, (field : Int) - 1075, fraction = 0 ∧ 1 < field⟩

def compareScaled (a : Nat) (e : Int) (n : Nat) (s : Int) : Ordering :=
  compare (a * Nat.pow 10 e.toNat * Nat.pow 2 (-s).toNat)
    (n * Nat.pow 2 s.toNat * Nat.pow 10 (-e).toNat)

/-- A decimal reads back to this number: it lies between the midpoints to both neighbours, which
themselves read back exactly when the mantissa is even. -/
def readsBack (x : Dyadic) (d : Decimal) : Bool :=
  let below := if x.narrowBelow then 4 * x.mantissa - 1 else 4 * x.mantissa - 2
  let above := 4 * x.mantissa + 2
  let atLow := compareScaled d.digits d.exponent below (x.scale - 2)
  let atHigh := compareScaled d.digits d.exponent above (x.scale - 2)
  if x.mantissa % 2 = 0 then atLow != .lt && atHigh != .gt else atLow == .gt && atHigh == .lt

def magnitude (x : Dyadic) : Int :=
  let guess := ((x.mantissa.log2 + x.scale) * 30103) / 100000
  let fits (k : Int) : Bool := compareScaled 1 k x.mantissa x.scale == .gt
  if fits (guess - 1) then guess - 1
  else if fits guess then guess
  else if fits (guess + 1) then guess + 1
  else guess + 2

def inUnits (x : Dyadic) (e : Int) : Nat × Nat :=
  (x.mantissa * Nat.pow 2 x.scale.toNat * Nat.pow 10 (-e).toNat,
    Nat.pow 2 (-x.scale).toNat * Nat.pow 10 e.toNat)

/-- The decimal with `n` digits that reads back, if there is one: the nearer of the two neighbours
on that grid, the even one when both are equally near. -/
def withDigits (x : Dyadic) (n : Nat) : Option Decimal :=
  let e := x.magnitude - n
  let (num, den) := x.inUnits e
  let low : Decimal := ⟨num / den, e⟩
  let high : Decimal := ⟨num / den + 1, e⟩
  match x.readsBack low, x.readsBack high with
  | false, false => none
  | true, false => some low
  | false, true => some high
  | true, true =>
    match compare (2 * (num % den)) den with
    | .lt => some low
    | .gt => some high
    | .eq => some (if num / den % 2 = 0 then low else high)

def exactly (x : Dyadic) : Decimal :=
  ⟨x.mantissa * Nat.pow 2 x.scale.toNat * Nat.pow 5 (-x.scale).toNat, -(-x.scale).toNat⟩

/-- The shortest decimal that reads back. Seventeen digits suffice for every binary number. -/
def shortest (x : Dyadic) : Decimal :=
  (((List.range' 1 17).findSome? x.withDigits).getD x.exactly).trimmed

/-- The number rounded to `n` significant digits, a half going to the larger neighbour. -/
def significant (x : Dyadic) (n : Nat) : Decimal :=
  let e := x.magnitude - n
  let (num, den) := x.inUnits e
  Decimal.trimmed ⟨if den ≤ 2 * (num % den) then num / den + 1 else num / den, e⟩

end Dyadic

end Admission
