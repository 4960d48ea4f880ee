import Admission.Number.Decimal
import Admission.Text.Blank

/-!
How a number is read.

`readSetting` reads a number from a setting's text, where nothing but blanks means zero.
`readStored` reads a number that the shared bucket kept as text. Both take decimals with a sign, a
point and an exponent, and whole numbers in base sixteen. A setting may also use base eight or two
and may be infinite. In a stored text, base sixteen may have a sign, a point and a power of two;
whole numbers in that base are words of thirty-two bits.
-/
namespace Admission

namespace Numeral

def digit? (base : Nat) (c : Char) : Option Nat :=
  let value :=
    if '0' ≤ c ∧ c ≤ '9' then some (c.toNat - '0'.toNat)
    else if 'a' ≤ c ∧ c ≤ 'f' then some (c.toNat - 'a'.toNat + 10)
    else if 'A' ≤ c ∧ c ≤ 'F' then some (c.toNat - 'A'.toNat + 10)
    else none
  value.filter (· < base)

def whole? (base : Nat) : List Char → Option Nat
  | [] => none
  | cs => cs.foldlM (fun n c => (digit? base c).map (base * n + ·)) 0

def signed? : List Char → Bool × List Char
  | '-' :: cs => (true, cs)
  | '+' :: cs => (false, cs)
  | cs => (false, cs)

def power? : List Char → Option Int
  | [] => some 0
  | 'e' :: cs | 'E' :: cs =>
    let (negative, ds) := signed? cs
    (whole? 10 ds).map fun n => if negative then -(n : Int) else n
  | _ => none

/-- Digits with at most one point among them, then a power of ten. -/
def decimal? (cs : List Char) : Option Decimal :=
  let (lead, rest) := cs.span Char.isDigit
  let (fraction, rest) := match rest with
    | '.' :: rest => rest.span Char.isDigit
    | _ => ([], rest)
  do
    let digits ← whole? 10 (lead ++ fraction)
    let power ← power? rest
    some ⟨digits, power - fraction.length⟩

def based? (marks : Char → Option Nat) : List Char → Option Nat
  | '0' :: m :: cs => (marks m).bind (whole? · cs)
  | _ => none

/-- The whole number that the last thirty-two bits of a number stand for. -/
def word (n : Int) : Int := Int.bmod n 0x100000000

def binaryPower? : List Char → Option Int
  | 'p' :: cs | 'P' :: cs => power? ('e' :: cs)
  | cs => if cs.isEmpty then some 0 else none

/-- Digits in base sixteen behind their mark, with at most one point among them, then a power of
two: the digits as a whole number, and its power of two. -/
def hexadecimal? : List Char → Option (Nat × Int)
  | '0' :: m :: cs =>
    let isDigit (c : Char) : Bool := (digit? 16 c).isSome
    let (lead, rest) := cs.span isDigit
    let (fraction, rest) := match rest with
      | '.' :: rest => rest.span isDigit
      | _ => ([], rest)
    do
      guard (m = 'x' ∨ m = 'X')
      let digits ← whole? 16 (lead ++ fraction)
      let power ← binaryPower? rest
      some (digits, power - 4 * fraction.length)
  | _ => none

end Numeral

/-- The nearest number to a decimal. Powers far outside the range are cut off before they are
raised. -/
def Decimal.toFloat (d : Decimal) : Float :=
  let lead := d.exponent + width d.digits
  if d.digits = 0 ∨ lead < -400 then 0
  else if 400 < lead then 1 / 0
  else Float.ofScientific d.digits (d.exponent < 0) d.exponent.natAbs

private def withSign (negative : Bool) (x : Float) : Float := if negative then -x else x

def readSetting (text : String) : Option Float :=
  let cs := strip isBlank text.toList
  if cs.isEmpty then some 0
  else
    let base : Char → Option Nat
      | 'x' | 'X' => some 16
      | 'o' | 'O' => some 8
      | 'b' | 'B' => some 2
      | _ => none
    match Numeral.based? base cs with
    | some n => some (Decimal.toFloat ⟨n, 0⟩)
    | none =>
      let (negative, body) := Numeral.signed? cs
      if body = "Infinity".toList then some (withSign negative (1 / 0))
      else (Numeral.decimal? body).map fun d => withSign negative d.toFloat

def readStored (text : String) : Option Float :=
  let (negative, body) := Numeral.signed? (strip isPlainBlank text.toList)
  let base : Char → Option Nat
    | 'x' | 'X' => some 16
    | _ => none
  match Numeral.based? base body with
  | some n => some (Float.ofInt (Numeral.word (if negative then -(n : Int) else n)))
  | none =>
    match Numeral.hexadecimal? body with
    | some (digits, power) =>
      some (withSign negative ((Decimal.toFloat ⟨digits, 0⟩).scaleB power))
    | none => (Numeral.decimal? body).map fun d => withSign negative d.toFloat

end Admission
