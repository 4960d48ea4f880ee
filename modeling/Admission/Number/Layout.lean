import Admission.Number.Decimal
import Admission.Number.Scalar

/-!
How a number is written.

A number is written positionally, with an exponent only where it is very large or very small. In
messages, keys and answers, `plainText` shows the shortest decimal that reads back to the number.
The shared bucket keeps `storedText`, which shows fourteen significant digits.
-/
namespace Admission

namespace Decimal

/-- Positional writing begins at this power of ten of the leading digit: one millionth. -/
def plainFrom : Int := -6

/-- Positional writing ends below this power of ten of the leading digit. -/
def plainBelow : Int := 21

def digitsText (n : Nat) : List Char := Nat.toDigits 10 n

def text (d : Decimal) : List Char :=
  let cs := digitsText d.digits
  let lead := d.exponent + cs.length - 1
  if plainFrom ≤ lead ∧ lead < plainBelow then
    if 0 ≤ d.exponent then cs ++ List.replicate d.exponent.toNat '0'
    else if 0 ≤ lead then cs.take (lead.toNat + 1) ++ '.' :: cs.drop (lead.toNat + 1)
    else '0' :: '.' :: List.replicate (-lead - 1).toNat '0' ++ cs
  else
    let fraction := if cs.length ≤ 1 then [] else '.' :: cs.drop 1
    cs.take 1 ++ fraction ++ 'e' :: (if lead < 0 then '-' else '+') :: digitsText lead.natAbs

end Decimal

/-- The text of a number, whose size is first turned into a decimal. Zero has no sign. -/
def numberText (decimal : Dyadic → Decimal) (x : Float) : String :=
  if x.isNaN then "NaN"
  else
    let size := Dyadic.ofFloat x
    if x.isFinite && size.mantissa == 0 then "0"
    else
      let sign : List Char := if isSigned x then ['-'] else []
      String.ofList (sign ++ if x.isFinite then (decimal size).text else "Infinity".toList)

def plainText (x : Float) : String := numberText Dyadic.shortest x

def storedText (x : Float) : String := numberText (fun d => d.significant 14) x

end Admission
