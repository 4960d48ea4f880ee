/-!
The order of texts by their sixteen-bit units.

It agrees with the order of characters except that a character beyond the first plane, which takes
two units, stands below the characters from U+E000 up.
-/
namespace Admission

def unitsOf (c : Char) : List Nat :=
  let n := c.toNat
  if n < 0x10000 then [n] else [0xD800 + (n - 0x10000) / 0x400, 0xDC00 + (n - 0x10000) % 0x400]

def units (text : String) : List Nat := text.toList.flatMap unitsOf

/-- Whether the first list of units stands before the second or equals it. -/
def unitsLE : List Nat → List Nat → Bool
  | [], _ => true
  | _ :: _, [] => false
  | a :: as, b :: bs => a < b || (a == b && unitsLE as bs)

def sortTexts (texts : List String) : List String :=
  texts.mergeSort fun a b => unitsLE (units a) (units b)

end Admission
