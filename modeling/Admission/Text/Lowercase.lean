import Admission.Text.CaseTable

/-!
Lower-casing of text.

Every character goes to its own lower-case form, with two exceptions. A capital I with a dot becomes
two characters. A capital sigma that ends a word takes the final form: some cased letter stands
before it and none behind it, ignorable characters passed over on both sides.
-/
namespace Admission

namespace Lowercase

def meetsLetter : List Char → Bool
  | [] => false
  | c :: cs => if CaseTable.isIgnorable c then meetsLetter cs else CaseTable.isCased c

/-- One character in its place; `before` holds what precedes it, nearest first. -/
def character (before : List Char) (c : Char) (after : List Char) : List Char :=
  if c = 'Σ' then if meetsLetter before && !meetsLetter after then ['ς'] else ['σ']
  else if c = 'İ' then ['i', Char.ofNat 0x307]
  else [CaseTable.lower c]

def characters (before : List Char) : List Char → List Char
  | [] => []
  | c :: cs => character before c cs ++ characters (c :: before) cs

end Lowercase

def lowercase (text : String) : String := String.ofList (Lowercase.characters [] text.toList)

end Admission
