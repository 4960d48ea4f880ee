import Admission.Value
import Mathlib

/-!
Numbers that writing does not change.

The laws of the shared bucket are stated for exact numbers, which lose nothing on their way into a
text and back. Written as fractions, with whole numbers as they usually are, the rationals are such
numbers.
-/
namespace Admission

/-- The arguments and fields of the shared bucket are read as the numbers that were written. -/
structure Textual.IsExact (α : Type) [Textual α] : Prop where
  readStored_text : ∀ x : α, Textual.readStored (Textual.text x) = some x
  readStored_stored : ∀ x : α, Textual.readStored (Textual.stored x) = some x

namespace Fraction

def text (x : ℚ) : String :=
  if x.den = 1 then x.num.repr else x.num.repr ++ "/" ++ Nat.repr x.den

def read? (s : String) : Option ℚ :=
  let lead := s.toList.takeWhile (· != '/')
  match s.toList.dropWhile (· != '/') with
  | [] => (String.ofList lead).toInt?.map fun n => (n : ℚ)
  | _ :: rest => do
    let num ← (String.ofList lead).toInt?
    let den ← (String.ofList rest).toNat?
    some ((num : ℚ) / (den : ℚ))

theorem slash_notMem_natRepr (n : ℕ) : '/' ∉ (Nat.repr n).toList := by
  intro h
  have hmem : '/' ∈ Nat.toDigits 10 n := by simpa using h
  have hdigit := Nat.isDigit_of_mem_toDigits (by norm_num) (by norm_num) hmem
  exact absurd hdigit (by decide)

theorem slash_notMem_repr (n : ℤ) : '/' ∉ n.repr.toList := by
  cases n with
  | ofNat n => exact slash_notMem_natRepr n
  | negSucc n =>
    have hrepr : (Int.negSucc n).repr = "-" ++ Nat.repr (n + 1) := rfl
    rw [hrepr, String.toList_append, List.mem_append]
    rintro (h | h)
    · simp at h
    · exact slash_notMem_natRepr (n + 1) h

theorem read?_text (x : ℚ) : read? (text x) = some x := by
  have hlead : ∀ c ∈ x.num.repr.toList, (c != '/') = true := by
    intro c hc
    have hne : c ≠ '/' := fun he => slash_notMem_repr x.num (he ▸ hc)
    simpa using hne
  unfold text
  split
  · next hden =>
    have hnum : (x.num : ℚ) = x := Rat.coe_int_num_of_den_eq_one hden
    simp [read?, List.takeWhile_eq_self_iff.mpr hlead, List.dropWhile_eq_nil_iff.mpr hlead, hnum]
  · have hden : (String.ofList (Nat.toDigits 10 x.den)).toNat? = some x.den :=
      Nat.toNat?_repr x.den
    simp [read?, String.toList_append, List.takeWhile_append_of_pos hlead,
      List.dropWhile_append_of_pos hlead, hden, Rat.num_div_den]

end Fraction

instance : Textual ℚ where
  text := Fraction.text
  read := Fraction.read?
  stored := Fraction.text
  readStored := Fraction.read?

theorem Fraction.isExact : Textual.IsExact ℚ where
  readStored_text := Fraction.read?_text
  readStored_stored := Fraction.read?_text

end Admission
