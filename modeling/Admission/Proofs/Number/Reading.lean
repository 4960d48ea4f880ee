import Admission.Number.Layout
import Admission.Number.Numeral
import Mathlib

/-!
What is written is read.

The text of a decimal is its digits, with a point or zeros put where the power of ten asks for them,
or with the power behind them. The shared bucket reads every such text as the decimal it was made
of. The names that stand for what is undefined or infinite are no numerals.
-/
namespace Admission

namespace Numeral

variable {lead fraction rest : List Char}

theorem digit?_of_isDigit {c : Char} (h : c.isDigit = true) :
    digit? 10 c = some (c.toNat - '0'.toNat) := by
  obtain ⟨hlow, hhigh⟩ := Char.isDigit_iff_toNat.mp h
  have hrange : '0' ≤ c ∧ c ≤ '9' := ⟨hlow, hhigh⟩
  have hten : c.toNat - '0'.toNat < 10 := by
    have hzero : '0'.toNat = 48 := rfl
    have hnine : '9'.toNat = 57 := rfl
    omega
  rw [digit?, if_pos hrange]
  exact Option.filter_eq_some_iff.mpr ⟨rfl, decide_eq_true hten⟩

theorem whole?_eq_ofDigitChars (hlead : lead ≠ []) (hdigits : ∀ c ∈ lead, c.isDigit = true) :
    whole? 10 lead = some (Nat.ofDigitChars 10 lead 0) := by
  have hfold : ∀ cs : List Char, (∀ c ∈ cs, c.isDigit = true) → ∀ n,
      cs.foldlM (fun n c => (digit? 10 c).map (10 * n + ·)) n =
        some (Nat.ofDigitChars 10 cs n) := by
    intro cs h
    induction cs with
    | nil => simp
    | cons c cs ih =>
      intro n
      have hc := digit?_of_isDigit (h c List.mem_cons_self)
      have hrest := ih fun c hc => h c (List.mem_cons_of_mem _ hc)
      simp [hc, hrest, Nat.ofDigitChars_cons]
  cases lead with
  | nil => exact absurd rfl hlead
  | cons c cs => exact hfold _ hdigits 0

theorem whole?_toDigits (n : ℕ) : whole? 10 (Nat.toDigits 10 n) = some n := by
  rw [whole?_eq_ofDigitChars Nat.toDigits_ne_nil
    fun c hc => Nat.isDigit_of_mem_toDigits (by norm_num) (by norm_num) hc,
    Nat.ofDigitChars_ten_toDigits]

/-- A text goes on with something that is no digit, or ends. -/
def EndsDigits (rest : List Char) : Prop := ∀ c ∈ rest.head?, c.isDigit = false

theorem span_digits (hlead : ∀ c ∈ lead, c.isDigit = true) (hrest : EndsDigits rest) :
    (lead ++ rest).span Char.isDigit = (lead, rest) := by
  rw [List.span_eq_takeWhile_dropWhile, List.takeWhile_append_of_pos hlead,
    List.dropWhile_append_of_pos hlead]
  cases rest with
  | nil => simp
  | cons c rest =>
    have hc : c.isDigit = false := hrest c rfl
    simp [hc]

/-- Digits without a point among them. -/
theorem decimal?_whole (lead rest : List Char) (hlead : lead ≠ [])
    (hdigits : ∀ c ∈ lead, c.isDigit = true) (hrest : EndsDigits rest)
    (hpoint : rest.head? ≠ some '.') :
    decimal? (lead ++ rest) =
      (power? rest).map fun power => ⟨Nat.ofDigitChars 10 lead 0, power⟩ := by
  unfold decimal?
  simp only [span_digits hdigits hrest]
  split
  · exact absurd rfl hpoint
  · simp only [List.append_nil, whole?_eq_ofDigitChars hlead hdigits]
    cases power? rest <;> simp

/-- Digits with a point among them. -/
theorem decimal?_point (lead fraction rest : List Char) (hlead : lead ≠ [])
    (hdigits : ∀ c ∈ lead, c.isDigit = true) (hfraction : ∀ c ∈ fraction, c.isDigit = true)
    (hrest : EndsDigits rest) :
    decimal? (lead ++ '.' :: (fraction ++ rest)) = (power? rest).map fun power =>
      ⟨Nat.ofDigitChars 10 (lead ++ fraction) 0, power - fraction.length⟩ := by
  have hpoint : EndsDigits ('.' :: (fraction ++ rest)) := by
    intro c hc
    obtain rfl := Option.some.inj hc
    decide
  have hall : ∀ c ∈ lead ++ fraction, c.isDigit = true := by
    intro c hc
    exact (List.mem_append.mp hc).elim (hdigits c) (hfraction c)
  have hwhole := whole?_eq_ofDigitChars (List.append_ne_nil_of_left_ne_nil hlead fraction) hall
  unfold decimal?
  simp only [span_digits hdigits hpoint, span_digits hfraction hrest, hwhole]
  cases power? rest <;> simp

theorem power?_exponent (n : ℤ) :
    power? ('e' :: (if n < 0 then '-' else '+') :: Nat.toDigits 10 n.natAbs) = some n := by
  split
  · next hn =>
    simp only [power?, signed?, whole?_toDigits]
    show some (-(n.natAbs : ℤ)) = some n
    rw [Int.ofNat_natAbs_of_nonpos hn.le, neg_neg]
  · next hn =>
    simp only [power?, signed?, whole?_toDigits]
    show some (n.natAbs : ℤ) = some n
    rw [Int.natAbs_of_nonneg (not_lt.mp hn)]

theorem isDigit_of_mem_zeros {n : ℕ} {c : Char} (hc : c ∈ List.replicate n '0') :
    c.isDigit = true := by
  rw [List.eq_of_mem_replicate hc]
  decide

theorem endsDigits_nil : EndsDigits [] := by simp [EndsDigits]

/-! The four ways in which digits are laid out -/

section Layout

variable {cs : List Char} (hcs : cs ≠ []) (hdigits : ∀ c ∈ cs, c.isDigit = true)

include hcs hdigits

/-- Zeros behind the digits. -/
theorem decimal?_padded (n : ℕ) : decimal? (cs ++ List.replicate n '0') =
    some ⟨Nat.ofDigitChars 10 cs 0 * 10 ^ n, 0⟩ := by
  have hall : ∀ c ∈ cs ++ List.replicate n '0', c.isDigit = true := fun c hc =>
    (List.mem_append.mp hc).elim (hdigits c) isDigit_of_mem_zeros
  have hread := decimal?_whole _ [] (List.append_ne_nil_of_left_ne_nil hcs _) hall endsDigits_nil
    (by simp)
  rw [List.append_nil, Nat.ofDigitChars_append, Nat.ofDigitChars_replicate_zero, mul_comm] at hread
  exact hread

/-- A point among the digits. -/
theorem decimal?_split (n : ℕ) (power : ℤ) {rest : List Char} (hrest : EndsDigits rest)
    (hpower : power? rest = some power) :
    decimal? (cs.take (n + 1) ++ '.' :: (cs.drop (n + 1) ++ rest)) =
      some ⟨Nat.ofDigitChars 10 cs 0, power - (cs.length - (n + 1) : ℕ)⟩ := by
  rw [decimal?_point _ _ _ (by simp [hcs]) (fun c hc => hdigits c (List.mem_of_mem_take hc))
    (fun c hc => hdigits c (List.mem_of_mem_drop hc)) hrest, hpower, List.take_append_drop,
    List.length_drop]
  rfl

omit hcs in
/-- A point and zeros before the digits. -/
theorem decimal?_below (n : ℕ) : decimal? ('0' :: '.' :: (List.replicate n '0' ++ cs)) =
    some ⟨Nat.ofDigitChars 10 cs 0, -(n + cs.length : ℕ)⟩ := by
  have hall : ∀ c ∈ List.replicate n '0' ++ cs, c.isDigit = true := fun c hc =>
    (List.mem_append.mp hc).elim isDigit_of_mem_zeros (hdigits c)
  have hread := decimal?_point ['0'] _ [] (by simp) (by simp) hall endsDigits_nil
  have hsame : Nat.ofDigitChars 10 (['0'] ++ (List.replicate n '0' ++ cs)) 0 =
      Nat.ofDigitChars 10 cs 0 := by
    rw [Nat.ofDigitChars_append, Nat.ofDigitChars_append, Nat.ofDigitChars_replicate_zero]
    simp [Nat.ofDigitChars_cons]
  rw [hsame, List.append_nil, List.length_append, List.length_replicate] at hread
  refine hread.trans ?_
  show some (⟨_, 0 - _⟩ : Decimal) = _
  rw [zero_sub]

/-- A power of ten behind the digits, with a point behind the first if there are more. -/
theorem decimal?_scientific (lead : ℤ) :
    decimal? (cs.take 1 ++ (if cs.length ≤ 1 then [] else '.' :: cs.drop 1) ++
      'e' :: (if lead < 0 then '-' else '+') :: Nat.toDigits 10 lead.natAbs) =
        some ⟨Nat.ofDigitChars 10 cs 0, lead - (cs.length - 1 : ℕ)⟩ := by
  have hpower := power?_exponent lead
  have hmark : EndsDigits
      ('e' :: (if lead < 0 then '-' else '+') :: Nat.toDigits 10 lead.natAbs) := by
    intro c hc
    obtain rfl := Option.some.inj hc
    decide
  split
  · next hone =>
    have hread := decimal?_whole cs _ hcs hdigits hmark (by simp)
    rw [List.append_nil, List.take_of_length_le hone, hread, hpower, Nat.sub_eq_zero_of_le hone,
      Nat.cast_zero, sub_zero]
    rfl
  · have hread := decimal?_split hcs hdigits 0 lead hmark hpower
    rw [List.append_assoc, List.cons_append]
    exact hread

end Layout

end Numeral

namespace Decimal

open Numeral

/-- The decimal that the text of a decimal is read as: the same, unless its zeros are written. -/
def reread (d : Decimal) : Decimal :=
  let lead := d.exponent + (digitsText d.digits).length - 1
  if plainFrom ≤ lead ∧ lead < plainBelow ∧ 0 ≤ d.exponent then
    ⟨d.digits * 10 ^ d.exponent.toNat, 0⟩
  else d

theorem isDigit_of_mem_digitsText {n : ℕ} {c : Char} (hc : c ∈ digitsText n) : c.isDigit = true :=
  Nat.isDigit_of_mem_toDigits (by norm_num) (by norm_num) hc

theorem digitsText_ne_nil (n : ℕ) : digitsText n ≠ [] := Nat.toDigits_ne_nil

theorem decimal?_text (d : Decimal) : decimal? d.text = some d.reread := by
  have hdigits : ∀ c ∈ digitsText d.digits, c.isDigit = true := fun c => isDigit_of_mem_digitsText
  have hcs := digitsText_ne_nil d.digits
  have hvalue : Nat.ofDigitChars 10 (digitsText d.digits) 0 = d.digits :=
    Nat.ofDigitChars_ten_toDigits
  have hlength : 0 < (digitsText d.digits).length := List.length_pos_iff.mpr hcs
  have hsame : ∀ e : ℤ, e = d.exponent → some (⟨d.digits, e⟩ : Decimal) = some d := by
    rintro e rfl
    rfl
  have hkept : ¬ (plainFrom ≤ d.exponent + (digitsText d.digits).length - 1 ∧
      d.exponent + (digitsText d.digits).length - 1 < plainBelow ∧ 0 ≤ d.exponent) →
      d.reread = d := fun h => if_neg h
  have hwritten : plainFrom ≤ d.exponent + (digitsText d.digits).length - 1 ∧
      d.exponent + (digitsText d.digits).length - 1 < plainBelow ∧ 0 ≤ d.exponent →
      d.reread = ⟨d.digits * 10 ^ d.exponent.toNat, 0⟩ := fun h => if_pos h
  unfold text
  dsimp only
  generalize digitsText d.digits = cs at *
  split
  · next hplain =>
    split
    · next hnonneg =>
      rw [decimal?_padded hcs hdigits, hvalue, hwritten ⟨hplain.1, hplain.2, hnonneg⟩]
    · next hnegative =>
      rw [hkept fun h => hnegative h.2.2]
      split
      · next hlead =>
        have hread := decimal?_split hcs hdigits (d.exponent + cs.length - 1).toNat 0
          endsDigits_nil rfl
        rw [List.append_nil, hvalue] at hread
        exact hread.trans (hsame _ (by omega))
      · next hlead =>
        have hread := decimal?_below hdigits (-(d.exponent + cs.length - 1) - 1).toNat
        rw [hvalue] at hread
        exact hread.trans (hsame _ (by omega))
  · next hplain =>
    rw [hkept fun h => hplain ⟨h.1, h.2.1⟩]
    have hread := decimal?_scientific hcs hdigits (d.exponent + cs.length - 1)
    rw [hvalue] at hread
    exact hread.trans (hsame _ (by omega))

/-- The characters of a numeral without a sign. -/
def IsNumeral (c : Char) : Prop := c.isDigit = true ∨ c = '.' ∨ c = 'e' ∨ c = '-' ∨ c = '+'

/-- The text of a decimal begins with a digit. -/
theorem exists_text_eq_cons (d : Decimal) :
    ∃ c cs, d.text = c :: cs ∧ c.isDigit = true ∧ ∀ x ∈ cs, IsNumeral x := by
  have hdigit : ∀ c ∈ digitsText d.digits, c.isDigit = true := fun c => isDigit_of_mem_digitsText
  obtain ⟨c, cs, hcs⟩ := List.exists_cons_of_ne_nil (digitsText_ne_nil d.digits)
  rw [hcs] at hdigit
  have hc : c.isDigit = true := hdigit c List.mem_cons_self
  have hrest : ∀ x ∈ cs, IsNumeral x := fun x hx => .inl (hdigit x (List.mem_cons_of_mem c hx))
  have hzeros : ∀ n, ∀ x ∈ List.replicate n '0', IsNumeral x :=
    fun n x hx => .inl (isDigit_of_mem_zeros hx)
  unfold text
  rw [hcs]
  dsimp only
  split
  · split
    · refine ⟨c, _, List.cons_append, hc, fun x hx => ?_⟩
      exact (List.mem_append.mp hx).elim (hrest x) (hzeros _ x)
    · split
      · refine ⟨c, _, rfl, hc, fun x hx => ?_⟩
        rcases List.mem_append.mp hx with hx | hx
        · exact hrest x (List.mem_of_mem_take hx)
        · rcases List.mem_cons.mp hx with rfl | hx
          · exact .inr (.inl rfl)
          · exact hrest x (List.mem_of_mem_drop hx)
      · refine ⟨'0', _, List.cons_append, by decide, fun x hx => ?_⟩
        rcases List.mem_append.mp hx with hx | hx
        · rcases List.mem_cons.mp hx with rfl | hx
          · exact .inr (.inl rfl)
          · exact hzeros _ x hx
        · exact .inl (hdigit x hx)
  · refine ⟨c, _, rfl, hc, fun x hx => ?_⟩
    rcases List.mem_append.mp hx with hx | hx
    · split at hx
      · exact absurd hx List.not_mem_nil
      · rcases List.mem_cons.mp hx with rfl | hx
        · exact .inr (.inl rfl)
        · exact hrest x hx
    · rcases List.mem_cons.mp hx with rfl | hx
      · exact .inr (.inr (.inl rfl))
      · rcases List.mem_cons.mp hx with rfl | hx
        · split
          · exact .inr (.inr (.inr (.inl rfl)))
          · exact .inr (.inr (.inr (.inr rfl)))
        · exact .inl (Nat.isDigit_of_mem_toDigits (by norm_num) (by norm_num) hx)

end Decimal

theorem Decimal.isNumeral_of_mem_text {d : Decimal} {c : Char} (hc : c ∈ d.text) : IsNumeral c := by
  obtain ⟨first, rest, htext, hdigit, hrest⟩ := d.exists_text_eq_cons
  rw [htext] at hc
  exact (List.mem_cons.mp hc).elim (fun heq => heq ▸ .inl hdigit) (hrest c)

theorem Decimal.IsNumeral.toNat_bounds {c : Char} (h : IsNumeral c) :
    43 ≤ c.toNat ∧ c.toNat ≤ 57 ∨ c.toNat = 101 := by
  rcases h with hdigit | rfl | rfl | rfl | rfl
  · obtain ⟨hlow, hhigh⟩ := Char.isDigit_iff_toNat.mp hdigit
    have hzero : '0'.toNat = 48 := rfl
    have hnine : '9'.toNat = 57 := rfl
    omega
  all_goals decide

theorem Decimal.IsNumeral.not_isPlainBlank {c : Char} (h : IsNumeral c) :
    isPlainBlank c = false := by
  have hbounds := h.toNat_bounds
  have hspace : c ≠ ' ' := by
    rintro rfl
    exact absurd hbounds (by decide)
  simp only [isPlainBlank, hspace, false_or, decide_eq_false_iff_not]
  omega

theorem Decimal.IsNumeral.not_isBlank {c : Char} (h : IsNumeral c) : isBlank c = false := by
  have hbounds := h.toNat_bounds
  simp only [isBlank, blankRanges, List.any_cons, List.any_nil, Bool.or_false,
    Bool.or_eq_false_iff, Bool.and_eq_false_iff, decide_eq_false_iff_not]
  omega

/-- The characters that mark a base other than ten. -/
def Decimal.baseMarks : List Char := ['x', 'X', 'o', 'O', 'b', 'B']

/-- No numeral marks another base. -/
theorem Decimal.IsNumeral.ne_mark {c m : Char} (h : IsNumeral c) (hm : m ∈ baseMarks) :
    c ≠ m := by
  have hbounds := h.toNat_bounds
  rintro rfl
  simp only [baseMarks, List.mem_cons, List.not_mem_nil, or_false] at hm
  rcases hm with rfl | rfl | rfl | rfl | rfl | rfl <;> exact absurd hbounds (by decide)

theorem strip_eq_self {drop : Char → Bool} {cs : List Char} (h : ∀ c ∈ cs, drop c = false) :
    strip drop cs = cs := by
  have hwhole : ∀ cs : List Char, (∀ c ∈ cs, drop c = false) → cs.dropWhile drop = cs := by
    intro cs h
    cases cs with
    | nil => rfl
    | cons c cs => rw [List.dropWhile_cons_of_neg (by simp [h c List.mem_cons_self])]
  rw [strip, hwhole cs h, hwhole cs.reverse fun c hc => h c (List.mem_reverse.mp hc),
    List.reverse_reverse]

namespace Decimal

/-- The text of a decimal with a sign or without. -/
def signedText (negative : Bool) (d : Decimal) : List Char :=
  (if negative then ['-'] else []) ++ d.text

variable (negative : Bool) (d : Decimal)

theorem isNumeral_of_mem_signedText {c : Char} (hc : c ∈ d.signedText negative) : IsNumeral c := by
  rcases List.mem_append.mp hc with hc | hc
  · cases negative with
    | false => simp at hc
    | true =>
      obtain rfl := List.mem_singleton.mp hc
      exact .inr (.inr (.inr (.inl rfl)))
  · exact isNumeral_of_mem_text hc

theorem signed?_signedText : Numeral.signed? (d.signedText negative) = (negative, d.text) := by
  cases negative with
  | true => rfl
  | false =>
    obtain ⟨c, cs, htext, hdigit, -⟩ := d.exists_text_eq_cons
    show Numeral.signed? d.text = (false, d.text)
    rw [htext]
    unfold Numeral.signed?
    split
    · next heq =>
      cases heq
      cases hdigit
    · next heq =>
      cases heq
      cases hdigit
    · rfl

/-- A numeral has no base but ten. -/
theorem based?_eq_none {marks : Char → Option ℕ} {cs : List Char} (hcs : ∀ c ∈ cs, IsNumeral c)
    (hmarks : ∀ m, m ∉ baseMarks → marks m = none) : Numeral.based? marks cs = none := by
  unfold Numeral.based?
  split
  · next m rest =>
    have hm : m ∉ baseMarks := fun hmem => (hcs m (by simp)).ne_mark hmem rfl
    rw [hmarks m hm]
    rfl
  · rfl

end Decimal

/-- The text of a decimal, with a sign or without, is read from the shared bucket as a decimal. -/
theorem readStored_signedText (negative : Bool) (d : Decimal) :
    readStored (String.ofList (d.signedText negative)) =
      some (if negative then -d.reread.toFloat else d.reread.toFloat) := by
  have hblank : ∀ c ∈ d.signedText negative, isPlainBlank c = false := fun c hc =>
    (d.isNumeral_of_mem_signedText negative hc).not_isPlainBlank
  have hhexadecimal : Numeral.hexadecimal? d.text = none := by
    unfold Numeral.hexadecimal?
    split
    · next m rest heq =>
      have hm : Decimal.IsNumeral m := Decimal.isNumeral_of_mem_text (d := d) (by simp [heq])
      simp [hm.ne_mark (m := 'x') (by decide), hm.ne_mark (m := 'X') (by decide)]
    · rfl
  unfold readStored
  rw [String.toList_ofList, strip_eq_self hblank, d.signed?_signedText]
  dsimp only
  rw [Decimal.based?_eq_none fun c => Decimal.isNumeral_of_mem_text]
  · rw [hhexadecimal, Decimal.decimal?_text]
    rfl
  · intro m hm
    split <;> first | rfl | exact absurd (by decide) hm

/-- The text of a decimal, with a sign or without, is read from a setting as a decimal. -/
theorem readSetting_signedText (negative : Bool) (d : Decimal) :
    readSetting (String.ofList (d.signedText negative)) =
      some (if negative then -d.reread.toFloat else d.reread.toFloat) := by
  have hblank : ∀ c ∈ d.signedText negative, isBlank c = false := fun c hc =>
    (d.isNumeral_of_mem_signedText negative hc).not_isBlank
  obtain ⟨c, cs, htext, hdigit, -⟩ := d.exists_text_eq_cons
  have hempty : (d.signedText negative).isEmpty = false := by
    simp [Decimal.signedText, htext]
  have hname : d.text ≠ "Infinity".toList := by
    rw [htext]
    intro heq
    obtain ⟨rfl, -⟩ := List.cons.inj heq
    exact absurd hdigit (by decide)
  unfold readSetting
  rw [String.toList_ofList, strip_eq_self hblank]
  dsimp only
  rw [hempty, d.signed?_signedText,
    Decimal.based?_eq_none fun c => d.isNumeral_of_mem_signedText negative]
  · dsimp only
    rw [if_neg hname, Decimal.decimal?_text]
    rfl
  · intro m hm
    split <;> first | rfl | exact absurd (by decide) hm

/-- What is undefined or infinite is written as a name, which is not read as a number. -/
theorem readStored_numberText_of_not_isFinite (decimal : Dyadic → Decimal) {x : Float}
    (hinfinite : x.isFinite = false) : readStored (numberText decimal x) = none := by
  unfold numberText
  split
  · decide +kernel
  · simp only [hinfinite, Bool.false_and, Bool.false_eq_true, if_false]
    split <;> decide +kernel

end Admission
