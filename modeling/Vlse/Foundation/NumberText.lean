import Mathlib.Algebra.Order.Field.Rat
import Mathlib.Tactic.FieldSimp
import Mathlib.Tactic.Ring
import Vlse.Foundation.TextLines
/-!
# Numbers as texts

A natural number is printed in decimal digits, and a number with a fixed count of decimals as a
sign, the digits of its whole part, a point and as many digits as there are decimals. `int` and
`float` of Python read numerals: blanks around, a sign, digits with single underscores between them
and, for `float`, a point and an exponent. Both read back what was printed.
-/

namespace Vlse.NumberText

open TextLines

/-! ## Reading -/

/-- `str.isspace` of one letter. -/
def isBlank (letter : Char) : Bool :=
  let code := letter.toNat
  (9 ≤ code ∧ code ≤ 13) ∨ (28 ≤ code ∧ code ≤ 32) ∨ code = 0x85 ∨ code = 0xa0 ∨ code = 0x1680 ∨
    (0x2000 ≤ code ∧ code ≤ 0x200a) ∨ code = 0x2028 ∨ code = 0x2029 ∨ code = 0x202f ∨
    code = 0x205f ∨ code = 0x3000

/-- A text without the underscores between its digits, if they stand nowhere else; the flag says
whether a digit stands before it. -/
def withoutUnderscores : Bool → List Char → Option (List Char)
  | _, [] => some []
  | _, ['_'] => none
  | after, '_' :: letter :: text =>
    if after ∧ letter.isDigit then (withoutUnderscores true text).map (letter :: ·) else none
  | _, letter :: text => (withoutUnderscores letter.isDigit text).map (letter :: ·)

/-- Whether a text starts with a minus sign, and the text after its sign. -/
def takeSign : List Char → Bool × List Char
  | '-' :: text => (true, text)
  | '+' :: text => (false, text)
  | text => (false, text)

/-- The number that digits write. -/
def digitsValue (digits : List Char) : Nat := Nat.ofDigitChars 10 digits 0

/-- A number with a sign. -/
def applySign {R : Type*} [Neg R] (negative : Bool) (value : R) : R :=
  if negative then -value else value

/-- The integer that digits after a sign write, if there are no other letters. -/
def signedInteger (text : List Char) : Option Int :=
  let signed := takeSign text
  if signed.2 ≠ [] ∧ signed.2.all Char.isDigit then
    some (applySign signed.1 (digitsValue signed.2))
  else none

/-- `int`, for the digits of ASCII. -/
def readInt (text : List Char) : Option Int :=
  (withoutUnderscores false (strip isBlank text)).bind signedInteger

/-- The digits after a point, if there is one, and the text after them. -/
def takeFraction : List Char → List Char × List Char
  | '.' :: text => (text.takeWhile Char.isDigit, text.dropWhile Char.isDigit)
  | text => ([], text)

/-- The exponent at the end of a number. -/
def takeExponent : List Char → Option Int
  | [] => some 0
  | 'e' :: text => signedInteger text
  | 'E' :: text => signedInteger text
  | _ => none

/-- The number that `float` rounds, for the digits of ASCII and finite numbers. -/
def readDecimal (text : List Char) : Option ℚ :=
  (withoutUnderscores false (strip isBlank text)).bind fun plain =>
    let signed := takeSign plain
    let whole := signed.2.takeWhile Char.isDigit
    let fraction := takeFraction (signed.2.dropWhile Char.isDigit)
    if whole = [] ∧ fraction.1 = [] then none
    else (takeExponent fraction.2).map fun exponent : Int =>
      applySign signed.1
        (digitsValue (whole ++ fraction.1) * (10 : ℚ) ^ (exponent - fraction.1.length))

/-! ## Printing -/

/-- A natural number in decimal digits. -/
def natText (value : Nat) : List Char := Nat.toDigits 10 value

/-- A number of units of the last of some decimals, with a sign, as `std::fixed` prints it. -/
def fixedText (decimals : Nat) (negative : Bool) (units : Nat) : List Char :=
  (if negative then ['-'] else []) ++ natText (units / 10 ^ decimals) ++
    '.' :: (natText (units % 10 ^ decimals)).leftpad decimals '0'

/-! ## Letters -/

/-- A letter of a printed number. -/
def NumberLetter (letter : Char) : Prop := letter.isDigit = true ∨ letter = '-' ∨ letter = '.'

/-- Such a letter is neither a blank nor an underscore, and ends no line. -/
theorem NumberLetter.solid {letter : Char} (number : NumberLetter letter) :
    isBlank letter = false ∧ isLineEnd letter = false ∧ letter ≠ '_' := by
  rcases number with digit | rfl | rfl
  · have range : 48 ≤ letter.toNat ∧ letter.toNat ≤ 57 := by
      simp only [Char.isDigit, Bool.and_eq_true, decide_eq_true_eq] at digit
      exact digit
    refine ⟨?_, ?_, ?_⟩
    · unfold isBlank
      exact decide_eq_false (by omega)
    · unfold isLineEnd
      exact decide_eq_false (by omega)
    · rintro rfl
      exact absurd range (by decide)
  · exact ⟨by decide, by decide, by decide⟩
  · exact ⟨by decide, by decide, by decide⟩

/-- The letters of a printed natural number are digits. -/
theorem isDigit_natText {value : Nat} {letter : Char} (listed : letter ∈ natText value) :
    letter.isDigit = true :=
  Nat.isDigit_of_mem_toDigits (by decide) (by decide) listed

/-- The letters of printed decimals. -/
theorem numberLetter_fixedText {decimals units : Nat} {negative : Bool} {letter : Char}
    (listed : letter ∈ fixedText decimals negative units) : NumberLetter letter := by
  have digits : ∀ value, letter ∈ natText value → NumberLetter letter :=
    fun _ member => .inl (isDigit_natText member)
  simp only [fixedText, List.mem_append, List.mem_cons, List.leftpad, List.mem_replicate] at listed
  rcases listed with (sign | whole) | point | ⟨-, rfl⟩ | fraction
  · cases negative with
    | false => simp at sign
    | true => exact .inr (.inl (List.mem_singleton.mp sign))
  · exact digits _ whole
  · exact .inr (.inr point)
  · exact .inl rfl
  · exact digits _ fraction

/-- A text without underscores stays as it is. -/
theorem withoutUnderscores_eq_self {text : List Char} (free : ∀ letter ∈ text, letter ≠ '_')
    (after : Bool) : withoutUnderscores after text = some text := by
  induction text generalizing after with
  | nil => rfl
  | cons letter text ih =>
    have first := free letter List.mem_cons_self
    have rest := ih fun other member => free other (List.mem_cons_of_mem letter member)
    rw [withoutUnderscores, rest, Option.map_some]
    · rintro rfl
      exact absurd rfl first
    · intro next others same
      exact absurd same first

/-- Reading starts from the text itself when it is made of the letters of a number. -/
theorem plain_of_numberLetters {text : List Char}
    (letters : ∀ letter ∈ text, NumberLetter letter) :
    withoutUnderscores false (strip isBlank text) = some text := by
  rw [strip_eq_self fun letter member => (letters letter member).solid.1]
  exact withoutUnderscores_eq_self (fun letter member => (letters letter member).solid.2.2) false

/-- Digits have no sign. -/
theorem takeSign_digits {digits : List Char} (rest : List Char) (nonempty : digits ≠ [])
    (all : ∀ letter ∈ digits, letter.isDigit = true) :
    takeSign (digits ++ rest) = (false, digits ++ rest) := by
  cases digits with
  | nil => contradiction
  | cons letter digits =>
    have first := all letter List.mem_cons_self
    rw [List.cons_append, takeSign]
    · intro text same
      rw [(List.cons.inj same).1] at first
      exact absurd first (by decide)
    · intro text same
      rw [(List.cons.inj same).1] at first
      exact absurd first (by decide)

/-- What is taken from digits before a letter that is none. -/
theorem take_digits {digits : List Char} (rest : List Char)
    (all : ∀ letter ∈ digits, letter.isDigit = true)
    (stops : ∀ letter ∈ rest.head?, letter.isDigit = false) :
    (digits ++ rest).takeWhile Char.isDigit = digits ∧
      (digits ++ rest).dropWhile Char.isDigit = rest := by
  rw [List.takeWhile_append_of_pos all, List.dropWhile_append_of_pos all]
  cases rest with
  | nil => exact ⟨List.append_nil digits, rfl⟩
  | cons letter rest =>
    have other : ¬ letter.isDigit = true := by simp [stops letter rfl]
    rw [List.takeWhile_cons_of_neg other, List.dropWhile_cons_of_neg other, List.append_nil]
    exact ⟨rfl, rfl⟩

/-! ## Round trips -/

/-- The digits of a number write it. -/
theorem digitsValue_natText (value : Nat) : digitsValue (natText value) = value :=
  Nat.ofDigitChars_ten_toDigits

/-- Digits after others shift them. -/
theorem digitsValue_append (digits others : List Char) :
    digitsValue (digits ++ others) =
      digitsValue digits * 10 ^ others.length + digitsValue others := by
  rw [digitsValue, Nat.ofDigitChars_append, Nat.ofDigitChars_eq_ofDigitChars_zero, Nat.mul_comm]
  rfl

/-- Zeros in front change nothing. -/
theorem digitsValue_leftpad (width value : Nat) :
    digitsValue ((natText value).leftpad width '0') = value := by
  have zeros : ∀ count, digitsValue (List.replicate count '0') = 0 := by
    intro count
    rw [digitsValue, Nat.ofDigitChars_replicate_zero, Nat.mul_zero]
  rw [List.leftpad, digitsValue_append, zeros, Nat.zero_mul, Nat.zero_add, digitsValue_natText]

/-- `int` reads back a printed natural number. -/
theorem readInt_natText (value : Nat) : readInt (natText value) = some (value : Int) := by
  have digits : ∀ letter ∈ natText value, letter.isDigit = true := fun _ => isDigit_natText
  have nonempty : natText value ≠ [] := Nat.toDigits_ne_nil
  have sign := takeSign_digits [] nonempty digits
  rw [List.append_nil] at sign
  have all : (natText value).all Char.isDigit = true := List.all_eq_true.mpr digits
  rw [readInt, plain_of_numberLetters fun letter member => .inl (digits letter member),
    Option.bind_some, signedInteger, sign]
  dsimp only
  rw [if_pos ⟨nonempty, all⟩, digitsValue_natText]
  rfl

/-- `float` reads a printed natural number as itself. -/
theorem readDecimal_natText (value : Nat) : readDecimal (natText value) = some (value : ℚ) := by
  have digits : ∀ letter ∈ natText value, letter.isDigit = true := fun _ => isDigit_natText
  have nonempty : natText value ≠ [] := Nat.toDigits_ne_nil
  have sign := takeSign_digits [] nonempty digits
  have taken := take_digits [] digits fun letter first => by contradiction
  rw [List.append_nil] at sign taken
  rw [readDecimal, plain_of_numberLetters fun letter member => .inl (digits letter member),
    Option.bind_some]
  simp only [sign, taken.1, taken.2, takeFraction, nonempty, false_and, if_false, takeExponent,
    Option.map_some, applySign, List.append_nil, digitsValue_natText]
  simp

/-- A remainder has no more digits than there are decimals. -/
theorem length_leftpad_natText {decimals : Nat} (some : 0 < decimals) (units : Nat) :
    ((natText (units % 10 ^ decimals)).leftpad decimals '0').length = decimals := by
  have short : (natText (units % 10 ^ decimals)).length ≤ decimals :=
    (Nat.length_toDigits_le_iff (by decide) some).mpr (Nat.mod_lt _ (Nat.pow_pos (by decide)))
  rw [List.length_leftpad]
  omega

/-- `float` reads digits around a point. -/
theorem readDecimal_digits {before after : List Char} (nonempty : before ≠ [])
    (whole : ∀ letter ∈ before, letter.isDigit = true)
    (fraction : ∀ letter ∈ after, letter.isDigit = true) (negative : Bool) :
    readDecimal ((if negative then ['-'] else []) ++ before ++ '.' :: after) =
      some (applySign negative
        (digitsValue (before ++ after) * (10 : ℚ) ^ (0 - after.length : Int))) := by
  have letters : ∀ letter ∈ (if negative then ['-'] else []) ++ before ++ '.' :: after,
      NumberLetter letter := by
    intro letter listed
    rw [List.mem_append, List.mem_append, List.mem_cons] at listed
    rcases listed with (sign | digit) | rfl | digit
    · split at sign
      · exact .inr (.inl (List.mem_singleton.mp sign))
      · contradiction
    · exact .inl (whole letter digit)
    · exact .inr (.inr rfl)
    · exact .inl (fraction letter digit)
  have signed : takeSign ((if negative then ['-'] else []) ++ before ++ '.' :: after) =
      (negative, before ++ '.' :: after) := by
    cases negative with
    | false => exact takeSign_digits _ nonempty whole
    | true => rfl
  have point : ∀ letter ∈ ('.' :: after).head?, letter.isDigit = false := by
    intro letter first
    rw [← Option.some.inj first]
    rfl
  have outer := take_digits _ whole point
  have inner := take_digits [] fraction fun letter first => by contradiction
  rw [List.append_nil] at inner
  have taken : takeFraction ('.' :: after) = (after, []) := by
    rw [takeFraction, inner.1, inner.2]
  rw [readDecimal, plain_of_numberLetters letters, Option.bind_some]
  simp only [signed, outer.1, outer.2, taken, nonempty, false_and, if_false]
  rfl

/-- `float` reads printed decimals as the number printed. -/
theorem readDecimal_fixedText {decimals : Nat} (some : 0 < decimals) (negative : Bool)
    (units : Nat) :
    readDecimal (fixedText decimals negative units) =
      .some (applySign negative ((units : ℚ) / 10 ^ decimals)) := by
  have whole : ∀ letter ∈ natText (units / 10 ^ decimals), letter.isDigit = true :=
    fun _ => isDigit_natText
  have nonempty : natText (units / 10 ^ decimals) ≠ [] := Nat.toDigits_ne_nil
  have size := length_leftpad_natText some units
  have value := digitsValue_leftpad decimals (units % 10 ^ decimals)
  have fraction : ∀ letter ∈ (natText (units % 10 ^ decimals)).leftpad decimals '0',
      letter.isDigit = true := by
    intro letter listed
    rw [List.leftpad, List.mem_append, List.mem_replicate] at listed
    rcases listed with ⟨-, rfl⟩ | digit
    · rfl
    · exact isDigit_natText digit
  have total : digitsValue (natText (units / 10 ^ decimals) ++
      (natText (units % 10 ^ decimals)).leftpad decimals '0') = units := by
    rw [digitsValue_append, digitsValue_natText, size, value, Nat.div_add_mod']
  rw [fixedText, readDecimal_digits nonempty whole fraction, total, size, zero_sub, zpow_neg,
    zpow_natCast, div_eq_mul_inv]

end Vlse.NumberText
