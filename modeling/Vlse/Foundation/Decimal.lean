import Mathlib.Algebra.Group.Int.Defs
import Mathlib.Algebra.Group.Nat.Defs
import Mathlib.Data.List.TakeWhile
import Vlse.Foundation.ByteBits
/-!
# Decimal numerals and `strtoull`

A decimal numeral is blanks, an optional sign and digits. `strtoull` of ISO C reads the longest
numeral at the start of a text into an unsigned 64-bit word: it saturates where the digits are too
large, and takes a minus sign as negation modulo `2 ^ 64`. Where it reads a whole text, the text is
a numeral, and the word is the number written exactly when that number is one of the words.
-/

namespace Vlse.Decimal

/-- `isspace` in the "C" locale. -/
def isSpace (byte : Byte) : Bool :=
  byte.toNat = 32 ∨ (9 ≤ byte.toNat ∧ byte.toNat ≤ 13)

/-- `isdigit`. -/
def isDigit (byte : Byte) : Bool := 48 ≤ byte.toNat ∧ byte.toNat ≤ 57

/-- The number that digits write. -/
def digitsValue (digits : List Byte) : Nat :=
  digits.foldl (fun value digit => 10 * value + (digit.toNat - 48)) 0

/-- A sign, or none. -/
inductive Sign where
  /-- No sign. -/
  | absent
  /-- A plus sign. -/
  | plus
  /-- A minus sign. -/
  | minus
deriving DecidableEq

/-- The bytes of a sign. -/
def Sign.bytes : Sign → List Byte
  | absent => []
  | plus => [43]
  | minus => [45]

/-! ## Conversion -/

/-- What `strtoull` returns, and the text that its end pointer is left at. -/
structure Conversion where
  /-- The word. -/
  value : Nat
  /-- The rest of the text. -/
  rest : List Byte

/-- An optional sign at the start of a text, and the text after it. -/
def takeSign : List Byte → Sign × List Byte
  | [] => (.absent, [])
  | byte :: text =>
    if byte = 43 then (.plus, text) else if byte = 45 then (.minus, text)
    else (.absent, byte :: text)

/-- The word for digits after a sign. -/
def convert (sign : Sign) (magnitude : Nat) : Nat :=
  if 2 ^ 64 ≤ magnitude then 2 ^ 64 - 1
  else if sign = .minus then (2 ^ 64 - magnitude) % 2 ^ 64
  else magnitude

/-- `strtoull` to the base ten. Without digits there is no conversion, and the end is the start. -/
def strtoull (text : List Byte) : Conversion :=
  let signed := takeSign (text.dropWhile isSpace)
  let digits := signed.2.takeWhile isDigit
  if digits = [] then { value := 0, rest := text }
  else
    { value := convert signed.1 (digitsValue digits)
      rest := signed.2.dropWhile isDigit }

/-- What is converted is a word. -/
theorem strtoull_lt (text : List Byte) : (strtoull text).value < 2 ^ 64 := by
  unfold strtoull convert
  dsimp only
  split
  · exact Nat.two_pow_pos 64
  · dsimp only
    split
    · decide
    · split
      · exact Nat.mod_lt _ (Nat.two_pow_pos 64)
      · omega

/-! ## Numerals -/

/-- A decimal numeral. -/
structure Numeral where
  /-- Leading blanks. -/
  blanks : List Byte
  /-- The sign. -/
  sign : Sign
  /-- The digits. -/
  digits : List Byte
  /-- Blanks are blank. -/
  allBlank : ∀ byte ∈ blanks, isSpace byte = true
  /-- Digits are digits. -/
  allDigits : ∀ byte ∈ digits, isDigit byte = true
  /-- There are some. -/
  nonempty : digits ≠ []

namespace Numeral

variable (numeral : Numeral)

/-- The text of a numeral. -/
def text : List Byte := numeral.blanks ++ (numeral.sign.bytes ++ numeral.digits)

/-- The number its digits write. -/
def magnitude : Nat := digitsValue numeral.digits

/-- The number it writes. -/
def value : Int := if numeral.sign = .minus then -numeral.magnitude else numeral.magnitude

end Numeral

/-- A text writes a number. -/
def Denotes (text : List Byte) (value : Int) : Prop :=
  ∃ numeral : Numeral, numeral.text = text ∧ numeral.value = value

/-- A digit is neither blank nor a sign. -/
theorem isDigit_apart {byte : Byte} (digit : isDigit byte = true) :
    isSpace byte = false ∧ byte ≠ 43 ∧ byte ≠ 45 := by
  have range : 48 ≤ byte.toNat ∧ byte.toNat ≤ 57 := of_decide_eq_true digit
  refine ⟨decide_eq_false (by omega), ?_, ?_⟩
  · intro plus
    rw [plus] at range
    exact absurd range (by decide)
  · intro minus
    rw [minus] at range
    exact absurd range (by decide)

/-- What is taken while a predicate holds stops before the first item that fails it. -/
theorem dropWhile_append_stops {α : Type*} {holds : α → Bool} {first second : List α}
    (all : ∀ item ∈ first, holds item = true)
    (stops : ∀ item ∈ second.head?, holds item = false) :
    (first ++ second).dropWhile holds = second := by
  rw [List.dropWhile_append_of_pos all]
  cases second with
  | nil => rfl
  | cons item second =>
    have fails := stops item rfl
    exact List.dropWhile_cons_of_neg (by rw [fails]; exact Bool.false_ne_true)

/-- The blanks of a numeral are dropped, and its sign is taken. -/
theorem takeSign_text (numeral : Numeral) :
    takeSign (numeral.text.dropWhile isSpace) = (numeral.sign, numeral.digits) := by
  obtain ⟨blanks, sign, digits, allBlank, allDigits, nonempty⟩ := numeral
  obtain ⟨digit, others, rfl⟩ := List.exists_cons_of_ne_nil nonempty
  have apart := isDigit_apart (allDigits digit List.mem_cons_self)
  rw [Numeral.text, dropWhile_append_stops allBlank]
  · cases sign with
    | absent =>
      rw [Sign.bytes, List.nil_append, takeSign, if_neg apart.2.1, if_neg apart.2.2]
    | plus => rfl
    | minus => rfl
  · intro item first
    cases sign with
    | absent =>
      cases first
      exact apart.1
    | plus =>
      cases first
      decide
    | minus =>
      cases first
      decide

/-- The text of a numeral is converted whole. -/
theorem strtoull_text (numeral : Numeral) :
    strtoull numeral.text = { value := convert numeral.sign numeral.magnitude, rest := [] } := by
  have whole : numeral.digits.takeWhile isDigit = numeral.digits :=
    List.takeWhile_eq_self_iff.mpr numeral.allDigits
  have nothing : numeral.digits.dropWhile isDigit = [] :=
    List.dropWhile_eq_nil_iff.mpr numeral.allDigits
  simp only [strtoull, takeSign_text, whole, nothing]
  rw [if_neg numeral.nonempty]
  rfl

/-- A text writes at most one number. -/
theorem Denotes.unique {text : List Byte} {left right : Int} (first : Denotes text left)
    (second : Denotes text right) : left = right := by
  obtain ⟨numeral, rfl, rfl⟩ := first
  obtain ⟨other, same, rfl⟩ := second
  have parts := takeSign_text other
  rw [same, takeSign_text numeral, Prod.mk.injEq] at parts
  rw [Numeral.value, Numeral.value, Numeral.magnitude, Numeral.magnitude, parts.1, parts.2]

/-- The text after a sign is the text without it. -/
theorem takeSign_bytes (text : List Byte) :
    (takeSign text).1.bytes ++ (takeSign text).2 = text := by
  cases text with
  | nil => rfl
  | cons byte text =>
    rw [takeSign]
    split
    · rename_i plus
      rw [plus]
      rfl
    · split
      · rename_i minus
        rw [minus]
        rfl
      · rfl

/-- A text that is converted whole, by a conversion that reads something, is a numeral. -/
theorem exists_numeral {text : List Byte} (whole : (strtoull text).rest = [])
    (converted : (strtoull text).rest ≠ text) : ∃ numeral : Numeral, numeral.text = text := by
  by_cases none : (takeSign (text.dropWhile isSpace)).2.takeWhile isDigit = []
  · simp [strtoull, none] at converted
  · have digits : (takeSign (text.dropWhile isSpace)).2.dropWhile isDigit = [] := by
      simpa [strtoull, none] using whole
    have all := List.dropWhile_eq_nil_iff.mp digits
    have some : (takeSign (text.dropWhile isSpace)).2 ≠ [] := by
      intro empty
      rw [empty] at none
      exact none rfl
    refine ⟨⟨text.takeWhile isSpace, (takeSign (text.dropWhile isSpace)).1, _,
      fun byte inside => List.mem_takeWhile_imp inside, all, some⟩, ?_⟩
    rw [Numeral.text, takeSign_bytes, List.takeWhile_append_dropWhile]

/-- The word of a numeral is zero exactly when the number is. -/
theorem convert_ne_zero_iff (numeral : Numeral) :
    convert numeral.sign numeral.magnitude ≠ 0 ↔ numeral.value ≠ 0 := by
  unfold convert Numeral.value
  split
  · split
    · omega
    · omega
  · split
    · omega
    · omega

/-- Where the number is a word, it is the word of the numeral. -/
theorem convert_of_word {numeral : Numeral} (positive : 0 < numeral.value)
    (below : numeral.value < 2 ^ 64) :
    (convert numeral.sign numeral.magnitude : Int) = numeral.value := by
  unfold convert Numeral.value at *
  split at positive
  · omega
  · rename_i unsigned
    rw [if_neg unsigned] at below ⊢
    rw [if_neg (by omega), if_neg unsigned]

end Vlse.Decimal
