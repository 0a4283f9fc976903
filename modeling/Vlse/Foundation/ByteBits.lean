import Mathlib.Data.Nat.Basic
import Mathlib.Tactic.Common
/-!
# Bits of a byte string

A byte string of fixed length is read here as a sequence of bits, low bit of the first byte
first. Little-endian words copied out of the string and back into it are described by the bits
they read and write, so arithmetic on overlapping words never has to be unfolded. Accesses
outside the string read zero and write nothing, which keeps every function total.
-/

namespace Vlse

/-- One byte. -/
abbrev Byte := BitVec 8

/-- A byte string of known length. -/
abbrev Bytes (length : Nat) := Vector Byte length

namespace ByteBits

variable {length width : Nat}

/-- The bytes of a string literal. -/
def literalBytes (text : String) : List Byte :=
  text.toList.map fun char => BitVec.ofNat 8 char.toNat

/-- The word `(1 << count) - 1` has exactly its low `count` bits set. -/
theorem getLsbD_one_shiftLeft_sub_one (count bit : Nat) (fits : count < width) :
    ((BitVec.ofNat width 1 <<< count) - BitVec.ofNat width 1).getLsbD bit =
      decide (bit < count) := by
  have power : 2 ^ count < 2 ^ width := Nat.pow_lt_pow_right (by decide) fits
  have positive : 0 < 2 ^ count := Nat.two_pow_pos count
  have one : 1 % 2 ^ width = 1 := Nat.mod_eq_of_lt (by omega)
  have value : ((BitVec.ofNat width 1 <<< count) - BitVec.ofNat width 1).toNat = 2 ^ count - 1 := by
    simp only [BitVec.toNat_sub, BitVec.toNat_shiftLeft, BitVec.toNat_ofNat, Nat.shiftLeft_eq,
      one, Nat.one_mul, Nat.mod_eq_of_lt power]
    rw [show 2 ^ width - 1 + 2 ^ count = 2 ^ count - 1 + 2 ^ width by omega, Nat.add_mod_right]
    exact Nat.mod_eq_of_lt (by omega)
  rw [← BitVec.testBit_toNat, value, Nat.testBit_two_pow_sub_one]

/-- Writing one place of a vector changes that place alone. -/
theorem get_set {α : Type*} (items : Vector α length) (place other : Fin length) (item : α) :
    (items.set place.val item place.isLt).get other =
      if place = other then item else items.get other := by
  have written : (items.set place.val item place.isLt)[other.val] =
      if place.val = other.val then item else items[other.val] :=
    Vector.getElem_set place.isLt other.isLt
  by_cases same : place = other
  · rw [if_pos same]
    exact written.trans (if_pos (congrArg Fin.val same))
  · rw [if_neg same]
    exact written.trans (if_neg fun places => same (Fin.ext places))

/-- The byte at an index, zero outside the string. -/
def byteAt (bytes : Bytes length) (index : Nat) : Byte := bytes[index]?.getD 0

/-- The bit at a position, counted from the low bit of the first byte. -/
def bitAt (bytes : Bytes length) (position : Nat) : Bool :=
  (byteAt bytes (position / 8)).getLsbD (position % 8)

/-- Every bit of a string of zeros is clear. -/
theorem bitAt_replicate_zero (length bit : Nat) :
    bitAt (Vector.replicate length 0 : Bytes length) bit = false := by
  unfold bitAt byteAt
  rw [Vector.getElem?_replicate]
  split
  · simp
  · simp

/-- Replacing one byte changes that byte alone. -/
theorem byteAt_setIfInBounds (bytes : Bytes length) (index other : Nat) (byte : Byte) :
    byteAt (bytes.setIfInBounds index byte) other =
      if index = other ∧ other < length then byte else byteAt bytes other := by
  unfold byteAt
  rw [Vector.getElem?_setIfInBounds]
  by_cases same : index = other
  · subst same
    by_cases inside : index < length <;> simp [inside]
  · simp [same]

/-- Two byte strings with the same bits are equal. -/
theorem ext_bits {left right : Bytes length}
    (same : ∀ position < 8 * length, bitAt left position = bitAt right position) :
    left = right := by
  apply Vector.ext
  intro index inside
  apply BitVec.eq_of_getLsbD_eq
  intro bit low
  have here := same (8 * index + bit) (by omega)
  unfold bitAt byteAt at here
  rw [show (8 * index + bit) / 8 = index by omega,
    show (8 * index + bit) % 8 = bit by omega] at here
  simpa [inside] using here

/-- The first bytes of a little-endian copy into a word. -/
def load (width : Nat) (bytes : Bytes length) (start : Nat) : Nat → BitVec width
  | 0 => 0
  | count + 1 =>
    load width bytes start count |||
      ((byteAt bytes (start + count)).setWidth width <<< (8 * count))

/-- A loaded word has the bits of the bytes copied and zeros above them. -/
theorem getLsbD_load (bytes : Bytes length) (start count bit : Nat) (fits : 8 * count ≤ width) :
    (load width bytes start count).getLsbD bit =
      (decide (bit < 8 * count) && bitAt bytes (8 * start + bit)) := by
  induction count with
  | zero => simp [load]
  | succ count ih =>
    rw [load, BitVec.getLsbD_or, ih (by omega), BitVec.getLsbD_shiftLeft, BitVec.getLsbD_setWidth]
    by_cases below : bit < 8 * count
    · simp [below, show bit < 8 * (count + 1) by omega]
    · by_cases here : bit < 8 * (count + 1)
      · have quotient : (8 * start + bit) / 8 = start + count := by omega
        have remainder : (8 * start + bit) % 8 = bit - 8 * count := by omega
        simp [below, here, bitAt, quotient, remainder, show bit < width by omega,
          show bit - 8 * count < width by omega]
      · have high : (byteAt bytes (start + count)).getLsbD (bit - 8 * count) = false :=
          BitVec.getLsbD_of_ge _ _ (by omega)
        simp [below, here, high]

/-- Copy the first bytes of a little-endian word into the string. -/
def store (bytes : Bytes length) (start : Nat) (word : BitVec width) : Nat → Bytes length
  | 0 => bytes
  | count + 1 =>
    (store bytes start word count).setIfInBounds (start + count)
      ((word >>> (8 * count)).setWidth 8)

/-- Storing a word writes its bits over the bytes copied and leaves all other bits alone. -/
theorem bitAt_store (bytes : Bytes length) (start count position : Nat) (word : BitVec width)
    (inside : start + count ≤ length) :
    bitAt (store bytes start word count) position =
      if 8 * start ≤ position ∧ position < 8 * (start + count) then
        word.getLsbD (position - 8 * start)
      else bitAt bytes position := by
  induction count with
  | zero => rw [if_neg (by omega), store]
  | succ count ih =>
    have previous := ih (by omega)
    unfold bitAt at previous ⊢
    rw [store, byteAt_setIfInBounds]
    by_cases here : start + count = position / 8
    · rw [if_pos (by omega), if_pos (by omega), BitVec.getLsbD_setWidth,
        BitVec.getLsbD_ushiftRight, show 8 * count + position % 8 = position - 8 * start by omega]
      simp [show position % 8 < 8 by omega]
    · rw [if_neg (by omega), previous]
      by_cases covered : 8 * start ≤ position ∧ position < 8 * (start + count)
      · rw [if_pos covered, if_pos (by omega)]
      · rw [if_neg covered, if_neg (by omega)]

/-- Bytes outside the place of a store are left alone. -/
theorem byteAt_store_apart (bytes : Bytes length) (start count index : Nat) (word : BitVec width)
    (apart : index < start ∨ start + count ≤ index) :
    byteAt (store bytes start word count) index = byteAt bytes index := by
  induction count with
  | zero => rfl
  | succ count ih => rw [store, byteAt_setIfInBounds, if_neg (by omega), ih (by omega)]

/-- A word loaded depends on the bytes copied alone. -/
theorem load_congr {left right : Bytes length} {start count : Nat}
    (same : ∀ index, start ≤ index → index < start + count →
      byteAt left index = byteAt right index) :
    load width left start count = load width right start count := by
  induction count with
  | zero => rfl
  | succ count ih =>
    have earlier := ih fun index first last => same index first (by omega)
    rw [load, load, earlier, same _ (by omega) (by omega)]

/-- A store elsewhere leaves a word loaded as it is. -/
theorem load_store_apart {wide : Nat} (bytes : Bytes length) (start count from_ read : Nat)
    (word : BitVec wide) (apart : from_ + read ≤ start ∨ start + count ≤ from_) :
    load width (store bytes start word count) from_ read = load width bytes from_ read := by
  apply load_congr
  intro index first last
  exact byteAt_store_apart bytes start count index word (by omega)

/-- A word stored whole is loaded back. -/
theorem load_store_same (bytes : Bytes length) (start count : Nat) (word : BitVec width)
    (whole : 8 * count = width) (inside : start + count ≤ length) :
    load width (store bytes start word count) start count = word := by
  apply BitVec.eq_of_getLsbD_eq
  intro bit below
  rw [getLsbD_load _ _ _ _ (le_of_eq whole), bitAt_store _ _ _ _ _ inside, if_pos (by omega),
    Nat.add_sub_cancel_left]
  simp [whole, below]

end ByteBits

end Vlse
