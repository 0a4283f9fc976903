import Mathlib.Algebra.Group.Nat.Defs
import Vlse.Foundation.ByteBits
/-!
# Bit fields of the fingerprint storage

`ReadBits` and `WriteBits` copy a 16-byte little-endian window out of the storage, shift and
mask it in 128-bit arithmetic and, for a write, copy it back. The laws here say which bits of
the storage a field reads and writes, for every width up to 64 and every position whose window
lies in the storage; a write to a window that overlaps other fields leaves those alone.
-/

namespace Vlse

/-- `uint64_t`. -/
abbrev Word := BitVec 64

namespace Filter

open ByteBits

variable {length : Nat}

/-- `LowMask`: the low `width` bits of a word. -/
def lowMask (width : Nat) : Word :=
  if width = 64 then BitVec.allOnes 64 else (1#64 <<< width) - 1#64

/-- `ReadBits`: the field of the given width at a bit position. -/
def readBits (storage : Bytes length) (bitPosition width : Nat) : Word :=
  let bytePosition := bitPosition >>> 3
  let bitOffset := bitPosition &&& 7
  let window := load 128 storage bytePosition 16
  (window >>> bitOffset).setWidth 64 &&& lowMask width

/-- `WriteBits`: overwrite the field of the given width at a bit position. -/
def writeBits (storage : Bytes length) (bitPosition width : Nat) (value : Word) : Bytes length :=
  let bytePosition := bitPosition >>> 3
  let bitOffset := bitPosition &&& 7
  let window := load 128 storage bytePosition 16
  let valueMask : BitVec 128 :=
    if width = 64 then (BitVec.allOnes 64).setWidth 128 else (1#128 <<< width) - 1#128
  let shiftedMask := valueMask <<< bitOffset
  let written := (window &&& ~~~shiftedMask) |||
    ((value.setWidth 128 &&& valueMask) <<< bitOffset)
  store storage bytePosition written 16

/-- The bytes `memcpy` touches for a field at a bit position lie in the storage. -/
def WindowInside (length bitPosition : Nat) : Prop := bitPosition / 8 + 16 ≤ length

/-- The byte that holds a bit. -/
theorem bytePosition_eq (bitPosition : Nat) : bitPosition >>> 3 = bitPosition / 8 :=
  Nat.shiftRight_eq_div_pow _ _

/-- The place of a bit in its byte. -/
theorem bitOffset_eq (bitPosition : Nat) : bitPosition &&& 7 = bitPosition % 8 :=
  Nat.and_two_pow_sub_one_eq_mod bitPosition 3

/-- The mask of a width up to 64 has exactly its low bits set. -/
theorem getLsbD_lowMask (width bit : Nat) (narrow : width ≤ 64) :
    (lowMask width).getLsbD bit = decide (bit < width) := by
  unfold lowMask
  split
  · rename_i full
    rw [full, BitVec.getLsbD_allOnes]
  · exact getLsbD_one_shiftLeft_sub_one width bit (by omega)

/-- A field reads the bits at its position and zeros above its width. -/
theorem getLsbD_readBits (storage : Bytes length) (bitPosition width bit : Nat)
    (narrow : width ≤ 64) :
    (readBits storage bitPosition width).getLsbD bit =
      (decide (bit < width) && bitAt storage (bitPosition + bit)) := by
  unfold readBits
  simp only [bytePosition_eq, bitOffset_eq]
  rw [BitVec.getLsbD_and, getLsbD_lowMask width bit narrow, BitVec.getLsbD_setWidth,
    BitVec.getLsbD_ushiftRight, getLsbD_load storage _ 16 _ (by decide)]
  by_cases low : bit < width
  · simp [low, show bit < 64 by omega, show bitPosition % 8 + bit < 128 by omega,
      show 8 * (bitPosition / 8) + (bitPosition % 8 + bit) = bitPosition + bit by omega]
  · simp [low]

/-- The 128-bit value mask has exactly its low bits set. -/
private theorem getLsbD_valueMask (width bit : Nat) (narrow : width ≤ 64) :
    (if width = 64 then (BitVec.allOnes 64).setWidth 128
      else (1#128 <<< width) - 1#128 : BitVec 128).getLsbD bit = decide (bit < width) := by
  split
  · rename_i full
    subst full
    rw [BitVec.getLsbD_setWidth, BitVec.getLsbD_allOnes]
    by_cases low : bit < 64 <;> simp [low]
    omega
  · exact getLsbD_one_shiftLeft_sub_one width bit (by omega)

/-- Writing a field puts the bits of the value at its position and keeps every other bit. -/
theorem bitAt_writeBits (storage : Bytes length) (bitPosition width position : Nat) (value : Word)
    (narrow : width ≤ 64) (inside : WindowInside length bitPosition) :
    bitAt (writeBits storage bitPosition width value) position =
      if bitPosition ≤ position ∧ position < bitPosition + width then
        value.getLsbD (position - bitPosition)
      else bitAt storage position := by
  unfold WindowInside at inside
  unfold writeBits
  simp only [bytePosition_eq, bitOffset_eq]
  rw [bitAt_store storage _ 16 position _ inside]
  by_cases covered : 8 * (bitPosition / 8) ≤ position ∧ position < 8 * (bitPosition / 8 + 16)
  · have old : (load 128 storage (bitPosition / 8) 16).getLsbD
        (position - 8 * (bitPosition / 8)) = bitAt storage position := by
      rw [getLsbD_load storage _ 16 _ (by decide),
        show 8 * (bitPosition / 8) + (position - 8 * (bitPosition / 8)) = position by omega]
      simp [show position - 8 * (bitPosition / 8) < 128 by omega]
    rw [if_pos covered, BitVec.getLsbD_or, BitVec.getLsbD_and, BitVec.getLsbD_not,
      BitVec.getLsbD_shiftLeft, BitVec.getLsbD_shiftLeft, BitVec.getLsbD_and,
      getLsbD_valueMask width _ narrow, BitVec.getLsbD_setWidth, old]
    have word : position - 8 * (bitPosition / 8) < 128 := by omega
    by_cases field : bitPosition ≤ position ∧ position < bitPosition + width
    · rw [if_pos field, show position - 8 * (bitPosition / 8) - bitPosition % 8 =
        position - bitPosition by omega]
      simp [word, show ¬ position - 8 * (bitPosition / 8) < bitPosition % 8 by omega,
        show position - bitPosition < width by omega, show position - bitPosition < 128 by omega]
    · rw [if_neg field]
      by_cases early : position - 8 * (bitPosition / 8) < bitPosition % 8
      · simp [word, early]
      · simp [word, early,
          show ¬ position - 8 * (bitPosition / 8) - bitPosition % 8 < width by omega]
  · rw [if_neg covered, if_neg (by omega)]

/-- A field written is read back, reduced to its width. -/
theorem readBits_writeBits_same (storage : Bytes length) (bitPosition width : Nat) (value : Word)
    (narrow : width ≤ 64) (inside : WindowInside length bitPosition) :
    readBits (writeBits storage bitPosition width value) bitPosition width =
      value &&& lowMask width := by
  apply BitVec.eq_of_getLsbD_eq
  intro bit _
  rw [getLsbD_readBits _ _ _ _ narrow, bitAt_writeBits _ _ _ _ _ narrow inside,
    BitVec.getLsbD_and, getLsbD_lowMask width bit narrow]
  by_cases low : bit < width
  · simp [low]
  · simp [low]

/-- A field apart from the one written keeps its value. -/
theorem readBits_writeBits_apart (storage : Bytes length) (bitPosition width other otherWidth : Nat)
    (value : Word) (narrow : width ≤ 64) (otherNarrow : otherWidth ≤ 64)
    (inside : WindowInside length bitPosition)
    (apart : other + otherWidth ≤ bitPosition ∨ bitPosition + width ≤ other) :
    readBits (writeBits storage bitPosition width value) other otherWidth =
      readBits storage other otherWidth := by
  apply BitVec.eq_of_getLsbD_eq
  intro bit _
  rw [getLsbD_readBits _ _ _ _ otherNarrow, getLsbD_readBits _ _ _ _ otherNarrow,
    bitAt_writeBits _ _ _ _ _ narrow inside]
  by_cases low : bit < otherWidth
  · rw [if_neg (by omega)]
  · simp [low]

/-- One field to write: where, how wide, and what. -/
structure Field where
  /-- The first bit of the field. -/
  position : Nat
  /-- The width of the field. -/
  width : Nat
  /-- The word whose low bits are written. -/
  value : Word

/-- The bit belongs to the field. -/
def Field.Covers (field : Field) (bit : Nat) : Prop :=
  field.position ≤ bit ∧ bit < field.position + field.width

/-- The field has a legal width and its window lies in a storage of the given length. -/
structure Field.Legal (length : Nat) (field : Field) : Prop where
  /-- The assertion of `WriteBits` on widths. -/
  narrow : field.width ≤ 64
  /-- The bytes copied lie in the storage. -/
  inside : WindowInside length field.position

/-- Fields written one after the other. -/
def writeFields (storage : Bytes length) (fields : List Field) : Bytes length :=
  fields.foldl (fun storage field => writeBits storage field.position field.width field.value)
    storage

/-- A bit that belongs to none of the fields keeps its value. -/
theorem bitAt_writeFields_outside (fields : List Field) (storage : Bytes length) (bit : Nat)
    (legal : ∀ field ∈ fields, field.Legal length)
    (outside : ∀ field ∈ fields, ¬ field.Covers bit) :
    bitAt (writeFields storage fields) bit = bitAt storage bit := by
  induction fields generalizing storage with
  | nil => rfl
  | cons field fields ih =>
    have here := legal field List.mem_cons_self
    rw [writeFields, List.foldl_cons, ← writeFields,
      ih _ (fun other inside => legal other (List.mem_cons_of_mem _ inside))
        (fun other inside => outside other (List.mem_cons_of_mem _ inside)),
      bitAt_writeBits _ _ _ _ _ here.narrow here.inside]
    exact if_neg (outside field List.mem_cons_self)

/-- Among fields without a common bit, each one holds its own value after all are written. -/
theorem bitAt_writeFields_inside (fields : List Field) (storage : Bytes length) (bit : Nat)
    (legal : ∀ field ∈ fields, field.Legal length)
    (apart : fields.Pairwise fun left right => ∀ bit, left.Covers bit → ¬ right.Covers bit)
    (field : Field) (member : field ∈ fields) (covers : field.Covers bit) :
    bitAt (writeFields storage fields) bit = field.value.getLsbD (bit - field.position) := by
  induction fields generalizing storage with
  | nil => simp at member
  | cons head fields ih =>
    have here := legal head List.mem_cons_self
    have later := fun other inside => legal other (List.mem_cons_of_mem head inside)
    obtain ⟨first, rest⟩ := List.pairwise_cons.mp apart
    rw [writeFields, List.foldl_cons, ← writeFields]
    rcases List.mem_cons.mp member with rfl | inside
    · rw [bitAt_writeFields_outside fields _ bit later
          (fun other inside => first other inside bit covers),
        bitAt_writeBits _ _ _ _ _ here.narrow here.inside]
      exact if_pos covers
    · exact ih _ later rest inside

/-! ## Access to one field -/

/-- Masking a word keeps its value modulo the power of two of the width. -/
theorem toNat_and_lowMask (value : Word) (width : Nat) (narrow : width ≤ 64) :
    (value &&& lowMask width).toNat = value.toNat % 2 ^ width := by
  apply Nat.eq_of_testBit_eq
  intro bit
  rw [BitVec.testBit_toNat, BitVec.getLsbD_and, getLsbD_lowMask width bit narrow,
    Nat.testBit_mod_two_pow, BitVec.testBit_toNat, Bool.and_comm]

/-- Writes to two ranges without a common bit may be exchanged. -/
theorem writeBits_comm (storage : Bytes length) (first width other otherWidth : Nat)
    (value otherValue : Word) (narrow : width ≤ 64) (otherNarrow : otherWidth ≤ 64)
    (inside : WindowInside length first) (otherInside : WindowInside length other)
    (apart : other + otherWidth ≤ first ∨ first + width ≤ other) :
    writeBits (writeBits storage first width value) other otherWidth otherValue =
      writeBits (writeBits storage other otherWidth otherValue) first width value := by
  apply ext_bits
  intro bit _
  rw [bitAt_writeBits _ _ _ _ _ otherNarrow otherInside, bitAt_writeBits _ _ _ _ _ narrow inside,
    bitAt_writeBits _ _ _ _ _ narrow inside, bitAt_writeBits _ _ _ _ _ otherNarrow otherInside]
  by_cases field : first ≤ bit ∧ bit < first + width
  · have elsewhere : ¬ (other ≤ bit ∧ bit < other + otherWidth) := by omega
    rw [if_neg elsewhere, if_pos field, if_pos field]
  · rw [if_neg field, if_neg field]

/-- Access to a bit field at any bit position whose window lies in the storage, for any width up to
that of a word: what is written is read back modulo the width, a range without a common bit reads
as before, every other bit is kept, and writes to ranges without a common bit commute. -/
theorem bitField_access (storage : Bytes length) (bitPosition width : Nat) (value : Word)
    (narrow : width ≤ 64) (inside : WindowInside length bitPosition) :
    (readBits (writeBits storage bitPosition width value) bitPosition width).toNat =
        value.toNat % 2 ^ width ∧
      (∀ other otherWidth, otherWidth ≤ 64 →
        other + otherWidth ≤ bitPosition ∨ bitPosition + width ≤ other →
          readBits (writeBits storage bitPosition width value) other otherWidth =
            readBits storage other otherWidth) ∧
      (∀ bit, bit < bitPosition ∨ bitPosition + width ≤ bit →
        bitAt (writeBits storage bitPosition width value) bit = bitAt storage bit) ∧
      ∀ other otherWidth otherValue, otherWidth ≤ 64 → WindowInside length other →
        other + otherWidth ≤ bitPosition ∨ bitPosition + width ≤ other →
          writeBits (writeBits storage bitPosition width value) other otherWidth otherValue =
            writeBits (writeBits storage other otherWidth otherValue) bitPosition width value := by
  constructor
  · rw [readBits_writeBits_same _ _ _ _ narrow inside, toNat_and_lowMask _ _ narrow]
  constructor
  · intro other otherWidth otherNarrow apart
    exact readBits_writeBits_apart _ _ _ _ _ _ narrow otherNarrow inside apart
  constructor
  · intro bit outside
    have elsewhere : ¬ (bitPosition ≤ bit ∧ bit < bitPosition + width) := by omega
    rw [bitAt_writeBits _ _ _ _ _ narrow inside, if_neg elsewhere]
  · intro other otherWidth otherValue otherNarrow otherInside apart
    apply writeBits_comm _ _ _ _ _ _ _ narrow otherNarrow inside otherInside apart

/-- A full word written at an odd place crosses nine bytes and is read back whole. -/
theorem bitField_access_crossing :
    (readBits (writeBits (Vector.replicate 17 0) 13 64 0x8000000000000001#64) 13 64).toNat =
      (0x8000000000000001#64).toNat % 2 ^ 64 :=
  (bitField_access (Vector.replicate 17 0 : Bytes 17) 13 64 0x8000000000000001#64 (by decide)
    (by unfold WindowInside; decide)).1

end Filter

end Vlse
