import Mathlib.Data.Fintype.Pi
import Vlse.Filter.BitFields
import Vlse.Filter.Record
import Vlse.Filter.SemiSort
/-!
# Packed buckets

`ReadBucket` and `WriteBucket` keep four fingerprints of a bucket in `4 * (FingerprintBits - 1)`
bits: the low fields one after the other, the fingerprint of the last slot first, then one
semi-sort code for the four high nibbles. The payloads stand apart, four per bucket. The laws
describe a write by the bits it sets; from them follow the round trip with the stable sort, the
frame around the bucket written, and that a canonical store is unchanged by writing back a bucket
just read.
-/

namespace Vlse.Filter

open ByteBits

/-- `kEncodedBitsPerBucket`. -/
def encodedBitsPerBucket (F : FingerprintBits) : Nat := 4 * (F.bits - 1)

/-- `logical_fingerprint_bytes_` of a table, in unbounded arithmetic: what the code computes on
64-bit words where the bits of the table do not wrap. -/
def logicalFingerprintBytes (F : FingerprintBits) (bucketCount : Nat) : Nat :=
  (bucketCount * encodedBitsPerBucket F + 7) / 8

/-- `fingerprint_storage_` and `payloads_` that hold every bucket and the guard bytes. Their sizes
are unbounded here; they are those of `InitializeLayout` where its arithmetic does not wrap
(`exists_layout`), and where it does it allocates smaller arrays. -/
structure Store (F : FingerprintBits) (bucketCount : Nat) (P : Type*) where
  /-- The packed fingerprints and sixteen guard bytes. -/
  fingerprintStorage : Bytes (logicalFingerprintBytes F bucketCount + 16)
  /-- One payload for each slot. -/
  payloads : Vector P (bucketCount * 4)

variable {F : FingerprintBits} {bucketCount : Nat} {P : Type*}

/-- The width of a low field. -/
def lowWidth (F : FingerprintBits) : Nat := F.bits - 4

/-- The first bit of a bucket. -/
def bucketStart (F : FingerprintBits) (position : Fin bucketCount) : Nat :=
  position * encodedBitsPerBucket F

/-- The slot whose low field stands at a place counted from the first bit. -/
def reverseSlot (slot : Fin 4) : Nat := 4 - 1 - slot

/-- The place of a slot in the payload array. -/
def payloadIndex (position : Fin bucketCount) (slot : Fin 4) : Fin (bucketCount * 4) :=
  ⟨position.val * 4 + slot.val, by omega⟩

/-- The first slot comes last. -/
@[simp] theorem reverseSlot_zero : reverseSlot 0 = 3 := rfl

/-- The second slot comes third. -/
@[simp] theorem reverseSlot_one : reverseSlot 1 = 2 := rfl

/-- The third slot comes second. -/
@[simp] theorem reverseSlot_two : reverseSlot 2 = 1 := rfl

/-- The last slot comes first. -/
@[simp] theorem reverseSlot_three : reverseSlot 3 = 0 := rfl

/-- The stored semi-sort code of a bucket. -/
def storedCode (store : Store F bucketCount P) (position : Fin bucketCount) : Nat :=
  (readBits store.fingerprintStorage (bucketStart F position + 4 * lowWidth F) 12).toNat

/-- One slot as `ReadBucket` decodes it. -/
def readSlot (store : Store F bucketCount P) (position : Fin bucketCount)
    (slot : Fin 4) : Record F P :=
  let decodedHigh := decodeNibbles (storedCode store position)
  let low := readBits store.fingerprintStorage
    (bucketStart F position + reverseSlot slot * lowWidth F) (lowWidth F)
  let high := BitVec.ofNat 64 (nibbleAt decodedHigh (reverseSlot slot))
  { fingerprint := (low ||| (high <<< lowWidth F)).setWidth F.bits
    payload := store.payloads.get (payloadIndex position slot) }

/-- `ReadBucket`. -/
def readBucket (store : Store F bucketCount P) (position : Fin bucketCount) : Bucket F P :=
  Vector.ofFn (readSlot store position)

/-- The high nibble of a fingerprint. -/
def highNibble (fingerprint : Fingerprint F) : Nat :=
  ((fingerprint.setWidth 64 >>> lowWidth F) &&& 0xF#64).toNat

/-- `high_plain`: the high nibbles of a bucket, the first slot highest. -/
def highPlain (bucket : Bucket F P) : Nat :=
  (List.finRange 4).foldl
    (fun plain slot =>
      plain ||| (highNibble (recordAt bucket slot).fingerprint <<< (reverseSlot slot * 4))) 0

/-- The low fields written by the loop of `WriteBucket`. -/
def writeLowFields {length : Nat} (storage : Bytes length) (start : Nat) (bucket : Bucket F P) :
    Bytes length :=
  (List.finRange 4).foldl
    (fun storage slot => writeBits storage (start + reverseSlot slot * lowWidth F) (lowWidth F)
      ((recordAt bucket slot).fingerprint.setWidth 64 &&& lowMask (lowWidth F))) storage

/-- The payloads written by the loop of `WriteBucket`. -/
def writePayloads (payloads : Vector P (bucketCount * 4))
    (position : Fin bucketCount) (bucket : Bucket F P) : Vector P (bucketCount * 4) :=
  (List.finRange 4).foldl
    (fun payloads slot =>
      payloads.set (payloadIndex position slot) (recordAt bucket slot).payload)
    payloads

/-- `WriteBucket`. -/
def writeBucket (store : Store F bucketCount P) (position : Fin bucketCount)
    (bucket : Bucket F P) : Store F bucketCount P :=
  let sorted := sortBucket bucket
  { fingerprintStorage := writeBits
      (writeLowFields store.fingerprintStorage (bucketStart F position) sorted)
      (bucketStart F position + 4 * lowWidth F) 12
      (BitVec.ofNat 64 (encodeNibbles (highPlain sorted)))
    payloads := writePayloads store.payloads position sorted }

/-! ## Bits of a bucket -/

/-- A low field has between one and sixty bits, and a fingerprint four more. -/
theorem lowWidth_bounds (F : FingerprintBits) :
    1 ≤ lowWidth F ∧ lowWidth F ≤ 60 ∧ F.bits = lowWidth F + 4 := by
  have := F.lower
  have := F.upper
  unfold lowWidth
  omega

/-- A bucket is four low fields and a 12-bit code. -/
theorem encodedBitsPerBucket_eq (F : FingerprintBits) :
    encodedBitsPerBucket F = 4 * lowWidth F + 12 := by
  have := F.lower
  unfold encodedBitsPerBucket lowWidth
  omega

/-- The bits of a bucket lie before the logical end of the storage. -/
theorem bucketStart_add_le (F : FingerprintBits) (position : Fin bucketCount) :
    bucketStart F position + (4 * lowWidth F + 12) ≤ bucketCount * encodedBitsPerBucket F := by
  rw [← encodedBitsPerBucket_eq, bucketStart, ← Nat.succ_mul]
  exact Nat.mul_le_mul_right _ position.isLt

/-- Every window of a bucket lies in the storage, guard bytes included. -/
theorem windowInside (F : FingerprintBits) (position : Fin bucketCount) (offset : Nat)
    (inside : offset < 4 * lowWidth F + 12) :
    WindowInside (logicalFingerprintBytes F bucketCount + 16)
      (bucketStart F position + offset) := by
  have fits := bucketStart_add_le F position
  unfold WindowInside logicalFingerprintBytes
  omega

/-- Different buckets have no bit in common. -/
theorem bucketStart_apart (F : FingerprintBits) {left right : Fin bucketCount}
    (apart : left ≠ right) :
    bucketStart F left + (4 * lowWidth F + 12) ≤ bucketStart F right ∨
      bucketStart F right + (4 * lowWidth F + 12) ≤ bucketStart F left := by
  rw [← encodedBitsPerBucket_eq]
  unfold bucketStart
  rw [← Nat.succ_mul, ← Nat.succ_mul]
  rcases Nat.lt_or_gt_of_ne (Fin.val_ne_of_ne apart) with before | after
  · exact .inl (Nat.mul_le_mul_right _ before)
  · exact .inr (Nat.mul_le_mul_right _ after)

/-- The fields of a bucket as `WriteBucket` writes them: the low fields, then the code. -/
def bucketFields (position : Fin bucketCount) (bucket : Bucket F P) : List Field :=
  (List.finRange 4).map (fun slot => {
    position := bucketStart F position + reverseSlot slot * lowWidth F
    width := lowWidth F
    value := (recordAt bucket slot).fingerprint.setWidth 64 &&& lowMask (lowWidth F) }) ++
  [{ position := bucketStart F position + 4 * lowWidth F
     width := 12
     value := BitVec.ofNat 64 (encodeNibbles (highPlain bucket)) }]

/-- `WriteBucket` writes the fields of the sorted bucket. -/
theorem fingerprintStorage_writeBucket (store : Store F bucketCount P)
    (position : Fin bucketCount) (bucket : Bucket F P) :
    (writeBucket store position bucket).fingerprintStorage =
      writeFields store.fingerprintStorage (bucketFields position (sortBucket bucket)) := by
  rw [writeBucket, writeFields, bucketFields, List.foldl_append, List.foldl_map]
  rfl

/-- The place of a low field ends before the code. -/
theorem reverseSlot_mul_add_le (F : FingerprintBits) (slot : Fin 4) :
    reverseSlot slot * lowWidth F + lowWidth F ≤ 4 * lowWidth F := by
  rw [← Nat.succ_mul]
  exact Nat.mul_le_mul_right _ (by unfold reverseSlot; omega)

/-- Every place of a low field is the place of a slot. -/
theorem exists_reverseSlot (place : Nat) (small : place < 4) :
    ∃ slot : Fin 4, reverseSlot slot = place :=
  ⟨⟨3 - place, by omega⟩, by unfold reverseSlot; dsimp only; omega⟩

/-- Membership in the fields of a bucket, one case per kind of field. -/
theorem mem_bucketFields {position : Fin bucketCount} {bucket : Bucket F P} {field : Field} :
    field ∈ bucketFields position bucket ↔
      (∃ slot : Fin 4, field = {
        position := bucketStart F position + reverseSlot slot * lowWidth F
        width := lowWidth F
        value := (recordAt bucket slot).fingerprint.setWidth 64 &&& lowMask (lowWidth F) }) ∨
      field = {
        position := bucketStart F position + 4 * lowWidth F
        width := 12
        value := BitVec.ofNat 64 (encodeNibbles (highPlain bucket)) } := by
  simp only [bucketFields, List.mem_append, List.mem_map, List.mem_finRange, true_and,
    List.mem_singleton, eq_comm]

/-- Every field of a bucket may be written, at the last bucket too. -/
theorem bucketFields_legal (position : Fin bucketCount) (bucket : Bucket F P) :
    ∀ field ∈ bucketFields position bucket,
      field.Legal (logicalFingerprintBytes F bucketCount + 16) := by
  intro field member
  obtain ⟨positive, narrow, _⟩ := lowWidth_bounds F
  rcases mem_bucketFields.mp member with ⟨slot, rfl⟩ | rfl
  · have := reverseSlot_mul_add_le F slot
    exact ⟨by dsimp only; omega, windowInside F position _ (by omega)⟩
  · exact ⟨by dsimp only; omega, windowInside F position _ (by omega)⟩

/-- The fields of a bucket have no bit in common. -/
theorem bucketFields_apart (position : Fin bucketCount) (bucket : Bucket F P) :
    (bucketFields position bucket).Pairwise
      fun left right => ∀ bit, left.Covers bit → ¬ right.Covers bit := by
  refine List.pairwise_append.mpr ⟨?_, List.pairwise_singleton _ _, ?_⟩
  · refine List.pairwise_map.mpr ((List.pairwise_lt_finRange 4).imp fun {left right} order => ?_)
    have below : reverseSlot right * lowWidth F + lowWidth F ≤ reverseSlot left * lowWidth F := by
      rw [← Nat.succ_mul]
      exact Nat.mul_le_mul_right _ (by unfold reverseSlot; omega)
    intro bit covered covered'
    unfold Field.Covers at covered covered'
    dsimp only at covered covered'
    omega
  · intro field member code codeMember bit covered covered'
    obtain ⟨slot, -, rfl⟩ := List.mem_map.mp member
    obtain rfl := List.mem_singleton.mp codeMember
    have := reverseSlot_mul_add_le F slot
    unfold Field.Covers at covered covered'
    dsimp only at covered covered'
    omega

/-- Every bit of a bucket belongs to one of its fields. -/
theorem exists_bucketField (position : Fin bucketCount) (bucket : Bucket F P) (bit : Nat)
    (first : bucketStart F position ≤ bit)
    (last : bit < bucketStart F position + (4 * lowWidth F + 12)) :
    ∃ field ∈ bucketFields position bucket, field.Covers bit := by
  obtain ⟨positive, _, _⟩ := lowWidth_bounds F
  by_cases low : bit < bucketStart F position + 4 * lowWidth F
  · have place : (bit - bucketStart F position) / lowWidth F < 4 := by
      rw [Nat.div_lt_iff_lt_mul positive]
      omega
    obtain ⟨slot, mirrored⟩ := exists_reverseSlot _ place
    refine ⟨_, mem_bucketFields.mpr (.inl ⟨slot, rfl⟩), ?_⟩
    have split := Nat.div_add_mod (bit - bucketStart F position) (lowWidth F)
    have small := Nat.mod_lt (bit - bucketStart F position) positive
    rw [Nat.mul_comm] at split
    unfold Field.Covers
    rw [mirrored]
    dsimp only
    omega
  · refine ⟨_, mem_bucketFields.mpr (.inr rfl), ?_⟩
    unfold Field.Covers
    dsimp only
    omega

/-- A field of a bucket holds its value after the bucket is written. -/
theorem bitAt_writeBucket_inside (store : Store F bucketCount P) (position : Fin bucketCount)
    (bucket : Bucket F P) (bit : Nat) (field : Field)
    (member : field ∈ bucketFields position (sortBucket bucket)) (covers : field.Covers bit) :
    bitAt (writeBucket store position bucket).fingerprintStorage bit =
      field.value.getLsbD (bit - field.position) := by
  rw [fingerprintStorage_writeBucket]
  exact bitAt_writeFields_inside _ _ _ (bucketFields_legal _ _) (bucketFields_apart _ _) field
    member covers

/-- A write leaves every bit outside its bucket alone. -/
theorem bitAt_writeBucket_outside (store : Store F bucketCount P) (position : Fin bucketCount)
    (bucket : Bucket F P) (bit : Nat)
    (outside : bit < bucketStart F position ∨
      bucketStart F position + (4 * lowWidth F + 12) ≤ bit) :
    bitAt (writeBucket store position bucket).fingerprintStorage bit =
      bitAt store.fingerprintStorage bit := by
  rw [fingerprintStorage_writeBucket]
  refine bitAt_writeFields_outside _ _ _ (bucketFields_legal _ _) fun field member covers => ?_
  unfold Field.Covers at covers
  rcases mem_bucketFields.mp member with ⟨slot, rfl⟩ | rfl
  · have := reverseSlot_mul_add_le F slot
    dsimp only at covers
    omega
  · dsimp only at covers
    omega

/-- The low field of a slot holds the low bits of the fingerprint written there. -/
theorem bitAt_writeBucket_low (store : Store F bucketCount P) (position : Fin bucketCount)
    (bucket : Bucket F P) (slot : Fin 4) (bit : Nat) (low : bit < lowWidth F) :
    bitAt (writeBucket store position bucket).fingerprintStorage
        (bucketStart F position + reverseSlot slot * lowWidth F + bit) =
      (recordAt (sortBucket bucket) slot).fingerprint.getLsbD bit := by
  obtain ⟨positive, narrow, _⟩ := lowWidth_bounds F
  rw [bitAt_writeBucket_inside store position bucket _ _ (mem_bucketFields.mpr (.inl ⟨slot, rfl⟩))
    (by unfold Field.Covers; dsimp only; omega)]
  dsimp only
  rw [BitVec.getLsbD_and, BitVec.getLsbD_setWidth, getLsbD_lowMask _ _ (by omega),
    Nat.add_sub_cancel_left]
  simp [low, show bit < 64 by omega]

/-- The code field holds the code written there. -/
theorem bitAt_writeBucket_code (store : Store F bucketCount P) (position : Fin bucketCount)
    (bucket : Bucket F P) (bit : Nat) (low : bit < 12) :
    bitAt (writeBucket store position bucket).fingerprintStorage
        (bucketStart F position + 4 * lowWidth F + bit) =
      (encodeNibbles (highPlain (sortBucket bucket))).testBit bit := by
  rw [bitAt_writeBucket_inside store position bucket _ _ (mem_bucketFields.mpr (.inr rfl))
    (by unfold Field.Covers; dsimp only; omega)]
  dsimp only
  rw [Nat.add_sub_cancel_left, BitVec.getLsbD_ofNat]
  simp [show bit < 64 by omega]

/-! ## Payloads of a bucket -/

/-- Every place of the payload array is the place of a slot. -/
theorem exists_payloadIndex (index : Fin (bucketCount * 4)) :
    ∃ (position : Fin bucketCount) (slot : Fin 4), payloadIndex position slot = index := by
  refine ⟨⟨index.val / 4, by omega⟩, ⟨index.val % 4, by omega⟩, Fin.ext ?_⟩
  rw [payloadIndex]
  dsimp only
  omega

/-- Different slots have different places in the payload array. -/
theorem payloadIndex_inj {left right : Fin bucketCount} {slot other : Fin 4} :
    (payloadIndex left slot).val = payloadIndex right other ↔ left = right ∧ slot = other := by
  unfold payloadIndex
  rw [Fin.ext_iff, Fin.ext_iff]
  dsimp only
  omega

/-- A write stores the payloads of its bucket and keeps the others. -/
theorem get_writePayloads (payloads : Vector P (bucketCount * 4))
    (position other : Fin bucketCount) (bucket : Bucket F P) (slot : Fin 4) :
    (writePayloads payloads position bucket).get (payloadIndex other slot) =
      if position = other then (recordAt bucket slot).payload
      else payloads.get (payloadIndex other slot) := by
  have finRange : List.finRange 4 = [0, 1, 2, 3] := by decide
  change (writePayloads payloads position bucket)[(payloadIndex other slot).val] =
    if position = other then (recordAt bucket slot).payload
    else payloads[(payloadIndex other slot).val]
  simp only [writePayloads, finRange, List.foldl_cons, List.foldl_nil, Vector.getElem_set,
    payloadIndex_inj]
  by_cases same : position = other
  · match slot with
    | 0 | 1 | 2 | 3 => simp [same]
  · simp [same]

end Vlse.Filter
