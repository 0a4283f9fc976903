import Vlse.Filter.Store
import Vlse.Foundation.Journal
/-!
# The bucket codec and canonical stores

Reading a bucket just written gives its stable sort, and every other bucket as before. A store
is canonical when every stored code is one the semi-sort table assigns and every bucket reads
back sorted; writing keeps a store canonical, and on canonical stores writing back a bucket just
read changes no bit and no payload. These are the laws an undo journal asks for.
-/

namespace Vlse.Filter

open ByteBits

variable {F : FingerprintBits} {bucketCount : Nat} {P : Type*}

/-! ## Fingerprints and nibbles -/

/-- The value of the high nibble. -/
theorem highNibble_eq (fingerprint : Fingerprint F) :
    highNibble fingerprint = fingerprint.toNat / 2 ^ lowWidth F := by
  obtain ⟨_, _, width⟩ := lowWidth_bounds F
  have small : fingerprint.toNat < 2 ^ lowWidth F * 16 :=
    lt_of_lt_of_eq fingerprint.isLt (by rw [width, Nat.pow_add])
  have fits : fingerprint.toNat < 2 ^ 64 :=
    Nat.lt_of_lt_of_le fingerprint.isLt (Nat.pow_le_pow_right (by decide) F.upper)
  have nibble : fingerprint.toNat / 2 ^ lowWidth F < 16 :=
    (Nat.div_lt_iff_lt_mul (Nat.two_pow_pos _)).mpr (by rwa [Nat.mul_comm])
  unfold highNibble
  rw [BitVec.toNat_and, BitVec.toNat_ushiftRight, BitVec.toNat_setWidth, Nat.mod_eq_of_lt fits,
    Nat.shiftRight_eq_div_pow]
  exact (Nat.and_two_pow_sub_one_eq_mod _ 4).trans (Nat.mod_eq_of_lt nibble)

/-- A high nibble has four bits. -/
theorem highNibble_lt (fingerprint : Fingerprint F) : highNibble fingerprint < 16 :=
  Nat.lt_of_le_of_lt (by
    rw [highNibble, BitVec.toNat_and]
    exact Nat.and_le_right) (show (15 : Nat) < 16 by decide)

/-- The bits of the high nibble are the top bits of the fingerprint. -/
theorem testBit_highNibble (fingerprint : Fingerprint F) (bit : Nat) :
    (highNibble fingerprint).testBit bit = fingerprint.getLsbD (lowWidth F + bit) := by
  rw [highNibble_eq, Nat.testBit_div_two_pow, BitVec.testBit_toNat, Nat.add_comm]

/-- A larger fingerprint has no smaller high nibble. -/
theorem highNibble_le {left right : Fingerprint F} (order : left.toNat ≤ right.toNat) :
    highNibble left ≤ highNibble right := by
  rw [highNibble_eq, highNibble_eq]
  exact Nat.div_le_div_right order

/-- A fingerprint is its low field and its high nibble. -/
theorem fingerprint_ext {left right : Fingerprint F}
    (low : ∀ bit < lowWidth F, left.getLsbD bit = right.getLsbD bit)
    (high : highNibble left = highNibble right) : left = right := by
  apply BitVec.eq_of_getLsbD_eq
  intro bit _
  by_cases below : bit < lowWidth F
  · exact low bit below
  · have top := congrArg (fun nibble => nibble.testBit (bit - lowWidth F)) high
    simpa only [testBit_highNibble, show lowWidth F + (bit - lowWidth F) = bit by omega] using top

/-- `high_plain` packs the high nibbles in slot order. -/
theorem highPlain_eq (bucket : Bucket F P) :
    highPlain bucket = packNibbles (highNibble (recordAt bucket 0).fingerprint)
      (highNibble (recordAt bucket 1).fingerprint) (highNibble (recordAt bucket 2).fingerprint)
      (highNibble (recordAt bucket 3).fingerprint) := by
  have finRange : List.finRange 4 = [0, 1, 2, 3] := by decide
  simp [highPlain, finRange, packNibbles, reverseSlot]

/-- The nibbles of `high_plain`, counted from the low end. -/
theorem nibbleAt_highPlain (bucket : Bucket F P) (slot : Fin 4) :
    nibbleAt (highPlain bucket) (reverseSlot slot) =
      highNibble (recordAt bucket slot).fingerprint := by
  rw [highPlain_eq]
  obtain ⟨first, second, third, fourth⟩ := nibbleAt_packNibbles
    (highNibble_lt (recordAt bucket 0).fingerprint) (highNibble_lt (recordAt bucket 1).fingerprint)
    (highNibble_lt (recordAt bucket 2).fingerprint) (highNibble_lt (recordAt bucket 3).fingerprint)
  match slot with
  | 0 => exact first
  | 1 => exact second
  | 2 => exact third
  | 3 => exact fourth

/-- The high nibbles of a sorted bucket are nonincreasing, so its code is assigned. -/
theorem sortedNibbles_of_sortedBucket {bucket : Bucket F P} (sorted : SortedBucket bucket) :
    SortedNibbles (highNibble (recordAt bucket 0).fingerprint)
      (highNibble (recordAt bucket 1).fingerprint) (highNibble (recordAt bucket 2).fingerprint)
      (highNibble (recordAt bucket 3).fingerprint) where
  first := highNibble_lt _
  second := highNibble_le (sorted.le (by decide))
  third := highNibble_le (sorted.le (by decide))
  fourth := highNibble_le (sorted.le (by decide))

/-- The code of a sorted bucket is assigned and decodes to its high nibbles. -/
theorem decodeNibbles_highPlain {bucket : Bucket F P} (sorted : SortedBucket bucket) :
    encodeNibbles (highPlain bucket) < 3876 ∧
      decodeNibbles (encodeNibbles (highPlain bucket)) = highPlain bucket := by
  rw [highPlain_eq]
  exact decodeNibbles_encodeNibbles (sortedNibbles_of_sortedBucket sorted)

/-! ## What a slot reads -/

/-- The low bits of a decoded fingerprint are the bits of its field. -/
theorem getLsbD_readSlot (store : Store F bucketCount P) (position : Fin bucketCount)
    (slot : Fin 4) (bit : Nat) (low : bit < lowWidth F) :
    (readSlot store position slot).fingerprint.getLsbD bit =
      bitAt store.fingerprintStorage
        (bucketStart F position + reverseSlot slot * lowWidth F + bit) := by
  obtain ⟨_, narrow, width⟩ := lowWidth_bounds F
  unfold readSlot
  dsimp only
  rw [BitVec.getLsbD_setWidth, BitVec.getLsbD_or, BitVec.getLsbD_shiftLeft,
    getLsbD_readBits _ _ _ _ (by omega)]
  simp [low, show bit < F.bits by omega]

/-- The high nibble of a decoded fingerprint is the nibble of the stored code. -/
theorem highNibble_readSlot (store : Store F bucketCount P) (position : Fin bucketCount)
    (slot : Fin 4) :
    highNibble (readSlot store position slot).fingerprint =
      nibbleAt (decodeNibbles (storedCode store position)) (reverseSlot slot) := by
  obtain ⟨_, narrow, width⟩ := lowWidth_bounds F
  apply Nat.eq_of_testBit_eq
  intro bit
  rw [testBit_highNibble]
  unfold readSlot
  dsimp only
  have low : (readBits store.fingerprintStorage
      (bucketStart F position + reverseSlot slot * lowWidth F) (lowWidth F)).getLsbD
        (lowWidth F + bit) = false := by
    rw [getLsbD_readBits _ _ _ _ (by omega)]
    simp
  rw [BitVec.getLsbD_setWidth, BitVec.getLsbD_or, low, BitVec.getLsbD_shiftLeft,
    BitVec.getLsbD_ofNat, Nat.add_sub_cancel_left]
  by_cases top : bit < 4
  · simp [show lowWidth F + bit < F.bits by omega, show lowWidth F + bit < 64 by omega,
      show bit < 64 by omega]
  · have clear : (nibbleAt (decodeNibbles (storedCode store position))
        (reverseSlot slot)).testBit bit = false := by
      rw [nibbleAt, Nat.testBit_and]
      have : Nat.testBit 0xF bit = false :=
        Nat.testBit_lt_two_pow (Nat.lt_of_lt_of_le (by decide : 0xF < 2 ^ 4)
          (Nat.pow_le_pow_right (by decide) (by omega)))
      rw [this, Bool.and_false]
    simp [clear]

/-- A slot of a bucket read is the slot read. -/
@[simp] theorem recordAt_readBucket (store : Store F bucketCount P) (position : Fin bucketCount)
    (slot : Fin 4) : recordAt (readBucket store position) slot = readSlot store position slot := by
  simp [recordAt, readBucket]

/-- Two buckets with the same slots are equal. -/
theorem bucket_ext {left right : Bucket F P}
    (same : ∀ slot : Fin 4, recordAt left slot = recordAt right slot) : left = right :=
  Vector.ext fun index inside => same ⟨index, inside⟩

/-! ## Round trip and frame -/

/-- The stored code after a write is the code of the sorted bucket. -/
theorem storedCode_writeBucket_same (store : Store F bucketCount P) (position : Fin bucketCount)
    (bucket : Bucket F P) :
    storedCode (writeBucket store position bucket) position =
      encodeNibbles (highPlain (sortBucket bucket)) := by
  have assigned := (decodeNibbles_highPlain (sortedBucket_sortBucket bucket)).1
  apply Nat.eq_of_testBit_eq
  intro bit
  rw [storedCode, BitVec.testBit_toNat, getLsbD_readBits _ _ _ _ (by decide)]
  by_cases low : bit < 12
  · rw [bitAt_writeBucket_code store position bucket bit low]
    simp [low]
  · have clear : (encodeNibbles (highPlain (sortBucket bucket))).testBit bit = false :=
      Nat.testBit_lt_two_pow (Nat.lt_of_lt_of_le (show _ < 2 ^ 12 by omega)
        (Nat.pow_le_pow_right (by decide) (by omega)))
    simp [low, clear]

/-- A bucket just written reads back as its stable sort. -/
theorem readBucket_writeBucket_same (store : Store F bucketCount P) (position : Fin bucketCount)
    (bucket : Bucket F P) :
    readBucket (writeBucket store position bucket) position = sortBucket bucket := by
  apply bucket_ext
  intro slot
  have fingerprint : (readSlot (writeBucket store position bucket) position slot).fingerprint =
      (recordAt (sortBucket bucket) slot).fingerprint := by
    apply fingerprint_ext
    · intro bit low
      rw [getLsbD_readSlot _ _ _ _ low, bitAt_writeBucket_low _ _ _ _ _ low]
    · rw [highNibble_readSlot, storedCode_writeBucket_same,
        (decodeNibbles_highPlain (sortedBucket_sortBucket bucket)).2, nibbleAt_highPlain]
  have payload : (readSlot (writeBucket store position bucket) position slot).payload =
      (recordAt (sortBucket bucket) slot).payload :=
    (get_writePayloads _ _ _ _ _).trans (if_pos rfl)
  rw [recordAt_readBucket]
  exact Record.ext fingerprint payload

/-- The code of another bucket is unchanged by a write. -/
theorem storedCode_writeBucket_other (store : Store F bucketCount P)
    {position other : Fin bucketCount} (bucket : Bucket F P) (apart : position ≠ other) :
    storedCode (writeBucket store position bucket) other = storedCode store other := by
  have disjoint := bucketStart_apart F apart
  apply Nat.eq_of_testBit_eq
  intro bit
  rw [storedCode, storedCode, BitVec.testBit_toNat, BitVec.testBit_toNat,
    getLsbD_readBits _ _ _ _ (by decide), getLsbD_readBits _ _ _ _ (by decide)]
  by_cases low : bit < 12
  · rw [bitAt_writeBucket_outside _ _ _ _ (by omega)]
  · simp [low]

/-- Another bucket reads as before. -/
theorem readBucket_writeBucket_other (store : Store F bucketCount P)
    {position other : Fin bucketCount} (bucket : Bucket F P) (apart : position ≠ other) :
    readBucket (writeBucket store position bucket) other = readBucket store other := by
  have disjoint := bucketStart_apart F apart
  apply bucket_ext
  intro slot
  have place := reverseSlot_mul_add_le F slot
  have fingerprint : (readSlot (writeBucket store position bucket) other slot).fingerprint =
      (readSlot store other slot).fingerprint := by
    apply fingerprint_ext
    · intro bit low
      rw [getLsbD_readSlot _ _ _ _ low, getLsbD_readSlot _ _ _ _ low,
        bitAt_writeBucket_outside _ _ _ _ (by omega)]
    · rw [highNibble_readSlot, highNibble_readSlot, storedCode_writeBucket_other _ _ apart]
  have payload : (readSlot (writeBucket store position bucket) other slot).payload =
      (readSlot store other slot).payload :=
    (get_writePayloads _ _ _ _ _).trans (if_neg apart)
  rw [recordAt_readBucket, recordAt_readBucket]
  exact Record.ext fingerprint payload

/-- Two stores with the same bits and the same payloads are equal. -/
theorem store_ext {left right : Store F bucketCount P}
    (bits : ∀ bit, bitAt left.fingerprintStorage bit = bitAt right.fingerprintStorage bit)
    (payloads : ∀ (position : Fin bucketCount) (slot : Fin 4),
      left.payloads.get (payloadIndex position slot) =
        right.payloads.get (payloadIndex position slot)) :
    left = right := by
  obtain ⟨leftStorage, leftPayloads⟩ := left
  obtain ⟨rightStorage, rightPayloads⟩ := right
  congr 1
  · exact ext_bits fun bit _ => bits bit
  · apply Vector.ext
    intro index inside
    obtain ⟨position, slot, placed⟩ := exists_payloadIndex ⟨index, inside⟩
    obtain rfl : (payloadIndex position slot).val = index := congrArg Fin.val placed
    exact payloads position slot

/-- The later of two writes to a bucket is the one that counts. -/
theorem writeBucket_writeBucket (store : Store F bucketCount P) (position : Fin bucketCount)
    (first second : Bucket F P) :
    writeBucket (writeBucket store position first) position second =
      writeBucket store position second := by
  apply store_ext
  · intro bit
    by_cases inside : bucketStart F position ≤ bit ∧
        bit < bucketStart F position + (4 * lowWidth F + 12)
    · obtain ⟨field, member, covers⟩ :=
        exists_bucketField position (sortBucket second) bit inside.1 inside.2
      rw [bitAt_writeBucket_inside _ _ _ _ field member covers,
        bitAt_writeBucket_inside _ _ _ _ field member covers]
    · have outside : bit < bucketStart F position ∨
          bucketStart F position + (4 * lowWidth F + 12) ≤ bit := by omega
      simp only [bitAt_writeBucket_outside _ _ _ _ outside]
  · intro other slot
    simp only [writeBucket, get_writePayloads]
    split <;> rfl

/-! ## Canonical stores -/

/-- Every bucket holds an assigned code and reads back sorted. -/
structure Canonical (store : Store F bucketCount P) : Prop where
  /-- Stored codes are below the size of the semi-sort table. -/
  assigned : ∀ position, storedCode store position < 3876
  /-- Buckets read back in nonincreasing fingerprint order. -/
  sorted : ∀ position, SortedBucket (readBucket store position)

/-- Writing a bucket keeps a store canonical. -/
theorem canonical_writeBucket {store : Store F bucketCount P} (canonical : Canonical store)
    (position : Fin bucketCount) (bucket : Bucket F P) :
    Canonical (writeBucket store position bucket) := by
  constructor
  · intro other
    by_cases same : position = other
    · rw [← same, storedCode_writeBucket_same]
      exact (decodeNibbles_highPlain (sortedBucket_sortBucket bucket)).1
    · rw [storedCode_writeBucket_other _ _ same]
      exact canonical.assigned other
  · intro other
    by_cases same : position = other
    · rw [← same, readBucket_writeBucket_same]
      exact sortedBucket_sortBucket bucket
    · rw [readBucket_writeBucket_other _ _ same]
      exact canonical.sorted other

/-- The high nibbles of a bucket just read are those of its stored code. -/
theorem highPlain_readBucket (store : Store F bucketCount P) (position : Fin bucketCount) :
    highPlain (readBucket store position) = decodeNibbles (storedCode store position) := by
  obtain ⟨i, j, k, l, sorted, decoded⟩ := decodeNibbles_sorted (storedCode store position)
  have first := sorted.first
  have second := sorted.second
  have third := sorted.third
  have fourth := sorted.fourth
  obtain ⟨high, middle, lower, low⟩ :=
    nibbleAt_packNibbles (i := i) (j := j) (k := k) (l := l)
      (by omega) (by omega) (by omega) (by omega)
  rw [highPlain_eq]
  simp only [recordAt_readBucket, highNibble_readSlot, decoded, reverseSlot_zero, reverseSlot_one,
    reverseSlot_two, reverseSlot_three, high, middle, lower, low]

/-- In a canonical store, writing back a bucket just read changes no bit. -/
theorem bitAt_writeBucket_readBucket {store : Store F bucketCount P} (canonical : Canonical store)
    (position : Fin bucketCount) (bit : Nat) :
    bitAt (writeBucket store position (readBucket store position)).fingerprintStorage bit =
      bitAt store.fingerprintStorage bit := by
  have unchanged := sortBucket_eq_self (canonical.sorted position)
  obtain ⟨positive, narrow, _⟩ := lowWidth_bounds F
  by_cases inside : bucketStart F position ≤ bit ∧
      bit < bucketStart F position + (4 * lowWidth F + 12)
  · obtain ⟨field, member, covers⟩ :=
      exists_bucketField position (readBucket store position) bit inside.1 inside.2
    obtain ⟨offset, rfl⟩ := Nat.exists_eq_add_of_le covers.1
    have reached := covers.2
    cases mem_bucketFields.mp member with
    | inl lowField =>
      obtain ⟨slot, rfl⟩ := lowField
      have low : offset < lowWidth F := by
        dsimp only at reached
        omega
      rw [bitAt_writeBucket_low _ _ _ _ _ low, unchanged, recordAt_readBucket,
        getLsbD_readSlot _ _ _ _ low]
    | inr codeField =>
      subst codeField
      have low : offset < 12 := by
        dsimp only at reached
        omega
      rw [bitAt_writeBucket_code _ _ _ _ low, unchanged, highPlain_readBucket,
        (encodeNibbles_decodeNibbles _ (canonical.assigned position)).1, storedCode,
        BitVec.testBit_toNat, getLsbD_readBits _ _ _ _ (by decide)]
      simp [low]
  · exact bitAt_writeBucket_outside _ _ _ _ (by omega)

/-- In a canonical store, writing back a bucket just read changes nothing. -/
theorem writeBucket_readBucket {store : Store F bucketCount P} (canonical : Canonical store)
    (position : Fin bucketCount) :
    writeBucket store position (readBucket store position) = store := by
  apply store_ext
  · exact bitAt_writeBucket_readBucket canonical position
  · intro other slot
    simp only [writeBucket, get_writePayloads, sortBucket_eq_self (canonical.sorted position),
      recordAt_readBucket]
    split
    · rename_i same
      rw [← same]
      rfl
    · rfl

/-- The buckets of a store as cells with an undo journal. -/
def bucketAccess (F : FingerprintBits) (bucketCount : Nat) (P : Type*) :
    CellAccess (Store F bucketCount P) (Fin bucketCount) (Bucket F P) where
  read := readBucket
  write := writeBucket

/-- Canonical stores can be rolled back. -/
theorem bucketAccess_undoable :
    (bucketAccess F bucketCount P).Undoable Canonical where
  admitted_write _ position bucket canonical := canonical_writeBucket canonical position bucket
  write_write := writeBucket_writeBucket
  write_read _ position canonical := writeBucket_readBucket canonical position

end Vlse.Filter
