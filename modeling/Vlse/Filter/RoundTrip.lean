import Vlse.Filter.LayoutExact
import Vlse.Foundation.Folds
/-!
# Bucket codec

`ReadBucket` and `WriteBucket` on the arrays as `InitializeLayout` allocates them, with positions in
64-bit arithmetic; an access outside an array is undefined, so it fails here. Where the bits of the
table and the seven that round them up do not wrap, what a write does to an arbitrary storage is
what the codec is for: the bucket written reads back as its stable sort, no other bucket and no
other bit changes, and every 16-byte window copied lies in the storage. Where they wrap, the last
bucket shows that the storage is too small or that positions collide.
-/

namespace Vlse.Filter

open ByteBits

variable {F : FingerprintBits} {bucketCount : Nat} {P : Type*}

/-! ## The stable sort -/

/-- A bucket is the stable sort of another by decreasing fingerprint. -/
structure StableSort (bucket sorted : Bucket F P) : Prop where
  /-- The records are the same. -/
  perm : sorted.toList.Perm bucket.toList
  /-- Fingerprints do not increase. -/
  descending : sorted.toList.Pairwise Descending
  /-- Records with one fingerprint keep their order. -/
  stable : ∀ fingerprint,
    sorted.toList.filter (fun record => record.fingerprint = fingerprint) =
      bucket.toList.filter fun record => record.fingerprint = fingerprint

/-- Records with one fingerprint are sorted in any order. -/
theorem pairwise_filter_fingerprint (items : List (Record F P)) (fingerprint : Fingerprint F) :
    (items.filter fun record => record.fingerprint = fingerprint).Pairwise Descending := by
  apply List.pairwise_of_forall_mem_list
  intro left leftInside right rightInside
  have leftSame := List.of_mem_filter leftInside
  have rightSame := List.of_mem_filter rightInside
  simp only [decide_eq_true_eq] at leftSame rightSame
  rw [Descending, leftSame, rightSame]

/-- The sort of `WriteBucket` is stable. -/
theorem stableSort_sortBucket (bucket : Bucket F P) : StableSort bucket (sortBucket bucket) where
  perm := List.perm_insertionSort _ _
  descending := sortedBucket_sortBucket bucket
  stable fingerprint := by
    rw [toList_sortBucket]
    have kept := List.sublist_insertionSort (pairwise_filter_fingerprint bucket.toList fingerprint)
      List.filter_sublist
    have again := kept.filter fun record => decide (record.fingerprint = fingerprint)
    rw [List.filter_filter] at again
    simp only [Bool.and_self] at again
    have counted := ((List.perm_insertionSort Descending bucket.toList).filter
      fun record => decide (record.fingerprint = fingerprint)).length_eq
    exact (again.eq_of_length counted.symm).symm

/-! ## Checked accesses -/

/-- `fingerprint_storage_` and `payloads_`, as long as they were allocated. -/
structure Arrays (storageBytes payloadSlots : Nat) (P : Type*) where
  /-- The packed fingerprints with the guard bytes. -/
  fingerprintStorage : Bytes storageBytes
  /-- The payloads. -/
  payloads : Vector P payloadSlots

/-- The arrays of a filter with some members. -/
abbrev LayoutMembers.Allocated (members : LayoutMembers) (P : Type*) :=
  Arrays members.storageBytes members.payloadSlots P

section Checked

variable {storageBytes payloadSlots : Nat}

/-- `ReadBits`, failing on a window outside the storage. -/
def readBitsChecked (storage : Bytes storageBytes) (bitPosition width : Nat) : Option Word :=
  if bitPosition / 8 + 16 ≤ storageBytes then some (readBits storage bitPosition width) else none

/-- `WriteBits`, failing on a window outside the storage. -/
def writeBitsChecked (storage : Bytes storageBytes) (bitPosition width : Nat) (value : Word) :
    Option (Bytes storageBytes) :=
  if bitPosition / 8 + 16 ≤ storageBytes then some (writeBits storage bitPosition width value)
  else none

/-- An element assigned, failing on an index outside the array. -/
def assignChecked (payloads : Vector P payloadSlots) (index : Nat) (payload : P) :
    Option (Vector P payloadSlots) :=
  if inside : index < payloadSlots then some (payloads.set index payload inside) else none

/-- `start` and a place counted from it, on 64-bit words. -/
def wrappedPosition (F : FingerprintBits) (position place : Nat) : Nat :=
  (position * encodedBitsPerBucket F % 2 ^ 64 + place) % 2 ^ 64

/-- `position * kSlotsPerBucket + slot`, on 64-bit words. -/
def wrappedIndex (position : Nat) (slot : Fin 4) : Nat :=
  (position * 4 % 2 ^ 64 + slot.val) % 2 ^ 64

/-- One turn of the loop of `ReadBucket`: the record of a slot. -/
def readSlotChecked (F : FingerprintBits) (arrays : Arrays storageBytes payloadSlots P)
    (position decodedHigh : Nat) (slot : Fin 4) : Option (Record F P) :=
  (readBitsChecked arrays.fingerprintStorage
    (wrappedPosition F position (reverseSlot slot * lowWidth F)) (lowWidth F)).bind fun low =>
      let high := BitVec.ofNat 64 (nibbleAt decodedHigh (reverseSlot slot))
      arrays.payloads[wrappedIndex position slot]?.map fun payload =>
        { fingerprint := (low ||| (high <<< lowWidth F)).setWidth F.bits, payload }

/-- `ReadBucket`. -/
def readBucketChecked [Inhabited P] (F : FingerprintBits)
    (arrays : Arrays storageBytes payloadSlots P) (position : Nat) : Option (Bucket F P) :=
  (readBitsChecked arrays.fingerprintStorage (wrappedPosition F position (4 * lowWidth F)) 12).bind
    fun encodedHigh =>
      (List.finRange 4).foldlM (fun bucket slot =>
        (readSlotChecked F arrays position (decodeNibbles encodedHigh.toNat) slot).map
          (setRecord bucket slot)) (Vector.replicate 4 ⟨0, default⟩)

/-- One turn of the loop of `WriteBucket`: the low field and the payload of a slot. -/
def writeSlotChecked (F : FingerprintBits) (arrays : Arrays storageBytes payloadSlots P)
    (position : Nat) (sorted : Bucket F P) (slot : Fin 4) :
    Option (Arrays storageBytes payloadSlots P) :=
  (writeBitsChecked arrays.fingerprintStorage
    (wrappedPosition F position (reverseSlot slot * lowWidth F)) (lowWidth F)
    ((recordAt sorted slot).fingerprint.setWidth 64 &&& lowMask (lowWidth F))).bind
      fun fingerprintStorage =>
        (assignChecked arrays.payloads (wrappedIndex position slot)
          (recordAt sorted slot).payload).map fun payloads => { fingerprintStorage, payloads }

/-- `WriteBucket`. -/
def writeBucketChecked (F : FingerprintBits) (arrays : Arrays storageBytes payloadSlots P)
    (position : Nat) (bucket : Bucket F P) : Option (Arrays storageBytes payloadSlots P) :=
  let sorted := sortBucket bucket
  ((List.finRange 4).foldlM (fun arrays slot => writeSlotChecked F arrays position sorted slot)
    arrays).bind fun arrays =>
      (writeBitsChecked arrays.fingerprintStorage (wrappedPosition F position (4 * lowWidth F)) 12
        (BitVec.ofNat 64 (encodeNibbles (highPlain sorted)))).map fun fingerprintStorage =>
          { arrays with fingerprintStorage }

end Checked

/-! ## Arrays that hold the table -/

/-- The arrays of a store. -/
def Store.arrays (store : Store F bucketCount P) :
    Arrays (logicalFingerprintBytes F bucketCount + 16) (bucketCount * 4) P :=
  ⟨store.fingerprintStorage, store.payloads⟩

/-- Setting the four slots one after the other builds the bucket. -/
theorem foldl_setRecord (records : Fin 4 → Record F P) (blank : Bucket F P) :
    (List.finRange 4).foldl (fun bucket slot => setRecord bucket slot (records slot)) blank =
      Vector.ofFn records := by
  have finRange : List.finRange 4 = [0, 1, 2, 3] := by decide
  apply bucket_ext
  intro slot
  rw [finRange]
  match slot with
  | 0 | 1 | 2 | 3 => simp [recordAt, setRecord]

section Unwrapped

variable (fits : storageBits F bucketCount < 2 ^ 64) (store : Store F bucketCount P)
  (position : Fin bucketCount)

include fits

/-- Where the bits of the table do not wrap, neither does a place in a bucket. -/
theorem wrappedPosition_eq {place : Nat} (inside : place < 4 * lowWidth F + 12) :
    wrappedPosition F position place = bucketStart F position + place := by
  have last := bucketStart_add_le F position
  have start : position.val * encodedBitsPerBucket F = bucketStart F position := rfl
  rw [storageBits] at fits
  rw [wrappedPosition, start, Nat.mod_eq_of_lt (by omega), Nat.mod_eq_of_lt (by omega)]

/-- Nor does the place of a payload. -/
theorem wrappedIndex_eq (slot : Fin 4) :
    wrappedIndex position slot = (payloadIndex position slot).val := by
  have wide := sixteen_mul_le F bucketCount
  have below := position.isLt
  have four := slot.isLt
  rw [wrappedIndex, payloadIndex, Nat.mod_eq_of_lt (by omega), Nat.mod_eq_of_lt (by omega)]

/-- A window that starts in a bucket passes the check. -/
theorem readBitsChecked_inside (storage : Bytes (logicalFingerprintBytes F bucketCount + 16))
    {place : Nat} (inside : place < 4 * lowWidth F + 12) (width : Nat) :
    readBitsChecked storage (wrappedPosition F position place) width =
      some (readBits storage (bucketStart F position + place) width) := by
  rw [wrappedPosition_eq fits position inside]
  exact if_pos (windowInside F position place inside)

/-- A window that starts in a bucket passes the check. -/
theorem writeBitsChecked_inside (storage : Bytes (logicalFingerprintBytes F bucketCount + 16))
    {place : Nat} (inside : place < 4 * lowWidth F + 12) (width : Nat) (value : Word) :
    writeBitsChecked storage (wrappedPosition F position place) width value =
      some (writeBits storage (bucketStart F position + place) width value) := by
  rw [wrappedPosition_eq fits position inside]
  exact if_pos (windowInside F position place inside)

/-- A payload of a bucket is read inside the array. -/
theorem payloads_inside (payloads : Vector P (bucketCount * 4)) (slot : Fin 4) :
    payloads[wrappedIndex position slot]? = some (payloads.get (payloadIndex position slot)) := by
  rw [wrappedIndex_eq fits]
  exact Vector.getElem?_eq_getElem (payloadIndex position slot).isLt

/-- A payload of a bucket is assigned inside the array. -/
theorem assignChecked_inside (payloads : Vector P (bucketCount * 4)) (slot : Fin 4) (payload : P) :
    assignChecked payloads (wrappedIndex position slot) payload =
      some (payloads.set (payloadIndex position slot) payload) := by
  rw [wrappedIndex_eq fits]
  exact dif_pos (payloadIndex position slot).isLt

/-- The record of a slot is read inside the arrays. -/
theorem readSlotChecked_arrays (slot : Fin 4) :
    readSlotChecked F store.arrays position (decodeNibbles (storedCode store position)) slot =
      some (readSlot store position slot) := by
  have place := reverseSlot_mul_add_le F slot
  have positive := (lowWidth_bounds F).1
  rw [readSlotChecked, Store.arrays, readBitsChecked_inside fits position _ (by omega),
    Option.bind_some, payloads_inside fits position, Option.map_some]
  rfl

/-- Reading a bucket copies windows of the storage only. -/
theorem readBucketChecked_arrays [Inhabited P] :
    readBucketChecked F store.arrays position = some (readBucket store position) := by
  have window := readBitsChecked_inside fits position store.fingerprintStorage
    (Nat.lt_add_of_pos_right (by decide : 0 < 12)) 12
  have code : storedCode store position =
      (readBits store.fingerprintStorage (bucketStart F position + 4 * lowWidth F) 12).toNat := rfl
  rw [readBucketChecked, Store.arrays, window, Option.bind_some, ← code,
    foldlM_eq_some fun bucket slot => setRecord bucket slot (readSlot store position slot),
    foldl_setRecord, readBucket]
  intro bucket slot _
  exact congrArg _ (readSlotChecked_arrays fits store position slot)

/-- Writing a bucket copies windows of the storage only. -/
theorem writeBucketChecked_arrays (bucket : Bucket F P) :
    writeBucketChecked F store.arrays position bucket =
      some (writeBucket store position bucket).arrays := by
  have finRange : List.finRange 4 = [0, 1, 2, 3] := by decide
  rw [writeBucketChecked, foldlM_eq_some fun arrays slot =>
    { fingerprintStorage := writeBits arrays.fingerprintStorage
        (bucketStart F position + reverseSlot slot * lowWidth F) (lowWidth F)
        ((recordAt (sortBucket bucket) slot).fingerprint.setWidth 64 &&& lowMask (lowWidth F))
      payloads := arrays.payloads.set (payloadIndex position slot)
        (recordAt (sortBucket bucket) slot).payload }]
  · rw [Option.bind_some, writeBitsChecked_inside fits position _
      (Nat.lt_add_of_pos_right (by decide : 0 < 12)), Option.map_some,
      writeBucket, writeLowFields, writePayloads, finRange]
    rfl
  · intro arrays slot _
    have place := reverseSlot_mul_add_le F slot
    have positive := (lowWidth_bounds F).1
    rw [writeSlotChecked, writeBitsChecked_inside fits position _ (by omega), Option.bind_some,
      assignChecked_inside fits position, Option.map_some]

end Unwrapped

/-! ## The codec -/

/-- What writing a bucket does to arrays, and what it leaves. -/
structure BucketWritten [Inhabited P] {storageBytes payloadSlots : Nat}
    (arrays : Arrays storageBytes payloadSlots P) (position : Fin bucketCount)
    (bucket : Bucket F P) (written : Arrays storageBytes payloadSlots P) : Prop where
  /-- Every window and every payload the write touches lies in its array. -/
  inside : writeBucketChecked F arrays position bucket = some written
  /-- So does every one that a read touches. -/
  readInside : ∀ other : Fin bucketCount, (readBucketChecked F arrays other).isSome
  /-- The bucket reads back sorted. -/
  roundTrip : readBucketChecked F written position = some (sortBucket bucket)
  /-- The sort is stable, by decreasing fingerprint. -/
  stable : StableSort bucket (sortBucket bucket)
  /-- Other buckets read as before. -/
  others : ∀ other : Fin bucketCount, position ≠ other →
    readBucketChecked F written other = readBucketChecked F arrays other
  /-- Bits outside the bucket, those of the guard bytes included, are as before. -/
  frame : ∀ bit, bit < bucketStart F position ∨
      bucketStart F position + encodedBitsPerBucket F ≤ bit →
    bitAt written.fingerprintStorage bit = bitAt arrays.fingerprintStorage bit

/-- The codec works on the arrays a filter has allocated: whatever they hold, a write of any bucket
at any position does that. -/
def BucketCodec (F : FingerprintBits) (bucketCount : Nat) (members : LayoutMembers) (P : Type*)
    [Inhabited P] : Prop :=
  ∀ (arrays : members.Allocated P) (position : Fin bucketCount) (bucket : Bucket F P),
    ∃ written, BucketWritten arrays position bucket written

/-- Writing any bucket at any position of any store does that. -/
theorem Store.bucketWritten [Inhabited P] (fits : storageBits F bucketCount < 2 ^ 64)
    (store : Store F bucketCount P) (position : Fin bucketCount) (bucket : Bucket F P) :
    BucketWritten store.arrays position bucket (writeBucket store position bucket).arrays where
  inside := writeBucketChecked_arrays fits store position bucket
  readInside other := by
    rw [readBucketChecked_arrays fits store other]
    rfl
  roundTrip := by
    rw [readBucketChecked_arrays fits, readBucket_writeBucket_same store position bucket]
  stable := stableSort_sortBucket bucket
  others other apart := by
    rw [readBucketChecked_arrays fits, readBucketChecked_arrays fits,
      readBucket_writeBucket_other store bucket apart]
  frame bit outside := by
    rw [encodedBitsPerBucket_eq] at outside
    exact bitAt_writeBucket_outside store position bucket bit outside

/-- Where the bits of the table and the seven that round them up fit in a word, the codec works. -/
theorem bucketCodec_of_fits [Inhabited P] {alternateMasks : Vector Nat 4}
    (fits : storageBits F bucketCount + 7 < 2 ^ 64) :
    BucketCodec F bucketCount (sized F bucketCount alternateMasks) P := by
  have wide := sixteen_mul_le F bucketCount
  have total : totalBits F bucketCount = storageBits F bucketCount :=
    Nat.mod_eq_of_lt (Nat.lt_of_le_of_lt (Nat.le_add_right _ 7) fits)
  have bytes : (sized F bucketCount alternateMasks).storageBytes =
      logicalFingerprintBytes F bucketCount + 16 := by
    rw [sized, total]
    dsimp only
    rw [logicalFingerprintBytes, ← storageBits]
    omega
  have slots : (sized F bucketCount alternateMasks).payloadSlots = bucketCount * 4 :=
    Nat.mod_eq_of_lt (by omega)
  unfold BucketCodec LayoutMembers.Allocated
  rw [bytes, slots]
  intro arrays position bucket
  exact ⟨_, Store.bucketWritten (by omega) ⟨arrays.fingerprintStorage, arrays.payloads⟩ position
    bucket⟩

/-! ## Arrays that do not -/

/-- A bucket that is read has its first window in the storage, which gives the low bit of its last
fingerprint. -/
theorem readBucketChecked_first [Inhabited P] {storageBytes payloadSlots position : Nat}
    {arrays : Arrays storageBytes payloadSlots P} {bucket : Bucket F P}
    (found : readBucketChecked F arrays position = some bucket) :
    wrappedPosition F position 0 / 8 + 16 ≤ storageBytes ∧
      (recordAt bucket 3).fingerprint.getLsbD 0 =
        bitAt arrays.fingerprintStorage (wrappedPosition F position 0) := by
  have finRange : List.finRange 4 = [0, 1, 2, 3] := by decide
  have ⟨positive, narrow, width⟩ := lowWidth_bounds F
  obtain ⟨encodedHigh, -, slots⟩ := Option.bind_eq_some_iff.mp found
  rw [finRange] at slots
  simp only [List.foldlM_cons, List.foldlM_nil] at slots
  obtain ⟨first, -, slots⟩ := Option.bind_eq_some_iff.mp slots
  obtain ⟨second, -, slots⟩ := Option.bind_eq_some_iff.mp slots
  obtain ⟨third, -, slots⟩ := Option.bind_eq_some_iff.mp slots
  obtain ⟨fourth, last, slots⟩ := Option.bind_eq_some_iff.mp slots
  obtain rfl : fourth = bucket := Option.some.inj slots
  obtain ⟨record, slot, rfl⟩ := Option.map_eq_some_iff.mp last
  obtain ⟨low, window, slot⟩ := Option.bind_eq_some_iff.mp slot
  obtain ⟨payload, -, rfl⟩ := Option.map_eq_some_iff.mp slot
  rw [reverseSlot_three, Nat.zero_mul] at window
  unfold readBitsChecked at window
  split at window
  · rename_i inside
    obtain rfl := Option.some.inj window
    refine ⟨inside, ?_⟩
    have lowest : 0 < lowWidth F := positive
    rw [recordAt_setRecord_self, BitVec.getLsbD_setWidth, BitVec.getLsbD_or,
      getLsbD_readBits _ _ _ _ (by omega), BitVec.getLsbD_shiftLeft]
    simp [show 0 < F.bits by omega, lowest]
  · contradiction

/-- Four records with fingerprint 1. -/
def onesBucket (F : FingerprintBits) (P : Type*) [Inhabited P] : Bucket F P :=
  Vector.replicate 4 ⟨1, default⟩

/-- So they are after sorting. -/
theorem recordAt_onesBucket [Inhabited P] (slot : Fin 4) :
    recordAt (sortBucket (onesBucket F P)) slot = ⟨1, default⟩ := by
  have listed := (mem_toList_iff (sortBucket (onesBucket F P)) _).mpr ⟨slot, rfl⟩
  rw [(stableSort_sortBucket (onesBucket F P)).perm.mem_iff, onesBucket, Vector.toList_replicate]
    at listed
  exact List.eq_of_mem_replicate listed

/-- Where the bits of the table or the seven that round them up wrap, the codec fails at the last
bucket: its first window is outside the storage, or its start is that of an earlier bucket. -/
theorem BucketCodec.fits [Inhabited P] {alternateMasks : Vector Nat 4}
    (codec : BucketCodec F bucketCount (sized F bucketCount alternateMasks) P) :
    storageBits F bucketCount + 7 < 2 ^ 64 := by
  by_contra wraps
  have upper := F.upper
  have wide : encodedBitsPerBucket F ≤ 252 := by
    rw [encodedBitsPerBucket]
    omega
  have some : 0 < bucketCount := by
    rcases Nat.eq_zero_or_pos bucketCount with rfl | positive
    · rw [storageBits, Nat.zero_mul] at wraps
      omega
    · exact positive
  have last : (bucketCount - 1) * encodedBitsPerBucket F + encodedBitsPerBucket F =
      storageBits F bucketCount := by
    rw [← Nat.succ_mul, Nat.succ_eq_add_one, Nat.sub_add_cancel some, storageBits]
  have start : wrappedPosition F (bucketCount - 1) 0 =
      (bucketCount - 1) * encodedBitsPerBucket F % 2 ^ 64 := by
    rw [wrappedPosition, Nat.add_zero, Nat.mod_mod]
  obtain ⟨written, result⟩ := codec ⟨Vector.replicate _ 0, Vector.replicate _ default⟩
    ⟨bucketCount - 1, Nat.sub_lt some Nat.one_pos⟩ (onesBucket F P)
  have found := readBucketChecked_first result.roundTrip
  rw [start] at found
  by_cases early : (bucketCount - 1) * encodedBitsPerBucket F < 2 ^ 64
  · -- the storage has room for no more than one bucket
    have window := found.1
    have storage : (sized F bucketCount alternateMasks).storageBytes =
        ((storageBits F bucketCount % 2 ^ 64 + 7) % 2 ^ 64 / 8 + 16) % 2 ^ 64 := rfl
    rw [storage] at window
    omega
  · -- the bits of the bucket, as it counts them, lie beyond the storage
    have unchanged := result.frame ((bucketCount - 1) * encodedBitsPerBucket F % 2 ^ 64)
      (.inl (Nat.lt_of_lt_of_le (Nat.mod_lt _ (by decide)) (Nat.le_of_not_lt early)))
    rw [← found.2, bitAt_replicate_zero, recordAt_onesBucket] at unchanged
    have lowest : (1#F.bits).getLsbD 0 = true := by
      rw [BitVec.getLsbD_one]
      simp [show 0 < F.bits by have := F.lower; omega]
    exact Bool.noConfusion (lowest.symm.trans unchanged)

/-- For every fingerprint width and bucket count, the codec works on the arrays a filter allocates
exactly where the bits of the table and the seven that round them up to bytes fit in a word. -/
theorem bucketCodec_iff (F : FingerprintBits) (bucketCount : Nat) (alternateMasks : Vector Nat 4)
    (P : Type*) [Inhabited P] :
    BucketCodec F bucketCount (sized F bucketCount alternateMasks) P ↔
      4 * (F.bits - 1) * bucketCount + 7 < 2 ^ 64 := by
  rw [Nat.mul_comm _ bucketCount]
  exact ⟨BucketCodec.fits, bucketCodec_of_fits⟩

/-- Where the constructor completes for `2 ^ 63` items at a target load of one half, the storage is
the guard bytes alone: reading the second bucket copies a window outside it, so the codec fails. -/
theorem bucketCodec_wraps :
    constructLayout indexBits (thresholdTest 128 64 64 32)
        (fun storageBytes payloadSlots => decide (storageBytes = 16 ∧ payloadSlots = 0))
        (2 ^ 63) (1 / 2) = some (.ok (sized indexBits (2 ^ 62) #v[1024, 63, 63, 63])) ∧
      (∀ arrays : (sized indexBits (2 ^ 62) #v[1024, 63, 63, 63]).Allocated Nat,
        readBucketChecked indexBits arrays 1 = none) ∧
      ¬ BucketCodec indexBits (2 ^ 62) (sized indexBits (2 ^ 62) #v[1024, 63, 63, 63]) Nat := by
  have outside : ∀ arrays : (sized indexBits (2 ^ 62) #v[1024, 63, 63, 63]).Allocated Nat,
      readBucketChecked indexBits arrays 1 = none := by
    intro arrays
    have window : readBitsChecked arrays.fingerprintStorage
        (wrappedPosition indexBits 1 (4 * lowWidth indexBits)) 12 = none := if_neg (by decide)
    rw [readBucketChecked, window, Option.bind_none]
  refine ⟨?_, outside, fun codec => ?_⟩
  · rw [constructLayout_eq (by decide) (by norm_num) (by norm_num)
      (by rw [exactRequested_half]; decide), exactRequested_half]
    rfl
  · obtain ⟨written, result⟩ := codec ⟨Vector.replicate _ 0, Vector.replicate _ 0⟩ 0
      (onesBucket indexBits Nat)
    have inside := result.readInside ⟨1, by decide⟩
    dsimp only at inside
    rw [outside] at inside
    contradiction

end Vlse.Filter
