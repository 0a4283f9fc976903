import Vlse.Filter.BitFields
import Vlse.Filter.Record
import Vlse.Foundation.Search
/-!
# Candidate buckets

`Alternate` moves a position by the bits of a fingerprint hash under a mask chosen by the class
of the fingerprint. Being an exclusive or, it is its own inverse, so the two candidate buckets of
a token determine each other from the fingerprint alone. A `Layout` is a table shape in which
`Alternate` stays in the table, the assertion of the source; only such shapes can be built here.
`Metadata` derives the fingerprint and the two candidate buckets of a token.
-/

namespace Vlse.Filter

/-- `fingerprint & 3U`. -/
def occupancyClass (fingerprint : Word) : Fin 4 :=
  ⟨(fingerprint &&& 3#64).toNat, by
    rw [BitVec.toNat_and]
    exact Nat.lt_of_le_of_lt Nat.and_le_right (by decide)⟩

/-- `fingerprint_hash`: the low word of the fingerprint times a constant, modulo `2 ^ 32`. -/
def fingerprintHash (fingerprint : Word) : Nat :=
  (fingerprint.setWidth 32 * 0x5bd1e995#32).toNat

/-- The position `Alternate` computes, before its assertion. -/
def alternateIndex (alternateMasks : Vector Nat 4) (position : Nat) (fingerprint : Word) : Nat :=
  position ^^^ (fingerprintHash fingerprint &&& alternateMasks.get (occupancyClass fingerprint))

/-- The same offset applied twice leads back. -/
@[simp] theorem alternateIndex_alternateIndex (alternateMasks : Vector Nat 4) (position : Nat)
    (fingerprint : Word) :
    alternateIndex alternateMasks (alternateIndex alternateMasks position fingerprint)
      fingerprint = position := by
  unfold alternateIndex
  rw [Nat.xor_assoc, Nat.xor_self, Nat.xor_zero]

/-- `bucket_count_` and `alternate_masks_` of a table in which `Alternate` stays. -/
structure Layout (F : FingerprintBits) where
  /-- `bucket_count_`. -/
  bucketCount : Nat
  /-- `alternate_masks_`. -/
  alternateMasks : Vector Nat 4
  /-- The table has a bucket; `Metadata` divides by the count. -/
  positive : 0 < bucketCount
  /-- The assertion in `Alternate`, for every fingerprint of the filter's width. -/
  closed : ∀ position < bucketCount, ∀ fingerprint : Fingerprint F,
    alternateIndex alternateMasks position (fingerprint.setWidth 64) < bucketCount

variable {F : FingerprintBits}

namespace Layout

/-- `Alternate`. -/
def alternate (layout : Layout F) (position : Fin layout.bucketCount)
    (fingerprint : Fingerprint F) : Fin layout.bucketCount :=
  ⟨alternateIndex layout.alternateMasks position (fingerprint.setWidth 64),
    layout.closed position position.isLt fingerprint⟩

/-- The alternate of the alternate bucket is the bucket itself. -/
@[simp] theorem alternate_alternate (layout : Layout F) (position : Fin layout.bucketCount)
    (fingerprint : Fingerprint F) :
    layout.alternate (layout.alternate position fingerprint) fingerprint = position :=
  Fin.ext (alternateIndex_alternateIndex _ _ _)

/-- `capacity`. -/
def capacity (layout : Layout F) : Nat := layout.bucketCount * 4

/-- The layout of a filter that needs no more than one bucket: every mask is zero. -/
def single (F : FingerprintBits) : Layout F where
  bucketCount := 1
  alternateMasks := Vector.replicate 4 0
  positive := Nat.one_pos
  closed position below fingerprint := by
    have zero : ∀ index : Fin 4, (Vector.replicate 4 0).get index = 0 := by decide
    rw [alternateIndex, zero, Nat.and_zero, Nat.xor_zero]
    exact below

/-- The layout of a filter for fewer than 256 requested buckets: a power of two of buckets, and
masks over all of them. -/
def powerOfTwo (F : FingerprintBits) (exponent : Nat) : Layout F where
  bucketCount := 2 ^ exponent
  alternateMasks := Vector.replicate 4 (2 ^ exponent - 1)
  positive := Nat.two_pow_pos exponent
  closed position below fingerprint := by
    have mask : ∀ index : Fin 4, (Vector.replicate 4 (2 ^ exponent - 1)).get index =
        2 ^ exponent - 1 := fun index => Vector.getElem_replicate index.isLt
    rw [alternateIndex, mask, Nat.and_two_pow_sub_one_eq_mod]
    exact Nat.xor_lt_two_pow below (Nat.mod_lt _ (Nat.two_pow_pos exponent))

end Layout

/-- `RotateLeft64`. -/
def rotateLeft64 (value : Word) (shift : Nat) : Word :=
  (value <<< shift) ||| (value >>> (64 - shift))

/-- `Token128`. -/
abbrev Token128 := BitVec 128

/-- `HashToken128`, over whatever `MurmurHash64` computes. -/
def hashToken128 (murmurHash64 : Word → Word) (token : Token128) (seed : Word) : Word :=
  let hi := (token >>> 64).setWidth 64
  let lo := token.setWidth 64
  murmurHash64 (hi ^^^ rotateLeft64 lo 29 ^^^ murmurHash64 seed)

/-- `FingerprintMask`. -/
def fingerprintMask (F : FingerprintBits) : Word := BitVec.allOnes 64 >>> (64 - F.bits)

/-- A word masked to a fingerprint. -/
def maskFingerprint (F : FingerprintBits) (word : Word) : Fingerprint F :=
  (word &&& fingerprintMask F).setWidth F.bits

/-- The constant and immutable members of `PairedVacuumFilter`, with the hash function. -/
structure Config (F : FingerprintBits) where
  /-- The shape of the table. -/
  layout : Layout F
  /-- `HashUtil::MurmurHash64`. -/
  murmurHash64 : Word → Word
  /-- `hash_seed_`. -/
  hashSeed : Word
  /-- `maximum_evictions_`. -/
  maximumEvictions : Nat

/-- `KeyMetadata`. -/
structure KeyMetadata (layout : Layout F) where
  /-- The fingerprint of the token. -/
  fingerprint : Fingerprint F
  /-- The bucket the hash selects. -/
  firstBucket : Fin layout.bucketCount
  /-- Its alternate. -/
  secondBucket : Fin layout.bucketCount

namespace Config

/-- One turn of the rehash loop of `Metadata`. -/
def rehash (config : Config F) (fingerprintState : Word) : Word :=
  config.murmurHash64 (fingerprintState ^^^ 0x9e3779b97f4a7c15#64)

/-- The exit test of the rehash loop: a nonzero fingerprint. -/
def nonzeroFingerprint (fingerprintState : Word) : Option (Fingerprint F) :=
  if maskFingerprint F fingerprintState = 0 then none
  else some (maskFingerprint F fingerprintState)

/-- The fingerprint `Metadata` ends its loop with. The loop state is one 64-bit word, so looking
at `2 ^ 64` states decides it: `none` means that the loop never ends. -/
def fingerprintOf (config : Config F) (element : Word) : Option (Fingerprint F) :=
  search config.rehash nonzeroFingerprint (2 ^ 64)
    (config.murmurHash64 (element ^^^ 0x192837319273#64))

/-- `Metadata`; `none` when its rehash loop never ends. -/
def metadata (config : Config F) (token : Token128) : Option (KeyMetadata config.layout) :=
  let element := hashToken128 config.murmurHash64 token config.hashSeed
  (config.fingerprintOf element).map fun fingerprint =>
    let first : Fin config.layout.bucketCount :=
      ⟨element.toNat % config.layout.bucketCount, Nat.mod_lt _ config.layout.positive⟩
    { fingerprint
      firstBucket := first
      secondBucket := config.layout.alternate first fingerprint }

/-- `Metadata` fails to return exactly when every rehash masks to the empty-slot sentinel. -/
theorem fingerprintOf_eq_none (config : Config F) (element : Word) :
    config.fingerprintOf element = none ↔ ∀ count, maskFingerprint F
      (config.rehash^[count] (config.murmurHash64 (element ^^^ 0x192837319273#64))) = 0 := by
  rw [fingerprintOf, search_size_eq_none BitVec.toFin
    (fun _ _ same => BitVec.toFin_inj.mp same)]
  simp [nonzeroFingerprint]

/-- The fingerprint found is not the empty-slot sentinel. -/
theorem fingerprintOf_ne_zero {config : Config F} {element : Word} {fingerprint : Fingerprint F}
    (found : config.fingerprintOf element = some fingerprint) : fingerprint ≠ 0 := by
  obtain ⟨count, -, hit⟩ := search_eq_some found
  unfold nonzeroFingerprint at hit
  split at hit
  · contradiction
  · rename_i genuine
    rwa [← Option.some.inj hit]

variable {config : Config F} {token : Token128} {metadata : KeyMetadata config.layout}

/-- A token never has the empty-slot sentinel as its fingerprint. -/
theorem metadata_fingerprint (derived : config.metadata token = some metadata) :
    metadata.fingerprint ≠ 0 := by
  obtain ⟨fingerprint, found, rfl⟩ := Option.map_eq_some_iff.mp derived
  exact fingerprintOf_ne_zero found

/-- The second candidate bucket is the alternate of the first. -/
theorem metadata_secondBucket (derived : config.metadata token = some metadata) :
    metadata.secondBucket = config.layout.alternate metadata.firstBucket metadata.fingerprint := by
  obtain ⟨fingerprint, found, rfl⟩ := Option.map_eq_some_iff.mp derived
  rfl

end Config

end Vlse.Filter
