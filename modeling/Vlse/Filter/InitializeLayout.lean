import Mathlib.Data.Rat.Floor
import Vlse.Filter.Insert
import Vlse.Foundation.XorTable
/-!
# The layout of a filter

`InitializeLayout` rounds the requested number of buckets up to the range in which the fingerprints
of class 0 move and chooses a mask for each class. All arithmetic is on 64-bit words. The
floating-point test of `ProperAlternateRange` is any predicate of the bucket count, the class and
the range, and the target load of the constructor an exact rational.
-/

namespace Vlse.Filter

/-! ## Ranges -/

/-- `RoundUp`, on 64-bit words; dividing by zero is undefined. -/
def roundUp (value alignment : Nat) : Option Nat :=
  if alignment = 0 then none
  else some ((value + alignment - 1) % 2 ^ 64 / alignment * alignment % 2 ^ 64)

/-- `UpperPowerOfTwo`. The shifted result is zero from the 64th turn on, so looking at 65 results
decides the loop: `none` means that it never ends. -/
def upperPowerOfTwo (value : Nat) : Option Nat :=
  search (fun result => result * 2 % 2 ^ 64)
    (fun result => if result < value then none else some result) 65 1

/-- The outcome of the load test for a bucket count, an occupancy class and a range, under the
target load of the filter. -/
abbrev LoadTest := Nat → Nat → Nat → Bool

/-- `ProperAlternateRange`. Its range is zero from the 62nd turn on, so looking at 62 ranges decides
the loop: `none` means that it, or the loop after it, never ends. -/
def properAlternateRange (loadTest : LoadTest) (bucketCount occupancyClass : Nat) : Option Nat :=
  (search (fun alternateRange => alternateRange * 2 % 2 ^ 64)
    (fun alternateRange =>
      if alternateRange < bucketCount then
        if loadTest bucketCount occupancyClass alternateRange then some (some alternateRange)
        else none
      else some none) 62 8).bind fun found =>
    match found with
    | some alternateRange => some alternateRange
    | none => upperPowerOfTwo bucketCount

/-- A 64-bit word less one. -/
def minusOne (value : Nat) : Nat := (value + 2 ^ 64 - 1) % 2 ^ 64

/-- The mask of class 3, doubled in its range: `(alternate_masks_[3] + 1) * 2 - 1`. -/
def doubleMask (mask : Nat) : Nat := minusOne ((mask + 1) * 2 % 2 ^ 64)

/-! ## The members -/

/-- The members `InitializeLayout` assigns. -/
structure LayoutMembers where
  /-- `bucket_count_`. -/
  bucketCount : Nat
  /-- `alternate_masks_`. -/
  alternateMasks : Vector Nat 4
  /-- `logical_fingerprint_bytes_`. -/
  logicalFingerprintBytes : Nat
  /-- The size of `fingerprint_storage_`. -/
  storageBytes : Nat
  /-- The size of `payloads_`. -/
  payloadSlots : Nat

/-- `capacity`, on 64-bit words. -/
def capacity64 (bucketCount : Nat) : Nat := bucketCount * 4 % 2 ^ 64

/-- `total_bits`, on 64-bit words. -/
def totalBits (F : FingerprintBits) (bucketCount : Nat) : Nat :=
  bucketCount * encodedBitsPerBucket F % 2 ^ 64

/-- The members for a bucket count and masks. -/
def sized (F : FingerprintBits) (bucketCount : Nat) (alternateMasks : Vector Nat 4) :
    LayoutMembers where
  bucketCount := bucketCount
  alternateMasks := alternateMasks
  logicalFingerprintBytes := (totalBits F bucketCount + 7) % 2 ^ 64 / 8
  storageBytes := ((totalBits F bucketCount + 7) % 2 ^ 64 / 8 + 16) % 2 ^ 64
  payloadSlots := capacity64 bucketCount

/-- The tail of `InitializeLayout`, which allocates the storage; it throws when that fails. -/
def allocate (allocates : Nat → Nat → Bool) (members : LayoutMembers) :
    Except Fault LayoutMembers :=
  if allocates members.storageBytes members.payloadSlots then .ok members
  else .error .lengthError

/-- `segment`, for fewer than 10000 requested buckets. -/
def segment (requestedBuckets : Nat) : Option Nat :=
  if requestedBuckets < 256 then upperPowerOfTwo requestedBuckets
  else upperPowerOfTwo ((requestedBuckets + 3) / 4)

/-- `InitializeLayout` from the requested buckets on. -/
def initializeLayout (F : FingerprintBits) (loadTest : LoadTest) (allocates : Nat → Nat → Bool)
    (requestedBuckets : Nat) : Option (Except Fault LayoutMembers) :=
  if requestedBuckets < 10000 then do
    let segment ← segment requestedBuckets
    let bucketCount ← roundUp requestedBuckets segment
    return allocate allocates (sized F bucketCount (Vector.replicate 4 (minusOne segment)))
  else do
    let baseRange ← properAlternateRange loadTest requestedBuckets 0
    let bucketCount ← roundUp requestedBuckets baseRange
    let firstRange ← properAlternateRange loadTest bucketCount 1
    let secondRange ← properAlternateRange loadTest bucketCount 2
    let thirdRange ← properAlternateRange loadTest bucketCount 3
    return allocate allocates (sized F bucketCount #v[max (minusOne baseRange) 1024,
      minusOne firstRange, minusOne secondRange, doubleMask (minusOne thirdRange)])

/-! ## The constructor -/

/-- `requested_buckets`, with the target load an exact rational; a conversion to a value that does
not fit in 64 bits is undefined. -/
def requested (maximumItems : Nat) (targetLoad : ℚ) : Option Nat :=
  let quotient := ⌈(maximumItems : ℚ) / (targetLoad * 4)⌉₊
  if quotient < 2 ^ 64 then some (max 1 quotient) else none

/-- The constructor of `PairedVacuumFilter`, up to the members of its layout. -/
def constructLayout (F : FingerprintBits) (loadTest : LoadTest) (allocates : Nat → Nat → Bool)
    (maximumItems : Nat) (targetLoad : ℚ) : Option (Except Fault LayoutMembers) :=
  if maximumItems = 0 then
    some (.error (.invalidArgument "maximum_items must be positive"))
  else if ¬ (0 < targetLoad ∧ targetLoad < 1) then
    some (.error (.invalidArgument "target_load must be in (0,1)"))
  else (requested maximumItems targetLoad).bind (initializeLayout F loadTest allocates)

/-- What `BallsInBinsMaxLoad` leaves open: a load test passes only where the load of the class in
each bin, which no maximum is below, is under the limit. -/
def LoadTest.Consistent (loadTest : LoadTest) (targetLoad : ℚ) : Prop :=
  ∀ bucketCount occupancyClass range, loadTest bucketCount occupancyClass range = true →
    (4 - occupancyClass : ℚ) * (1 / 4) * 4 * targetLoad * bucketCount /
      ((bucketCount : ℚ) / range) < 97 / 100 * 4 * range

end Vlse.Filter
