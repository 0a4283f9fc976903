import Mathlib.Tactic.FieldSimp
import Mathlib.Tactic.Linarith
import Vlse.Filter.LayoutClosed
/-!
# Whether the sizes of a layout are exact

The bits of the storage are the largest number the constructor computes, so where they fit in a
64-bit word every size is exact, the capacity holds the items and the storage every bucket with
its guard bytes. Nothing bounds the items from above, and where the bits do not fit they wrap to
a smaller allocation.
-/

namespace Vlse.Filter

variable {F : FingerprintBits} {loadTest : LoadTest} {allocates : Nat → Nat → Bool}
  {maximumItems requestedBuckets : Nat} {targetLoad : ℚ} {members : LayoutMembers}

/-- The bits the buckets of the storage take up. -/
def storageBits (F : FingerprintBits) (bucketCount : Nat) : Nat :=
  bucketCount * encodedBitsPerBucket F

/-- The arrays of a layout hold the table and its items. -/
structure Roomy (F : FingerprintBits) (maximumItems : Nat) (members : LayoutMembers) : Prop where
  /-- The capacity holds the items. -/
  holdsItems : maximumItems ≤ capacity64 members.bucketCount
  /-- Every slot has a payload. -/
  payloads : members.payloadSlots = 4 * members.bucketCount
  /-- The storage holds every bucket and the guard bytes. -/
  storage : storageBits F members.bucketCount + 8 * 16 ≤ 8 * members.storageBytes

/-- Every size of a layout for a request has its value in unbounded arithmetic, so the arrays hold
the table. -/
structure Exact (F : FingerprintBits) (loadTest : LoadTest) (maximumItems requestedBuckets : Nat)
    (members : LayoutMembers) : Prop extends Roomy F maximumItems members where
  /-- `RoundUp` and `bucket_count_`. -/
  bucketCount : members.bucketCount = exactBucketCount loadTest requestedBuckets
  /-- `capacity`. -/
  capacity : capacity64 members.bucketCount = 4 * exactBucketCount loadTest requestedBuckets
  /-- `total_bits`. -/
  totalBits : totalBits F members.bucketCount =
    storageBits F (exactBucketCount loadTest requestedBuckets)
  /-- The size of `fingerprint_storage_`. -/
  storageBytes : members.storageBytes =
    Filter.logicalFingerprintBytes F (exactBucketCount loadTest requestedBuckets) + 16
  /-- The mask of class 3, doubled from 10000 requested buckets on. -/
  doubled : 10000 ≤ requestedBuckets → members.alternateMasks.get 3 =
    2 ^ properExponent loadTest (exactBucketCount loadTest requestedBuckets) 3 * 2 - 1

/-- `requested_buckets` in unbounded arithmetic. -/
def exactRequested (maximumItems : Nat) (targetLoad : ℚ) : Nat :=
  max 1 ⌈(maximumItems : ℚ) / (targetLoad * 4)⌉₊

/-- A constructor that completes has lain out the exact request, which fits in a word. -/
theorem constructLayout_ok
    (built : constructLayout F loadTest allocates maximumItems targetLoad = some (.ok members)) :
    0 < maximumItems ∧ 0 < targetLoad ∧ targetLoad < 1 ∧
      exactRequested maximumItems targetLoad < 2 ^ 64 ∧
      initializeLayout F loadTest allocates (exactRequested maximumItems targetLoad) =
        some (.ok members) := by
  unfold constructLayout at built
  split at built
  · cases built
  · rename_i nonzero
    split at built
    · cases built
    · rename_i inside
      have bounds := not_not.mp inside
      obtain ⟨request, converted, laidOut⟩ := Option.bind_eq_some_iff.mp built
      unfold requested at converted
      dsimp only at converted
      split at converted
      · rename_i fits
        cases converted
        exact ⟨Nat.pos_of_ne_zero nonzero, bounds.1, bounds.2, max_lt (by decide) fits, laidOut⟩
      · cases converted

/-- Four slots for each requested bucket hold the items. -/
theorem maximumItems_le (positive : 0 < targetLoad) (below : targetLoad < 1) :
    maximumItems ≤ 4 * exactRequested maximumItems targetLoad := by
  have slots : 0 < targetLoad * 4 := by linarith
  have ceiling : (maximumItems : ℚ) / (targetLoad * 4) ≤ exactRequested maximumItems targetLoad :=
    le_trans (Nat.le_ceil _) (Nat.cast_le.mpr (le_max_right _ _))
  have scaled := (div_le_iff₀ slots).mp ceiling
  have request : (0 : ℚ) ≤ exactRequested maximumItems targetLoad := Nat.cast_nonneg _
  have whole : (maximumItems : ℚ) ≤ 4 * exactRequested maximumItems targetLoad := by nlinarith
  exact_mod_cast whole

/-- A bucket takes at least 16 bits. -/
theorem sixteen_mul_le (F : FingerprintBits) (bucketCount : Nat) :
    16 * bucketCount ≤ storageBits F bucketCount := by
  have narrow := F.lower
  rw [storageBits, encodedBitsPerBucket, Nat.mul_comm]
  exact Nat.mul_le_mul_left _ (by omega)

/-- The layout has the exact bucket count as a word, which wraps only at `2 ^ 64`. -/
theorem initializeLayout_bucketCount (positive : 1 ≤ requestedBuckets)
    (word : requestedBuckets < 2 ^ 64)
    (built : initializeLayout F loadTest allocates requestedBuckets = some (.ok members)) :
    exactBucketCount loadTest requestedBuckets ≤ 2 ^ 64 ∧
      ∃ masks, members = sized F (exactBucketCount loadTest requestedBuckets % 2 ^ 64) masks := by
  by_cases few : requestedBuckets < 10000
  · have small := exactBucketCount_few loadTest few
    rw [Nat.mod_eq_of_lt (by omega)]
    exact ⟨by omega, _, initializeLayout_few positive few built⟩
  · obtain ⟨limit, masks, members_eq, -⟩ := initializeLayout_many word (not_lt.mp few) built
    exact ⟨limit, masks, members_eq⟩

/-- Where the bits fit in a word, so do the seven that round them up to bytes: from 10000 requested
buckets on their number is a multiple of 32. -/
theorem storageBits_add_lt
    (fits : storageBits F (exactBucketCount loadTest requestedBuckets) < 2 ^ 64) :
    storageBits F (exactBucketCount loadTest requestedBuckets) + 7 < 2 ^ 64 := by
  by_cases few : requestedBuckets < 10000
  · have small := exactBucketCount_few loadTest few
    have wide := F.upper
    have bounded : storageBits F (exactBucketCount loadTest requestedBuckets) ≤ 2 ^ 14 * 252 := by
      apply Nat.mul_le_mul small.le
      rw [encodedBitsPerBucket]
      omega
    omega
  · have eighth : 8 ∣ exactBucketCount loadTest requestedBuckets := by
      apply dvd_trans _ (dvd_exactBucketCount loadTest requestedBuckets)
      rw [alignmentExponent_many loadTest (not_lt.mp few)]
      exact pow_dvd_pow 2 (three_le_properExponent loadTest requestedBuckets 0)
    have divides : 8 ∣ storageBits F (exactBucketCount loadTest requestedBuckets) :=
      Dvd.dvd.mul_right eighth _
    omega

/-- Where the storage fits, the doubled mask does not wrap. -/
theorem doubled_eq (word : requestedBuckets < 2 ^ 64) (many : 10000 ≤ requestedBuckets)
    (fits : storageBits F (exactBucketCount loadTest requestedBuckets) < 2 ^ 64)
    (built : initializeLayout F loadTest allocates requestedBuckets = some (.ok members)) :
    members.alternateMasks.get 3 =
      2 ^ properExponent loadTest (exactBucketCount loadTest requestedBuckets) 3 * 2 - 1 := by
  have bits := sixteen_mul_le F (exactBucketCount loadTest requestedBuckets)
  obtain ⟨-, masks, rfl, shape⟩ := initializeLayout_many word many built
  have low : properExponent loadTest (exactBucketCount loadTest requestedBuckets) 3 ≤ 60 :=
    Nat.find_min' _ ⟨by decide, .inl (by omega)⟩
  have third := (shape (by omega)).2.2.2
  rw [Nat.min_eq_left (by omega), pow_succ] at third
  exact third

/-- Where the bits of the storage fit in a word, the layout is exact. -/
theorem exact_of_fits (positive : 1 ≤ requestedBuckets) (word : requestedBuckets < 2 ^ 64)
    (items : maximumItems ≤ 4 * requestedBuckets)
    (fits : storageBits F (exactBucketCount loadTest requestedBuckets) < 2 ^ 64)
    (built : initializeLayout F loadTest allocates requestedBuckets = some (.ok members)) :
    Exact F loadTest maximumItems requestedBuckets members := by
  have bits := sixteen_mul_le F (exactBucketCount loadTest requestedBuckets)
  have doubled := fun many => doubled_eq word many fits built
  have rounded := storageBits_add_lt fits
  have enough := le_exactBucketCount loadTest requestedBuckets
  obtain ⟨-, masks, rfl⟩ := initializeLayout_bucketCount positive word built
  have count : exactBucketCount loadTest requestedBuckets % 2 ^ 64 =
      exactBucketCount loadTest requestedBuckets := Nat.mod_eq_of_lt (by omega)
  have total : totalBits F (exactBucketCount loadTest requestedBuckets) =
      storageBits F (exactBucketCount loadTest requestedBuckets) := Nat.mod_eq_of_lt fits
  have capacity : capacity64 (exactBucketCount loadTest requestedBuckets) =
      4 * exactBucketCount loadTest requestedBuckets := by
    rw [capacity64, Nat.mod_eq_of_lt (by omega), Nat.mul_comm]
  exact
    { bucketCount := count
      capacity := by rw [sized, count]; exact capacity
      totalBits := by rw [sized, count]; exact total
      storageBytes := by
        rw [sized, count, total]
        dsimp only
        rw [Filter.logicalFingerprintBytes, ← storageBits]
        omega
      doubled := doubled
      holdsItems := by
        rw [sized, count, capacity]
        omega
      payloads := by rw [sized, count, capacity]
      storage := by
        rw [sized, count, total]
        dsimp only
        omega }

/-- Where the arrays hold the table, the bits of the storage fit in a word: otherwise the bits
allocated are fewer, or no bucket is left to hold the items. -/
theorem Roomy.fits (roomy : Roomy F maximumItems members) (items : 0 < maximumItems)
    (positive : 1 ≤ requestedBuckets) (word : requestedBuckets < 2 ^ 64)
    (built : initializeLayout F loadTest allocates requestedBuckets = some (.ok members)) :
    storageBits F (exactBucketCount loadTest requestedBuckets) < 2 ^ 64 := by
  obtain ⟨limit, masks, rfl⟩ := initializeLayout_bucketCount positive word built
  have holds := roomy.holdsItems
  have enough := roomy.storage
  rw [sized] at holds enough
  dsimp only at holds enough
  cases lt_or_eq_of_le limit with
  | inl narrow =>
    rw [Nat.mod_eq_of_lt narrow] at enough
    omega
  | inr wrapped =>
    rw [wrapped] at holds
    exact absurd holds (not_le.mpr items)

/-- For every number of items, target load and load test, a constructor that completes has arrays
that hold the table exactly where the bits of the storage fit in a word. -/
theorem constructLayout_roomy_iff
    (built : constructLayout F loadTest allocates maximumItems targetLoad = some (.ok members)) :
    Roomy F maximumItems members ↔
      storageBits F (exactBucketCount loadTest (exactRequested maximumItems targetLoad)) <
        2 ^ 64 := by
  obtain ⟨items, positive, below, word, laidOut⟩ := constructLayout_ok built
  have request : 1 ≤ exactRequested maximumItems targetLoad := le_max_left _ _
  constructor
  · intro roomy
    exact roomy.fits items request word laidOut
  · intro fits
    exact (exact_of_fits request word (maximumItems_le positive below) fits laidOut).toRoomy

/-- For every number of items, target load and load test, a constructor that completes has computed
an exact layout exactly where the bits of the storage fit in a word. -/
theorem constructLayout_exact_iff (F : FingerprintBits) (loadTest : LoadTest)
    (allocates : Nat → Nat → Bool) (maximumItems : Nat) (targetLoad : ℚ) (members : LayoutMembers)
    (built : constructLayout F loadTest allocates maximumItems targetLoad = some (.ok members)) :
    Exact F loadTest maximumItems (exactRequested maximumItems targetLoad) members ↔
      exactBucketCount loadTest (exactRequested maximumItems targetLoad) * (4 * (F.bits - 1)) <
        2 ^ 64 := by
  obtain ⟨-, positive, below, word, laidOut⟩ := constructLayout_ok built
  constructor
  · intro sizes
    exact (constructLayout_roomy_iff built).mp sizes.toRoomy
  · intro fits
    exact exact_of_fits (le_max_left _ _) word (maximumItems_le positive below) fits laidOut

/-- Where the bits of the storage fit in a word and the ranges divide the bucket count, what the
constructor computes is the shape of a filter with room for its items. -/
theorem exists_layout
    (built : constructLayout F loadTest allocates maximumItems targetLoad = some (.ok members))
    (fits : storageBits F (exactBucketCount loadTest (exactRequested maximumItems targetLoad)) <
      2 ^ 64)
    (divide : 10000 ≤ exactRequested maximumItems targetLoad →
      RangesDivide F loadTest (exactRequested maximumItems targetLoad)) :
    ∃ layout : Layout F, layout.bucketCount = members.bucketCount ∧
      layout.alternateMasks = members.alternateMasks ∧ maximumItems ≤ layout.capacity ∧
      members.storageBytes = Filter.logicalFingerprintBytes F layout.bucketCount + 16 ∧
      members.payloadSlots = layout.bucketCount * 4 := by
  obtain ⟨-, positive, below, word, laidOut⟩ := constructLayout_ok built
  have request : 1 ≤ exactRequested maximumItems targetLoad := le_max_left _ _
  have sizes := exact_of_fits request word (maximumItems_le positive below) fits laidOut
  have closed : TableClosed F members := by
    by_cases few : exactRequested maximumItems targetLoad < 10000
    · exact tableClosed_few request few laidOut
    · exact (tableClosed_many_iff word (not_lt.mp few) laidOut).mpr (divide (not_lt.mp few))
  have occupied : 0 < members.bucketCount := by
    rw [sizes.bucketCount]
    exact le_trans request (le_exactBucketCount _ _)
  refine ⟨members.layout occupied closed, rfl, rfl, ?_, ?_, ?_⟩
  · have holds := sizes.holdsItems
    rw [sizes.capacity, ← sizes.bucketCount, Nat.mul_comm] at holds
    exact holds
  · rw [sizes.storageBytes, ← sizes.bucketCount]
    rfl
  · rw [sizes.payloads]
    exact Nat.mul_comm _ _

/-- The exact request of 38000 items at a target load of 0.95. -/
theorem exactRequested_default : exactRequested 38000 (95 / 100) = 10000 := by
  have quotient : ((38000 : Nat) : ℚ) / (95 / 100 * 4) = (10000 : Nat) := by norm_num
  rw [exactRequested, quotient, Nat.ceil_natCast]
  rfl

/-- The exact request of `2 ^ 63` items at a target load of one half. -/
theorem exactRequested_half : exactRequested (2 ^ 63) (1 / 2) = 2 ^ 62 := by
  have quotient : ((2 ^ 63 : Nat) : ℚ) / (1 / 2 * 4) = (2 ^ 62 : Nat) := by norm_num
  rw [exactRequested, quotient, Nat.ceil_natCast]
  rfl

/-- The constructor lays out an exact request that fits in a word. -/
theorem constructLayout_eq (items : 0 < maximumItems) (positive : 0 < targetLoad)
    (below : targetLoad < 1) (word : exactRequested maximumItems targetLoad < 2 ^ 64) :
    constructLayout F loadTest allocates maximumItems targetLoad =
      initializeLayout F loadTest allocates (exactRequested maximumItems targetLoad) := by
  have fits : ⌈(maximumItems : ℚ) / (targetLoad * 4)⌉₊ < 2 ^ 64 :=
    lt_of_le_of_lt (le_max_right _ _) word
  rw [constructLayout, if_neg items.ne', if_neg (not_not.mpr ⟨positive, below⟩), requested,
    if_pos fits]
  rfl

/-- 38000 items at a target load of 0.95 have an exact layout. -/
theorem constructLayout_exact_default :
    Exact indexBits (thresholdTest 4096 64 16 8) 38000 (exactRequested 38000 (95 / 100))
      (sized indexBits 12288 #v[4095, 63, 15, 15]) := by
  have built : constructLayout indexBits (thresholdTest 4096 64 16 8) (fun _ _ => true) 38000
      (95 / 100) = some (.ok (sized indexBits 12288 #v[4095, 63, 15, 15])) := by
    rw [constructLayout_eq (by decide) (by norm_num) (by norm_num)
      (by rw [exactRequested_default]; decide), exactRequested_default]
    rfl
  apply (constructLayout_exact_iff _ _ _ _ _ _ built).mpr
  have base : properExponent (thresholdTest 4096 64 16 8) 10000 0 = 12 :=
    (properExponent_eq_iff _ _ _ _).mpr (by decide)
  rw [exactRequested_default, exactBucketCount, alignmentExponent_many _ le_rfl, base]
  decide

/-- A load test that passes nonzero ranges only is consistent with a target load below 0.97. -/
theorem LoadTest.consistent_of_pos (positive : 0 < targetLoad) (below : targetLoad < 97 / 100)
    (nonzero : ∀ bucketCount occupancyClass range,
      loadTest bucketCount occupancyClass range = true → 0 < range) :
    loadTest.Consistent targetLoad := by
  intro bucketCount occupancyClass range passed
  have wide : (0 : ℚ) < range := Nat.cast_pos.mpr (nonzero _ _ _ passed)
  have class_ : (0 : ℚ) ≤ occupancyClass := Nat.cast_nonneg _
  by_cases empty : bucketCount = 0
  · rw [empty, Nat.cast_zero, mul_zero, zero_div]
    positivity
  · have count : (bucketCount : ℚ) ≠ 0 := Nat.cast_ne_zero.mpr empty
    have load : (4 - occupancyClass : ℚ) * (1 / 4) * 4 * targetLoad * bucketCount /
        ((bucketCount : ℚ) / range) = (4 - occupancyClass) * targetLoad * range := by
      field_simp
    rw [load]
    apply mul_lt_mul_of_pos_right _ wide
    nlinarith

/-- At `2 ^ 63` items and a target load of one half the capacity of `2 ^ 62` buckets and their bits
wrap to zero, so the arrays are empty but for the guard bytes. -/
theorem constructLayout_wraps :
    (thresholdTest 128 64 64 32).Consistent (1 / 2) ∧
      constructLayout indexBits (thresholdTest 128 64 64 32)
        (fun storageBytes payloadSlots => decide (storageBytes = 16 ∧ payloadSlots = 0))
        (2 ^ 63) (1 / 2) = some (.ok (sized indexBits (2 ^ 62) #v[1024, 63, 63, 63])) ∧
      ¬ Exact indexBits (thresholdTest 128 64 64 32) (2 ^ 63) (exactRequested (2 ^ 63) (1 / 2))
        (sized indexBits (2 ^ 62) #v[1024, 63, 63, 63]) := by
  refine ⟨LoadTest.consistent_of_pos (by norm_num) (by norm_num) ?_, ?_, fun sizes => ?_⟩
  · intro _ occupancyClass range passed
    have reached := of_decide_eq_true passed
    split at reached <;> omega
  · rw [constructLayout_eq (by decide) (by norm_num) (by norm_num)
      (by rw [exactRequested_half]; decide), exactRequested_half]
    rfl
  · have holds := sizes.holdsItems
    revert holds
    decide

end Vlse.Filter
