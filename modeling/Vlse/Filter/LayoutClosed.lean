import Vlse.Filter.LayoutRanges
/-!
# Whether candidate buckets stay in the table

`Alternate` asserts that its result is in the table. The masks `InitializeLayout` chooses keep it
there exactly when the bucket count is a multiple of every power of two that an offset of some
class can reach. A count rounded up to the range of class 0 is such a multiple for that range, but
the mask of class 0 is raised to 1024 afterwards, and nothing rounds to the ranges of the others.
-/

namespace Vlse.Filter

variable {F : FingerprintBits}

/-! ## The offsets of a class -/

/-- The class is the fingerprint modulo four. -/
theorem occupancyClass_val (fingerprint : Word) :
    (occupancyClass fingerprint).val = fingerprint.toNat % 4 := by
  change (fingerprint &&& 3#64).toNat = _
  rw [BitVec.toNat_and]
  exact Nat.and_two_pow_sub_one_eq_mod _ 2

/-- The hash is a product modulo `2 ^ 32`. -/
theorem fingerprintHash_eq (fingerprint : Word) :
    fingerprintHash fingerprint = fingerprint.toNat % 2 ^ 32 * 0x5bd1e995 % 2 ^ 32 := by
  rw [fingerprintHash, BitVec.toNat_mul, BitVec.toNat_setWidth]
  rfl

/-- The hash is a 32-bit word. -/
theorem fingerprintHash_lt (fingerprint : Word) : fingerprintHash fingerprint < 2 ^ 32 :=
  BitVec.isLt _

/-- The fingerprints of a class. -/
abbrev ClassMember (F : FingerprintBits) (occupancy : Fin 4) :=
  { fingerprint : Fingerprint F // occupancyClass (fingerprint.setWidth 64) = occupancy }

/-- A small number below the fingerprint width, as a member of its class. -/
theorem exists_classMember {value : Nat} {occupancy : Fin 4} (narrow : value < 2 ^ F.bits)
    (small : value < 64) (valid : value % 4 = occupancy.val) :
    ∃ member : ClassMember F occupancy,
      fingerprintHash (member.val.setWidth 64) = value * 0x5bd1e995 % 2 ^ 32 := by
  have plain : ((BitVec.ofNat F.bits value).setWidth 64).toNat = value := by
    rw [BitVec.toNat_setWidth, BitVec.toNat_ofNat, Nat.mod_eq_of_lt narrow]
    omega
  refine ⟨⟨BitVec.ofNat F.bits value, Fin.ext ?_⟩, ?_⟩
  · rw [occupancyClass_val, plain, valid]
  · rw [fingerprintHash_eq, plain]
    omega

/-- `Alternate` keeps the positions of the table in it for the fingerprints of one class. -/
def ClassClosed (F : FingerprintBits) (bucketCount : Nat) (occupancy : Fin 4) (mask : Nat) : Prop :=
  ∀ member : ClassMember F occupancy, ∀ position < bucketCount,
    position ^^^ (fingerprintHash (member.val.setWidth 64) &&& mask) < bucketCount

/-- The bits in which a mask of so many bits moves the positions of a class: at most the 32 of the
hash, and the hashes of the eight fingerprints of class 2 of five bits lack bits 18 and 27. -/
def reach (F : FingerprintBits) (occupancy exponent : Nat) : Nat :=
  if F.bits = 5 ∧ occupancy = 2 ∧ (min exponent 32 = 19 ∨ min exponent 32 = 28) then
    min exponent 32 - 1
  else min exponent 32

/-- Fingerprints of five bits have a hash with any one bit from the third on, save in class 2. -/
theorem exists_bit_of_five : ∀ occupancy : Fin 4, ∀ bit < 32, 2 ≤ bit →
    (∃ value < 32, value % 4 = occupancy.val ∧
      2 ^ bit ≤ value * 0x5bd1e995 % 2 ^ 32 % 2 ^ (bit + 1)) ∨
    (occupancy.val = 2 ∧ (bit = 18 ∨ bit = 27)) := by
  decide +kernel

/-- The eight hashes of class 2 lack bits 18 and 27. -/
theorem five_bits_lack : ∀ value < 32, value % 4 = 2 →
    value * 0x5bd1e995 % 2 ^ 32 % 2 ^ 19 < 2 ^ 18 ∧
      value * 0x5bd1e995 % 2 ^ 32 % 2 ^ 28 < 2 ^ 27 := by
  decide +kernel

/-- Some small fingerprint of a class has a hash with a given bit. -/
theorem exists_bit (F : FingerprintBits) (occupancy : Fin 4) {bit : Nat} (low : 2 ≤ bit)
    (high : bit < 32) (present : ¬ (F.bits = 5 ∧ occupancy.val = 2 ∧ (bit = 18 ∨ bit = 27))) :
    ∃ value < 64, value < 2 ^ F.bits ∧ value % 4 = occupancy.val ∧
      2 ^ bit ≤ value * 0x5bd1e995 % 2 ^ 32 % 2 ^ (bit + 1) := by
  have width : 2 ^ 5 ≤ 2 ^ F.bits := Nat.pow_le_pow_right (by decide) F.lower
  cases exists_bit_of_five occupancy bit high low with
  | inl found =>
    obtain ⟨value, small, valid, set⟩ := found
    exact ⟨value, by omega, by omega, valid, set⟩
  | inr lacking =>
    -- six bits have a further fingerprint of class 2 with each of these bits
    have wider : 2 ^ 6 ≤ 2 ^ F.bits := by
      apply Nat.pow_le_pow_right (by decide)
      have five := F.lower
      by_contra narrow
      exact present ⟨by omega, lacking⟩
    obtain ⟨second, rfl | rfl⟩ := lacking
    · exact ⟨46, by decide, by omega, second.symm, by decide +kernel⟩
    · exact ⟨46, by decide, by omega, second.symm, by decide +kernel⟩

/-- A mask one less than a power of two keeps low bits of the hash, of which there are 32. -/
theorem fingerprintHash_and (fingerprint : Word) (exponent : Nat) :
    fingerprintHash fingerprint &&& (2 ^ exponent - 1) =
      fingerprintHash fingerprint % 2 ^ min exponent 32 := by
  rw [Nat.and_two_pow_sub_one_eq_mod]
  by_cases narrow : exponent ≤ 32
  · rw [Nat.min_eq_left narrow]
  · have bound := fingerprintHash_lt fingerprint
    have order : 2 ^ 32 ≤ 2 ^ exponent := Nat.pow_le_pow_right (by decide) (by omega)
    rw [Nat.min_eq_right (by omega), Nat.mod_eq_of_lt bound,
      Nat.mod_eq_of_lt (lt_of_lt_of_le bound order)]

/-- A fingerprint is a number below its width. -/
theorem toNat_setWidth_lt (fingerprint : Fingerprint F) :
    (fingerprint.setWidth 64).toNat < 2 ^ F.bits := by
  rw [BitVec.toNat_setWidth]
  exact lt_of_le_of_lt (Nat.mod_le _ _) fingerprint.isLt

/-- The offsets of a class stay below the power of its reach. -/
theorem offset_lt (occupancy : Fin 4) (exponent : Nat) (member : ClassMember F occupancy) :
    fingerprintHash (member.val.setWidth 64) &&& (2 ^ exponent - 1) <
      2 ^ reach F occupancy exponent := by
  rw [fingerprintHash_and]
  unfold reach
  split
  · rename_i lacking
    obtain ⟨five, second, reached⟩ := lacking
    have small : (member.val.setWidth 64).toNat < 2 ^ 5 :=
      lt_of_lt_of_le (toNat_setWidth_lt member.val) (Nat.pow_le_pow_right (by decide) five.le)
    have valid := occupancyClass_val (member.val.setWidth 64)
    rw [member.property, second] at valid
    have absent := five_bits_lack _ small valid.symm
    have low : (member.val.setWidth 64).toNat % 2 ^ 32 = (member.val.setWidth 64).toNat :=
      Nat.mod_eq_of_lt (by omega)
    rw [fingerprintHash_eq, low]
    cases reached with
    | inl nineteen => rw [nineteen]; exact absent.1
    | inr twentyEight => rw [twentyEight]; exact absent.2
  · exact Nat.mod_lt _ (Nat.two_pow_pos _)

/-- Some offset of a class has the highest bit of its reach. -/
theorem exists_offset (F : FingerprintBits) (occupancy : Fin 4) {exponent : Nat}
    (wide : 3 ≤ exponent) : 3 ≤ reach F occupancy exponent ∧
    ∃ member : ClassMember F occupancy, 2 ^ (reach F occupancy exponent - 1) ≤
      fingerprintHash (member.val.setWidth 64) &&& (2 ^ exponent - 1) := by
  have reached : 3 ≤ reach F occupancy exponent ∧ reach F occupancy exponent ≤ min exponent 32 ∧
      ¬ (F.bits = 5 ∧ occupancy.val = 2 ∧ (reach F occupancy exponent - 1 = 18 ∨
        reach F occupancy exponent - 1 = 27)) := by
    unfold reach
    split <;> omega
  obtain ⟨value, small, narrow, valid, set⟩ := exists_bit F occupancy
    (show 2 ≤ reach F occupancy exponent - 1 by omega) (by omega) reached.2.2
  obtain ⟨member, hash⟩ := exists_classMember narrow small valid
  refine ⟨reached.1, member, ?_⟩
  rw [fingerprintHash_and, hash]
  rw [Nat.sub_add_cancel (by omega)] at set
  rw [← Nat.mod_mod_of_dvd _ (pow_dvd_pow 2 reached.2.1)] at set
  exact le_trans set (Nat.mod_le _ _)

/-- A mask one less than a power of two keeps a class in the table exactly when the power of its
reach divides the bucket count. -/
theorem classClosed_iff (F : FingerprintBits) (bucketCount : Nat) (occupancy : Fin 4)
    {exponent : Nat} (wide : 3 ≤ exponent) :
    ClassClosed F bucketCount occupancy (2 ^ exponent - 1) ↔
      2 ^ reach F occupancy exponent ∣ bucketCount := by
  obtain ⟨reached, highest⟩ := exists_offset F occupancy wide
  have whole : reach F occupancy exponent - 1 + 1 = reach F occupancy exponent := by omega
  have family := xor_family_lt_iff
    (fun member : ClassMember F occupancy =>
      fingerprintHash (member.val.setWidth 64) &&& (2 ^ exponent - 1))
    bucketCount (fun member => by rw [whole]; exact offset_lt occupancy exponent member) highest
  rw [whole] at family
  exact family

/-- The mask 1024 keeps class 0 in the table exactly when 2048 divides the bucket count. -/
theorem classClosed_1024_iff (F : FingerprintBits) (bucketCount : Nat) :
    ClassClosed F bucketCount 0 1024 ↔ 2 ^ 11 ∣ bucketCount := by
  have width : 2 ^ 5 ≤ 2 ^ F.bits := Nat.pow_le_pow_right (by decide) F.lower
  have narrow : 4 < 2 ^ F.bits := by omega
  obtain ⟨member, hash⟩ := exists_classMember narrow (by decide)
    (show 4 % 4 = (0 : Fin 4).val by rfl)
  apply xor_family_lt_iff
    (fun member : ClassMember F 0 => fingerprintHash (member.val.setWidth 64) &&& 1024)
  · intro other
    exact lt_of_le_of_lt Nat.and_le_right (by decide)
  · refine ⟨member, ?_⟩
    rw [hash]
    decide

/-! ## The table -/

variable {loadTest : LoadTest} {allocates : Nat → Nat → Bool} {requestedBuckets : Nat}
  {members : LayoutMembers}

/-- The assertion in `Alternate`, for every position of the table and every fingerprint. -/
def TableClosed (F : FingerprintBits) (members : LayoutMembers) : Prop :=
  ∀ position < members.bucketCount, ∀ fingerprint : Fingerprint F,
    alternateIndex members.alternateMasks position (fingerprint.setWidth 64) < members.bucketCount

/-- The layout of members that keep candidate buckets in a table with a bucket. -/
def LayoutMembers.layout (members : LayoutMembers) (positive : 0 < members.bucketCount)
    (closed : TableClosed F members) : Layout F where
  bucketCount := members.bucketCount
  alternateMasks := members.alternateMasks
  positive := positive
  closed := closed

/-- The table is closed when it is for each class under its mask. -/
theorem tableClosed_iff (F : FingerprintBits) (members : LayoutMembers) :
    TableClosed F members ↔ ∀ occupancy : Fin 4, ClassClosed F members.bucketCount occupancy
      (members.alternateMasks.get occupancy) := by
  constructor
  · intro closed occupancy member position inside
    have moved := closed position inside member.val
    rw [alternateIndex, member.property] at moved
    exact moved
  · intro closed position inside fingerprint
    exact closed _ ⟨fingerprint, rfl⟩ position inside

/-- A mask one less than a power of two that divides the bucket count keeps a class in the table. -/
theorem classClosed_of_dvd {bucketCount exponent : Nat} (occupancy : Fin 4)
    (divides : 2 ^ exponent ∣ bucketCount) :
    ClassClosed F bucketCount occupancy (2 ^ exponent - 1) := by
  intro member position inside
  apply xor_lt_of_dvd divides inside
  exact lt_of_le_of_lt Nat.and_le_right (Nat.sub_lt (Nat.two_pow_pos exponent) Nat.one_pos)

/-- Below 10000 requested buckets the table is closed. -/
theorem tableClosed_few (positive : 1 ≤ requestedBuckets) (few : requestedBuckets < 10000)
    (built : initializeLayout F loadTest allocates requestedBuckets = some (.ok members)) :
    TableClosed F members := by
  rw [initializeLayout_few positive few built, tableClosed_iff]
  intro occupancy
  have mask : (Vector.replicate 4 (2 ^ alignmentExponent loadTest requestedBuckets - 1)).get
      occupancy = 2 ^ alignmentExponent loadTest requestedBuckets - 1 :=
    Vector.getElem_replicate _
  rw [sized, mask]
  exact classClosed_of_dvd occupancy (dvd_exactBucketCount loadTest requestedBuckets)

/-- The mask of class 0 keeps it in the table when it is the range less one, or else when 2048
divides the bucket count. -/
theorem classClosed_base_iff (F : FingerprintBits) {bucketCount exponent : Nat}
    (divides : 2 ^ exponent ∣ bucketCount) :
    ClassClosed F bucketCount 0 (max (2 ^ exponent - 1) 1024) ↔
      (exponent ≤ 10 → 2 ^ 11 ∣ bucketCount) := by
  by_cases raised : exponent ≤ 10
  · have order : 2 ^ exponent ≤ 2 ^ 10 := Nat.pow_le_pow_right (by decide) raised
    rw [Nat.max_eq_right (by omega), classClosed_1024_iff]
    exact (imp_iff_right raised).symm
  · have order : 2 ^ 11 ≤ 2 ^ exponent := Nat.pow_le_pow_right (by decide) (by omega)
    rw [Nat.max_eq_left (by omega)]
    exact iff_of_true (classClosed_of_dvd 0 divides) fun low => absurd low raised

/-- A reach is at most 32 bits, at whatever width the mask is cut off. -/
theorem reach_le (F : FingerprintBits) (occupancy exponent : Nat) :
    reach F occupancy exponent ≤ 32 := by
  unfold reach
  split <;> omega

/-- Cutting a mask off at 64 bits leaves its reach alone. -/
theorem reach_min (F : FingerprintBits) (occupancy exponent : Nat) :
    reach F occupancy (min exponent 64) = reach F occupancy exponent := by
  have same : min (min exponent 64) 32 = min exponent 32 := by omega
  rw [reach, reach, same]

/-- The bucket count is a multiple of every power of two that an offset can reach: of 2048 where
the range of class 0 is below 2048, and of the reach of the ranges of the other classes. -/
def RangesDivide (F : FingerprintBits) (loadTest : LoadTest) (requestedBuckets : Nat) : Prop :=
  (properExponent loadTest requestedBuckets 0 ≤ 10 →
    2 ^ 11 ∣ exactBucketCount loadTest requestedBuckets) ∧
  2 ^ reach F 1 (properExponent loadTest (exactBucketCount loadTest requestedBuckets) 1) ∣
    exactBucketCount loadTest requestedBuckets ∧
  2 ^ reach F 2 (properExponent loadTest (exactBucketCount loadTest requestedBuckets) 2) ∣
    exactBucketCount loadTest requestedBuckets ∧
  2 ^ reach F 3 (properExponent loadTest (exactBucketCount loadTest requestedBuckets) 3 + 1) ∣
    exactBucketCount loadTest requestedBuckets

/-- Four masks keep a table closed when each keeps its class in it. -/
theorem tableClosed_masks_iff (F : FingerprintBits) (bucketCount : Nat) (masks : Vector Nat 4) :
    TableClosed F (sized F bucketCount masks) ↔ ClassClosed F bucketCount 0 (masks.get 0) ∧
      ClassClosed F bucketCount 1 (masks.get 1) ∧ ClassClosed F bucketCount 2 (masks.get 2) ∧
      ClassClosed F bucketCount 3 (masks.get 3) := by
  rw [tableClosed_iff]
  constructor
  · intro closed
    exact ⟨closed 0, closed 1, closed 2, closed 3⟩
  · intro closed occupancy
    match occupancy with
    | 0 => exact closed.1
    | 1 => exact closed.2.1
    | 2 => exact closed.2.2.1
    | 3 => exact closed.2.2.2

/-- Where the rounded request is `2 ^ 64`, every power of two an offset can reach divides it. -/
theorem rangesDivide_of_wrapped
    (wrapped : exactBucketCount loadTest requestedBuckets = 2 ^ 64) :
    RangesDivide F loadTest requestedBuckets := by
  have narrow : ∀ occupancy exponent, 2 ^ reach F occupancy exponent ∣ 2 ^ 64 :=
    fun occupancy exponent =>
      pow_dvd_pow 2 (le_trans (reach_le F occupancy exponent) (by decide))
  unfold RangesDivide
  rw [wrapped]
  exact ⟨fun _ => pow_dvd_pow 2 (by decide), narrow _ _, narrow _ _, narrow _ _⟩

/-- From 10000 requested buckets on the table is closed exactly when the ranges divide it. -/
theorem tableClosed_many_iff (word : requestedBuckets < 2 ^ 64) (many : 10000 ≤ requestedBuckets)
    (built : initializeLayout F loadTest allocates requestedBuckets = some (.ok members)) :
    TableClosed F members ↔ RangesDivide F loadTest requestedBuckets := by
  obtain ⟨limit, masks, rfl, shape⟩ := initializeLayout_many word many built
  cases lt_or_eq_of_le limit with
  | inl fits =>
    obtain ⟨base, first, second, third⟩ := shape fits
    have least := three_le_properExponent loadTest (exactBucketCount loadTest requestedBuckets)
    have divides := dvd_exactBucketCount loadTest requestedBuckets
    rw [alignmentExponent_many loadTest many] at divides
    have capped : 3 ≤
        min (properExponent loadTest (exactBucketCount loadTest requestedBuckets) 3 + 1) 64 :=
      le_min (le_trans (least 3) (Nat.le_succ _)) (by decide)
    rw [Nat.mod_eq_of_lt fits, tableClosed_masks_iff, base, first, second, third,
      classClosed_base_iff F divides, classClosed_iff F _ 1 (least 1),
      classClosed_iff F _ 2 (least 2), classClosed_iff F _ 3 capped, reach_min]
    exact Iff.rfl
  | inr wrapped =>
    -- no bucket is left
    have empty : TableClosed F
        (sized F (exactBucketCount loadTest requestedBuckets % 2 ^ 64) masks) := by
      intro position inside
      rw [wrapped] at inside
      exact absurd inside (Nat.not_lt_zero _)
    exact iff_of_true empty (rangesDivide_of_wrapped wrapped)

/-- For every number of requested buckets and every load test, the layout keeps candidate buckets
in the table exactly below 10000 requested buckets or where the ranges divide the bucket count. -/
theorem initializeLayout_closed_iff (F : FingerprintBits) (loadTest : LoadTest)
    (allocates : Nat → Nat → Bool) (requestedBuckets : Nat) (members : LayoutMembers)
    (positive : 1 ≤ requestedBuckets) (word : requestedBuckets < 2 ^ 64)
    (built : initializeLayout F loadTest allocates requestedBuckets = some (.ok members)) :
    TableClosed F members ↔
      requestedBuckets < 10000 ∨ RangesDivide F loadTest requestedBuckets := by
  by_cases few : requestedBuckets < 10000
  · exact iff_of_true (tableClosed_few positive few built) (.inl few)
  · rw [tableClosed_many_iff word (not_lt.mp few) built, or_iff_right few]

/-- A load test that passes from a range of each class on. -/
def thresholdTest (base first second third : Nat) : LoadTest := fun _ occupancyClass range =>
  decide ((match occupancyClass with
    | 0 => base
    | 1 => first
    | 2 => second
    | _ => third) ≤ range)

/-- With a base range of 2048 the table of 10000 requested buckets is closed. -/
theorem initializeLayout_closed_ten_thousand :
    TableClosed indexBits (sized indexBits 10240 #v[2047, 1023, 511, 511]) := by
  have base : properExponent (thresholdTest 2048 1024 512 256) 10000 0 = 11 :=
    (properExponent_eq_iff _ _ _ _).mpr (by decide)
  have first : properExponent (thresholdTest 2048 1024 512 256) 10240 1 = 10 :=
    (properExponent_eq_iff _ _ _ _).mpr (by decide)
  have second : properExponent (thresholdTest 2048 1024 512 256) 10240 2 = 9 :=
    (properExponent_eq_iff _ _ _ _).mpr (by decide)
  have third : properExponent (thresholdTest 2048 1024 512 256) 10240 3 = 8 :=
    (properExponent_eq_iff _ _ _ _).mpr (by decide)
  have count : exactBucketCount (thresholdTest 2048 1024 512 256) 10000 = 10240 := by
    rw [exactBucketCount, alignmentExponent_many _ le_rfl, base]
    rfl
  apply (initializeLayout_closed_iff indexBits (thresholdTest 2048 1024 512 256)
    (fun _ _ => true) 10000 _ (by decide) (by decide) rfl).mpr
  right
  rw [RangesDivide, count, base, first, second, third]
  decide

/-- At 21429 requested buckets, those of 60000 items at a target load of 0.7, the mask of class 0
is 1024 in a table of 21440 buckets, which position 20480 leaves. -/
theorem initializeLayout_leaves_table :
    initializeLayout indexBits (thresholdTest 64 32 16 8) (fun _ _ => true) 21429 =
        some (.ok (sized indexBits 21440 #v[1024, 31, 15, 15])) ∧
      ¬ TableClosed indexBits (sized indexBits 21440 #v[1024, 31, 15, 15]) := by
  refine ⟨rfl, fun closed => ?_⟩
  have moved := closed 20480 (by decide) 1024#43
  revert moved
  decide

end Vlse.Filter
