import Mathlib.Data.Nat.Log
import Vlse.Filter.InitializeLayout
/-!
# The ranges of a layout

What `InitializeLayout` computes, in unbounded arithmetic: the alignment and the ranges are powers
of two, the masks are one less, and the bucket count is the request rounded up to the alignment. A
word wraps to zero exactly where the exact value is `2 ^ 64`.
-/

namespace Vlse.Filter

/-! ## Powers of two -/

/-- `RoundUp` on unbounded numbers. -/
def exactRoundUp (value alignment : Nat) : Nat := (value + alignment - 1) / alignment * alignment

/-- Some power of two from 8 on reaches the buckets. -/
theorem exists_properExponent (loadTest : LoadTest) (bucketCount occupancyClass : Nat) :
    ∃ exponent, 3 ≤ exponent ∧ (bucketCount ≤ 2 ^ exponent ∨
      loadTest bucketCount occupancyClass (2 ^ exponent) = true) := by
  have reached : bucketCount + 3 < 2 ^ (bucketCount + 3) := Nat.lt_two_pow_self
  exact ⟨bucketCount + 3, by omega, .inl (by omega)⟩

/-- The exponent of the least power of two from 8 on that reaches the buckets or passes the load
test. -/
def properExponent (loadTest : LoadTest) (bucketCount occupancyClass : Nat) : Nat :=
  Nat.find (exists_properExponent loadTest bucketCount occupancyClass)

/-- What makes an exponent the proper one. -/
theorem properExponent_eq_iff (loadTest : LoadTest) (bucketCount occupancyClass exponent : Nat) :
    properExponent loadTest bucketCount occupancyClass = exponent ↔
      (3 ≤ exponent ∧ (bucketCount ≤ 2 ^ exponent ∨
        loadTest bucketCount occupancyClass (2 ^ exponent) = true)) ∧
      ∀ earlier < exponent, ¬ (3 ≤ earlier ∧ (bucketCount ≤ 2 ^ earlier ∨
        loadTest bucketCount occupancyClass (2 ^ earlier) = true)) :=
  Nat.find_eq_iff _

/-- The least range is 8. -/
theorem three_le_properExponent (loadTest : LoadTest) (bucketCount occupancyClass : Nat) :
    3 ≤ properExponent loadTest bucketCount occupancyClass :=
  (Nat.find_spec (exists_properExponent loadTest bucketCount occupancyClass)).1

/-- Doubling a word shifts a power of two along, to zero at the 64th place. -/
theorem iterate_double (start count : Nat) :
    (fun range => range * 2 % 2 ^ 64)^[count] (2 ^ start % 2 ^ 64) =
      2 ^ (count + start) % 2 ^ 64 := by
  induction count with
  | zero => rw [Function.iterate_zero_apply, Nat.zero_add]
  | succ count ih =>
    rw [Function.iterate_succ_apply', ih, Nat.mod_mul_mod, ← pow_succ, Nat.add_right_comm]

/-- A power of two from the 64th on is zero in a word. -/
theorem two_pow_mod_of_le {exponent : Nat} (high : 64 ≤ exponent) :
    2 ^ exponent % 2 ^ 64 = 0 :=
  Nat.mod_eq_zero_of_dvd (pow_dvd_pow 2 high)

/-- A power of two below the 64th is itself in a word. -/
theorem two_pow_mod_of_lt {exponent : Nat} (low : exponent < 64) :
    2 ^ exponent % 2 ^ 64 = 2 ^ exponent :=
  Nat.mod_eq_of_lt (Nat.pow_lt_pow_right (by decide) low)

/-- `UpperPowerOfTwo` returns the least power of two that reaches the value. -/
theorem upperPowerOfTwo_eq {value result : Nat} (returned : upperPowerOfTwo value = some result)
    (positive : 0 < value) : result = 2 ^ Nat.clog 2 value ∧ Nat.clog 2 value < 64 := by
  obtain ⟨count, below, hit, failed⟩ := search_eq_some_first returned
  have iterated : ∀ turn, (fun result => result * 2 % 2 ^ 64)^[turn] 1 = 2 ^ turn % 2 ^ 64 :=
    iterate_double 0
  rw [iterated, Option.ite_none_left_eq_some] at hit
  have low : count < 64 := by
    by_contra high
    rw [two_pow_mod_of_le (not_lt.mp high)] at hit
    exact hit.1 positive
  rw [two_pow_mod_of_lt low] at hit
  have least : Nat.clog 2 value = count := by
    apply le_antisymm (Nat.clog_le_of_le_pow (not_lt.mp hit.1))
    by_contra earlier
    have short := failed _ (not_le.mp earlier)
    rw [iterated, two_pow_mod_of_lt (by omega),
      if_neg (not_lt.mpr (Nat.le_pow_clog Nat.one_lt_two value))] at short
    contradiction
  rw [least]
  exact ⟨(Option.some.inj hit.2).symm, low⟩

/-- Where no shorter range passes the load test, the first power that reaches the buckets is the
proper range. -/
theorem properExponent_eq_clog {loadTest : LoadTest} {bucketCount occupancyClass : Nat}
    (many : 8 < bucketCount)
    (refused : ∀ earlier < Nat.clog 2 bucketCount, 3 ≤ earlier →
      ¬ loadTest bucketCount occupancyClass (2 ^ earlier) = true) :
    properExponent loadTest bucketCount occupancyClass = Nat.clog 2 bucketCount := by
  have wide : 3 < Nat.clog 2 bucketCount := (Nat.lt_clog_iff_pow_lt Nat.one_lt_two).mpr many
  rw [properExponent_eq_iff]
  refine ⟨⟨wide.le, .inl (Nat.le_pow_clog Nat.one_lt_two _)⟩, fun earlier before proper => ?_⟩
  cases proper.2 with
  | inl reached => exact not_lt.mpr reached (Nat.pow_lt_of_lt_clog before)
  | inr passed => exact refused earlier before proper.1 passed

/-- The turns of `ProperAlternateRange` before its last one found a range that falls short of the
buckets and fails the load test. -/
theorem properAlternateRange_turns {loadTest : LoadTest} {bucketCount occupancyClass count : Nat}
    (below : count < 62)
    (failed : ∀ turn < count,
      (if 2 ^ (turn + 3) % 2 ^ 64 < bucketCount then
        if loadTest bucketCount occupancyClass (2 ^ (turn + 3) % 2 ^ 64) then
          some (some (2 ^ (turn + 3) % 2 ^ 64)) else none
      else some none) = none) :
    ∀ earlier < count + 3, 3 ≤ earlier → 2 ^ earlier < bucketCount ∧
      ¬ loadTest bucketCount occupancyClass (2 ^ earlier) = true := by
  intro earlier before wide
  have turn := failed (earlier - 3) (by omega)
  rw [Nat.sub_add_cancel wide, two_pow_mod_of_lt (by omega)] at turn
  split at turn
  · rename_i short
    refine ⟨short, fun passed => ?_⟩
    rw [if_pos passed] at turn
    contradiction
  · contradiction

/-- A range that passes the load test after the shorter ones failed is the proper one, also when
its power of two has wrapped to zero. -/
theorem properExponent_of_passed {loadTest : LoadTest}
    {bucketCount occupancyClass exponent : Nat} (word : bucketCount < 2 ^ 64)
    (wide : 3 ≤ exponent)
    (before : ∀ earlier < exponent, 3 ≤ earlier → 2 ^ earlier < bucketCount ∧
      ¬ loadTest bucketCount occupancyClass (2 ^ earlier) = true)
    (passed : loadTest bucketCount occupancyClass (2 ^ exponent % 2 ^ 64) = true) :
    properExponent loadTest bucketCount occupancyClass = exponent := by
  rw [properExponent_eq_iff]
  refine ⟨⟨wide, ?_⟩, fun earlier early proper => ?_⟩
  · by_cases low : exponent < 64
    · rw [two_pow_mod_of_lt low] at passed
      exact .inr passed
    · exact .inl (le_trans word.le (Nat.pow_le_pow_right (by decide) (not_lt.mp low)))
  · have turn := before earlier early proper.1
    exact proper.2.elim (not_le.mpr turn.1) turn.2

/-- `ProperAlternateRange` returns the range of the proper exponent, as a word. -/
theorem properAlternateRange_eq {loadTest : LoadTest} {bucketCount occupancyClass range : Nat}
    (word : bucketCount < 2 ^ 64) (many : 8 < bucketCount)
    (returned : properAlternateRange loadTest bucketCount occupancyClass = some range) :
    range = 2 ^ properExponent loadTest bucketCount occupancyClass % 2 ^ 64 ∧
      properExponent loadTest bucketCount occupancyClass ≤ 64 := by
  obtain ⟨found, searched, after⟩ := Option.bind_eq_some_iff.mp returned
  obtain ⟨count, below, hit, failed⟩ := search_eq_some_first searched
  have iterated : ∀ turn, (fun range => range * 2 % 2 ^ 64)^[turn] 8 = 2 ^ (turn + 3) % 2 ^ 64 :=
    iterate_double 3
  simp only [iterated] at hit failed
  have before := properAlternateRange_turns below failed
  split at hit
  · split at hit
    · rename_i passed
      cases Option.some.inj hit
      cases Option.some.inj after
      rw [properExponent_of_passed word (by omega) before passed]
      exact ⟨rfl, by omega⟩
    · contradiction
  · rename_i reached
    cases Option.some.inj hit
    have low : count + 3 < 64 := by
      by_contra high
      rw [two_pow_mod_of_le (not_lt.mp high)] at reached
      omega
    rw [two_pow_mod_of_lt low] at reached
    obtain ⟨rfl, small⟩ := upperPowerOfTwo_eq after (by omega)
    have first : Nat.clog 2 bucketCount ≤ count + 3 := Nat.clog_le_of_le_pow (not_lt.mp reached)
    rw [properExponent_eq_clog many fun earlier early wide =>
      (before earlier (by omega) wide).2, two_pow_mod_of_lt small]
    exact ⟨rfl, small.le⟩

/-- The round-up reaches the value. -/
theorem le_exactRoundUp {value alignment : Nat} (positive : 0 < alignment) :
    value ≤ exactRoundUp value alignment := by
  have whole := Nat.div_add_mod (value + alignment - 1) alignment
  have rest := Nat.mod_lt (value + alignment - 1) positive
  rw [Nat.mul_comm] at whole
  unfold exactRoundUp
  omega

/-- `RoundUp` to a power of two is the exact round-up as a word, which wraps only at `2 ^ 64`. -/
theorem roundUp_eq {value exponent count : Nat} (word : value < 2 ^ 64) (low : exponent < 64)
    (returned : roundUp value (2 ^ exponent) = some count) :
    count = exactRoundUp value (2 ^ exponent) % 2 ^ 64 ∧
      exactRoundUp value (2 ^ exponent) ≤ 2 ^ 64 := by
  have positive := Nat.two_pow_pos exponent
  rw [roundUp, if_neg positive.ne'] at returned
  rw [← Option.some.inj returned, exactRoundUp]
  by_cases fits : value + 2 ^ exponent - 1 < 2 ^ 64
  · rw [Nat.mod_eq_of_lt fits]
    exact ⟨rfl, le_trans (Nat.div_mul_le_self _ _) fits.le⟩
  · -- the sum wraps to less than the alignment, so the quotient is zero
    have power : 2 ^ 64 = 2 ^ (64 - exponent) * 2 ^ exponent := by
      rw [← pow_add, Nat.sub_add_cancel low.le]
    have wrapped : (value + 2 ^ exponent - 1) % 2 ^ 64 < 2 ^ exponent := by
      have order : 2 ^ exponent < 2 ^ 64 := Nat.pow_lt_pow_right (by decide) low
      omega
    have quotient : (value + 2 ^ exponent - 1) / 2 ^ exponent = 2 ^ (64 - exponent) := by
      apply Nat.div_eq_of_lt_le
      · rw [← power]
        exact not_lt.mp fits
      · rw [Nat.succ_mul, ← power]
        omega
    rw [Nat.div_eq_of_lt wrapped, quotient, ← power]
    exact ⟨by simp, le_rfl⟩

/-- A power of two less one, as a word, also when the power itself wraps to zero. -/
theorem minusOne_two_pow {exponent : Nat} (low : exponent ≤ 64) :
    minusOne (2 ^ exponent % 2 ^ 64) = 2 ^ exponent - 1 := by
  unfold minusOne
  cases lt_or_eq_of_le low with
  | inl below =>
    have order : 2 ^ exponent < 2 ^ 64 := Nat.pow_lt_pow_right (by decide) below
    have positive := Nat.two_pow_pos exponent
    rw [Nat.mod_eq_of_lt order]
    omega
  | inr wrapped =>
    subst wrapped
    rfl

/-- The mask of a class is its proper range less one. -/
theorem properAlternateRange_mask {loadTest : LoadTest} {bucketCount occupancyClass range : Nat}
    (word : bucketCount < 2 ^ 64) (many : 8 < bucketCount)
    (returned : properAlternateRange loadTest bucketCount occupancyClass = some range) :
    minusOne range = 2 ^ properExponent loadTest bucketCount occupancyClass - 1 := by
  obtain ⟨range_eq, bound⟩ := properAlternateRange_eq word many returned
  rw [range_eq]
  exact minusOne_two_pow bound

/-- The doubled mask is a power of two less one, of at most 64 bits. -/
theorem doubleMask_eq {exponent : Nat} (low : exponent ≤ 64) :
    doubleMask (2 ^ exponent - 1) = 2 ^ min (exponent + 1) 64 - 1 := by
  rw [doubleMask, Nat.sub_add_cancel (Nat.two_pow_pos exponent), ← pow_succ]
  cases lt_or_eq_of_le low with
  | inl below =>
    rw [Nat.min_eq_left below]
    exact minusOne_two_pow below
  | inr wrapped =>
    subst wrapped
    rfl

/-! ## The layout -/

variable {F : FingerprintBits} {loadTest : LoadTest} {allocates : Nat → Nat → Bool}
  {requestedBuckets : Nat} {members : LayoutMembers}

/-- The masks of the four classes. -/
theorem get_masks (base first second third : Nat) :
    (#v[base, first, second, third]).get 0 = base ∧
      (#v[base, first, second, third]).get 1 = first ∧
      (#v[base, first, second, third]).get 2 = second ∧
      (#v[base, first, second, third]).get 3 = third :=
  ⟨rfl, rfl, rfl, rfl⟩

/-- An allocation that succeeds leaves the members alone. -/
theorem allocate_ok {sizes : LayoutMembers} (allocated : allocate allocates sizes = .ok members) :
    members = sizes := by
  unfold allocate at allocated
  split at allocated
  · exact (Except.ok.inj allocated).symm
  · contradiction

/-- The exponent of the power of two the request is rounded up to. -/
def alignmentExponent (loadTest : LoadTest) (requestedBuckets : Nat) : Nat :=
  if requestedBuckets < 10000 then
    if requestedBuckets < 256 then Nat.clog 2 requestedBuckets
    else Nat.clog 2 ((requestedBuckets + 3) / 4)
  else properExponent loadTest requestedBuckets 0

/-- The bucket count in unbounded arithmetic. -/
def exactBucketCount (loadTest : LoadTest) (requestedBuckets : Nat) : Nat :=
  exactRoundUp requestedBuckets (2 ^ alignmentExponent loadTest requestedBuckets)

/-- The alignment divides the bucket count. -/
theorem dvd_exactBucketCount (loadTest : LoadTest) (requestedBuckets : Nat) :
    2 ^ alignmentExponent loadTest requestedBuckets ∣ exactBucketCount loadTest requestedBuckets :=
  Nat.dvd_mul_left _ _

/-- The bucket count reaches the request. -/
theorem le_exactBucketCount (loadTest : LoadTest) (requestedBuckets : Nat) :
    requestedBuckets ≤ exactBucketCount loadTest requestedBuckets :=
  le_exactRoundUp (Nat.two_pow_pos _)

/-- Below 10000 requested buckets the alignment is at most 4096. -/
theorem alignmentExponent_few (loadTest : LoadTest) (few : requestedBuckets < 10000) :
    alignmentExponent loadTest requestedBuckets ≤ 12 := by
  rw [alignmentExponent, if_pos few]
  split
  · exact Nat.clog_le_of_le_pow (by omega)
  · exact Nat.clog_le_of_le_pow (by omega)

/-- Below 10000 requested buckets the bucket count has 14 bits. -/
theorem exactBucketCount_few (loadTest : LoadTest) (few : requestedBuckets < 10000) :
    exactBucketCount loadTest requestedBuckets < 2 ^ 14 := by
  have bounded := Nat.div_mul_le_self
    (requestedBuckets + 2 ^ alignmentExponent loadTest requestedBuckets - 1)
    (2 ^ alignmentExponent loadTest requestedBuckets)
  have order : 2 ^ alignmentExponent loadTest requestedBuckets ≤ 2 ^ 12 :=
    Nat.pow_le_pow_right (by decide) (alignmentExponent_few loadTest few)
  rw [exactBucketCount, exactRoundUp]
  omega

/-- The segment is the alignment below 10000 requested buckets. -/
theorem segment_eq (loadTest : LoadTest) {result : Nat} (positive : 1 ≤ requestedBuckets)
    (few : requestedBuckets < 10000) (returned : segment requestedBuckets = some result) :
    result = 2 ^ alignmentExponent loadTest requestedBuckets := by
  rw [alignmentExponent, if_pos few]
  unfold segment at returned
  split at returned
  · rename_i small
    rw [if_pos small]
    exact (upperPowerOfTwo_eq returned positive).1
  · rename_i large
    rw [if_neg large]
    exact (upperPowerOfTwo_eq returned (by omega)).1

/-- Below 10000 requested buckets nothing wraps and every mask is the alignment less one. -/
theorem initializeLayout_few (positive : 1 ≤ requestedBuckets) (few : requestedBuckets < 10000)
    (built : initializeLayout F loadTest allocates requestedBuckets = some (.ok members)) :
    members = sized F (exactBucketCount loadTest requestedBuckets)
      (Vector.replicate 4 (2 ^ alignmentExponent loadTest requestedBuckets - 1)) := by
  rw [initializeLayout, if_pos few] at built
  obtain ⟨range, segmented, rest⟩ := Option.bind_eq_some_iff.mp built
  obtain ⟨bucketCount, rounded, tail⟩ := Option.bind_eq_some_iff.mp rest
  have low := alignmentExponent_few loadTest few
  rw [segment_eq loadTest positive few segmented] at rounded tail
  have count := (roundUp_eq (by omega) (by omega) rounded).1
  have small := exactBucketCount_few loadTest few
  rw [← exactBucketCount, Nat.mod_eq_of_lt (by omega)] at count
  have mask := minusOne_two_pow (show alignmentExponent loadTest requestedBuckets ≤ 64 by omega)
  rw [two_pow_mod_of_lt (by omega)] at mask
  have members_eq := allocate_ok (Option.some.inj tail)
  rw [count, mask] at members_eq
  exact members_eq

/-- From 10000 requested buckets on the alignment is the range of class 0. -/
theorem alignmentExponent_many (loadTest : LoadTest) (many : 10000 ≤ requestedBuckets) :
    alignmentExponent loadTest requestedBuckets = properExponent loadTest requestedBuckets 0 :=
  if_neg (not_lt.mpr many)

/-- From 10000 requested buckets on the bucket count is the rounded request as a word. Unless it
wraps, the masks are one less than powers of two, the first one at least 1024. -/
theorem initializeLayout_many (word : requestedBuckets < 2 ^ 64) (many : 10000 ≤ requestedBuckets)
    (built : initializeLayout F loadTest allocates requestedBuckets = some (.ok members)) :
    exactBucketCount loadTest requestedBuckets ≤ 2 ^ 64 ∧ ∃ masks, members =
        sized F (exactBucketCount loadTest requestedBuckets % 2 ^ 64) masks ∧
      (exactBucketCount loadTest requestedBuckets < 2 ^ 64 →
        masks.get 0 = max (2 ^ properExponent loadTest requestedBuckets 0 - 1) 1024 ∧
        masks.get 1 =
          2 ^ properExponent loadTest (exactBucketCount loadTest requestedBuckets) 1 - 1 ∧
        masks.get 2 =
          2 ^ properExponent loadTest (exactBucketCount loadTest requestedBuckets) 2 - 1 ∧
        masks.get 3 = 2 ^
          min (properExponent loadTest (exactBucketCount loadTest requestedBuckets) 3 + 1) 64
            - 1) := by
  rw [initializeLayout, if_neg (not_lt.mpr many)] at built
  obtain ⟨baseRange, base, rest⟩ := Option.bind_eq_some_iff.mp built
  obtain ⟨bucketCount, rounded, ranged⟩ := Option.bind_eq_some_iff.mp rest
  obtain ⟨firstRange, first, afterFirst⟩ := Option.bind_eq_some_iff.mp ranged
  obtain ⟨secondRange, second, afterSecond⟩ := Option.bind_eq_some_iff.mp afterFirst
  obtain ⟨thirdRange, third, tail⟩ := Option.bind_eq_some_iff.mp afterSecond
  obtain ⟨baseRange_eq, bound⟩ := properAlternateRange_eq word (by omega) base
  have low : properExponent loadTest requestedBuckets 0 < 64 := by
    by_contra high
    -- a base range that wraps to zero divides by zero
    rw [baseRange_eq, two_pow_mod_of_le (not_lt.mp high), roundUp, if_pos rfl] at rounded
    contradiction
  rw [baseRange_eq, two_pow_mod_of_lt low] at rounded
  obtain ⟨count, limit⟩ := roundUp_eq word low rounded
  rw [← alignmentExponent_many loadTest many, ← exactBucketCount] at count limit
  refine ⟨limit, _, by rw [← count]; exact allocate_ok (Option.some.inj tail), fun fits => ?_⟩
  rw [Nat.mod_eq_of_lt fits] at count
  have enough := le_exactBucketCount loadTest requestedBuckets
  have above : 8 < exactBucketCount loadTest requestedBuckets := by omega
  rw [count] at first second third
  have thirdMask := doubleMask_eq (properAlternateRange_eq fits above third).2
  rw [← properAlternateRange_mask fits above third] at thirdMask
  obtain ⟨baseMask, firstMask, secondMask, lastMask⟩ := get_masks (max (minusOne baseRange) 1024)
    (minusOne firstRange) (minusOne secondRange) (doubleMask (minusOne thirdRange))
  rw [baseMask, firstMask, secondMask, lastMask,
    properAlternateRange_mask word (by omega) base]
  exact ⟨rfl, properAlternateRange_mask fits above first,
    properAlternateRange_mask fits above second, thirdMask⟩

end Vlse.Filter
