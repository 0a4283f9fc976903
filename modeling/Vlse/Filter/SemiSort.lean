import Mathlib.Data.List.Nodup
import Mathlib.Tactic.IntervalCases
import Vlse.Foundation.Numbering
/-!
# The semi-sort codec

The high nibbles of the four fingerprints of a bucket are stored as one 12-bit code. The
constructor of `SemiSortCodec` numbers the nonincreasing nibble quadruples in the order of its
four loops; this module shows that the numbering is a bijection between those quadruples and the
codes below 3876, and that every other code reads as the quadruple of an empty bucket.
-/

namespace Vlse.Filter

/-- Four nibbles packed into 16 bits, the first one highest. -/
def packNibbles (i j k l : Nat) : Nat := (i <<< 12) ||| (j <<< 8) ||| (k <<< 4) ||| l

/-- The trip count of an inner loop below an outer value, as the source writes it. -/
def loopBound (outer : Nat) : Nat := if outer = 0 then 1 else outer + 1

/-- The values of `plain` in the order of the four loops. -/
def plainNibbles : List Nat :=
  (List.range 16).flatMap fun i =>
    (List.range (loopBound i)).flatMap fun j =>
      (List.range (loopBound j)).flatMap fun k =>
        (List.range (loopBound k)).map fun l => packNibbles i j k l

/-- The value-initialized tables the constructor of `SemiSortCodec` starts from. -/
def zeroTables : Numbering Nat := ⟨fun _ => 0, fun _ => 0, 0⟩

/-- `SemiSortCodec`: the tables the constructor fills, both zero where it does not assign. -/
def semiSortCodec : Numbering Nat := zeroTables.assignAll plainNibbles

/-- `Codec().encode`. -/
def encodeNibbles (plain : Nat) : Nat := semiSortCodec.encode plain

/-- `Codec().decode`. -/
def decodeNibbles (code : Nat) : Nat := semiSortCodec.decode code

/-- Four nibbles in nonincreasing order. -/
structure SortedNibbles (i j k l : Nat) : Prop where
  first : i < 16
  second : j ≤ i
  third : k ≤ j
  fourth : l ≤ k

/-- Both branches of the trip count agree. -/
@[simp] theorem loopBound_eq (outer : Nat) : loopBound outer = outer + 1 := by
  unfold loopBound
  split <;> omega

/-- Packing is positional in base 16. -/
theorem packNibbles_eq (i j k l : Nat) (hj : j < 16) (hk : k < 16) (hl : l < 16) :
    packNibbles i j k l = 4096 * i + 256 * j + 16 * k + l := by
  unfold packNibbles
  rw [← Nat.shiftLeft_add_eq_or_of_lt (show j <<< 8 < 2 ^ 12 by rw [Nat.shiftLeft_eq]; omega),
    Nat.or_assoc, ← Nat.shiftLeft_add_eq_or_of_lt (show l < 2 ^ 4 by omega)]
  have low : k <<< 4 + l < 2 ^ 8 := by rw [Nat.shiftLeft_eq]; omega
  rw [show i <<< 12 + j <<< 8 = (16 * i + j) <<< 8 by simp only [Nat.shiftLeft_eq]; omega,
    ← Nat.shiftLeft_add_eq_or_of_lt low]
  simp only [Nat.shiftLeft_eq]
  omega

/-- The loops visit the nonincreasing quadruples. -/
theorem mem_plainNibbles (plain : Nat) :
    plain ∈ plainNibbles ↔ ∃ i j k l, SortedNibbles i j k l ∧ plain = packNibbles i j k l := by
  simp only [plainNibbles, List.mem_flatMap, List.mem_map, List.mem_range, loopBound_eq]
  constructor
  · rintro ⟨i, hi, j, hj, k, hk, l, hl, rfl⟩
    exact ⟨i, j, k, l, ⟨hi, by omega, by omega, by omega⟩, rfl⟩
  · rintro ⟨i, j, k, l, sorted, rfl⟩
    exact ⟨i, sorted.first, j, Nat.lt_succ_of_le sorted.second, k,
      Nat.lt_succ_of_le sorted.third, l, Nat.lt_succ_of_le sorted.fourth, rfl⟩

/-- The loops visit no quadruple twice: each digit of a value tells the trip of its loop. -/
theorem plainNibbles_nodup : plainNibbles.Nodup := by
  unfold plainNibbles
  simp only [loopBound_eq]
  refine nodup_flatMap_of_key (· / 4096) List.nodup_range (fun i hi => ?_) (fun i hi plain => ?_)
  · refine nodup_flatMap_of_key (· / 256 % 16) List.nodup_range (fun j hj => ?_)
      (fun j hj plain => ?_)
    · refine nodup_flatMap_of_key (· / 16 % 16) List.nodup_range (fun k hk => ?_)
        (fun k hk plain => ?_)
      · refine List.Nodup.map_on (fun l hl l' hl' same => ?_) List.nodup_range
        rw [List.mem_range] at hi hj hk hl hl'
        rw [packNibbles_eq _ _ _ _ (by omega) (by omega) (by omega),
          packNibbles_eq _ _ _ _ (by omega) (by omega) (by omega)] at same
        omega
      · simp only [List.mem_map, List.mem_range] at hi hj hk ⊢
        rintro ⟨l, hl, rfl⟩
        rw [packNibbles_eq _ _ _ _ (by omega) (by omega) (by omega)]
        omega
    · simp only [List.mem_flatMap, List.mem_map, List.mem_range] at hi hj ⊢
      rintro ⟨k, hk, l, hl, rfl⟩
      rw [packNibbles_eq _ _ _ _ (by omega) (by omega) (by omega)]
      omega
  · simp only [List.mem_flatMap, List.mem_map, List.mem_range] at hi ⊢
    rintro ⟨j, hj, k, hk, l, hl, rfl⟩
    rw [packNibbles_eq _ _ _ _ (by omega) (by omega) (by omega)]
    omega

/-- There are 3876 quadruples, so the constructor's own check passes. -/
theorem plainNibbles_length : plainNibbles.length = 3876 := by
  simp only [plainNibbles, loopBound_eq, List.length_flatMap, List.length_map, List.length_range]
  decide +kernel

/-- The quadruple at an index has that index as its code. -/
theorem encodeNibbles_getElem (index : Nat) (inside : index < plainNibbles.length) :
    encodeNibbles plainNibbles[index] = index := by
  rw [encodeNibbles, semiSortCodec, Numbering.assignAll_encode _ _ plainNibbles_nodup index inside]
  exact Nat.zero_add index

/-- The code at an index decodes to the quadruple there. -/
theorem decodeNibbles_getElem (index : Nat) (inside : index < plainNibbles.length) :
    decodeNibbles index = plainNibbles[index] := by
  rw [decodeNibbles, semiSortCodec, ← Numbering.assignAll_decode plainNibbles zeroTables index
    inside, show zeroTables.next + index = index from Nat.zero_add index]

/-- Codes the constructor does not assign decode to four zero nibbles. -/
theorem decodeNibbles_unassigned (code : Nat) (large : 3876 ≤ code) : decodeNibbles code = 0 := by
  rw [decodeNibbles, semiSortCodec, Numbering.assignAll_decode_outside, zeroTables]
  exact .inr (by rw [plainNibbles_length]; simpa [zeroTables] using large)

/-- A nonincreasing quadruple gets an assigned code, and that code decodes to it. -/
theorem decodeNibbles_encodeNibbles {i j k l : Nat} (sorted : SortedNibbles i j k l) :
    encodeNibbles (packNibbles i j k l) < 3876 ∧
      decodeNibbles (encodeNibbles (packNibbles i j k l)) = packNibbles i j k l := by
  obtain ⟨index, inside, placed⟩ :=
    List.getElem_of_mem ((mem_plainNibbles _).mpr ⟨i, j, k, l, sorted, rfl⟩)
  rw [← placed, encodeNibbles_getElem index inside, decodeNibbles_getElem index inside,
    ← plainNibbles_length]
  exact ⟨inside, rfl⟩

/-- An assigned code is the code of the nonincreasing quadruple it decodes to. -/
theorem encodeNibbles_decodeNibbles (code : Nat) (assigned : code < 3876) :
    encodeNibbles (decodeNibbles code) = code ∧
      ∃ i j k l, SortedNibbles i j k l ∧ decodeNibbles code = packNibbles i j k l := by
  rw [← plainNibbles_length] at assigned
  rw [decodeNibbles_getElem code assigned]
  exact ⟨encodeNibbles_getElem code assigned,
    (mem_plainNibbles _).mp (List.getElem_mem assigned)⟩

/-- Whatever is stored, a code decodes to a nonincreasing quadruple. -/
theorem decodeNibbles_sorted (code : Nat) :
    ∃ i j k l, SortedNibbles i j k l ∧ decodeNibbles code = packNibbles i j k l := by
  by_cases assigned : code < 3876
  · exact (encodeNibbles_decodeNibbles code assigned).2
  · exact ⟨0, 0, 0, 0, ⟨by decide, le_rfl, le_rfl, le_rfl⟩,
      decodeNibbles_unassigned code (by omega)⟩

/-- The nibble of a packed quadruple at a place counted from the low end. -/
def nibbleAt (plain place : Nat) : Nat := (plain >>> (place * 4)) &&& 0xF

/-- A nibble is a digit in base 16. -/
theorem nibbleAt_eq (plain place : Nat) : nibbleAt plain place = plain / 16 ^ place % 16 := by
  unfold nibbleAt
  rw [Nat.shiftRight_eq_div_pow, Nat.mul_comm, Nat.pow_mul]
  exact Nat.and_two_pow_sub_one_eq_mod _ 4

/-- The four nibbles of a packed quadruple. -/
theorem nibbleAt_packNibbles {i j k l : Nat} (hi : i < 16) (hj : j < 16) (hk : k < 16)
    (hl : l < 16) :
    nibbleAt (packNibbles i j k l) 3 = i ∧ nibbleAt (packNibbles i j k l) 2 = j ∧
      nibbleAt (packNibbles i j k l) 1 = k ∧ nibbleAt (packNibbles i j k l) 0 = l := by
  simp only [nibbleAt_eq, packNibbles_eq i j k l hj hk hl]
  omega

end Vlse.Filter
