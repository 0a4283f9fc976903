import Vlse.Lse.Cuckoo
import Vlse.Protocol.Derivation
/-!
# The low end of an encoding

Two places of the LSE benchmark take sixteen bytes out of an encoded group element: the label key is
a copy of the last bytes, and a table position hashes the same bytes in the opposite order. Read in
their own directions both are the low 128 bits of the element.
-/

namespace Vlse.Lse

open ByteBits Oprf Protocol

/-- Read as a big-endian number, the label key is the low 128 bits of the encoded number. -/
theorem fromBigEndian_lseAesKey (output : OprfOutput) :
    fromBigEndian (lseAesKey output) = fromBigEndian output % 2 ^ 128 := by
  apply Nat.eq_of_testBit_eq
  intro bit
  rw [Nat.testBit_mod_two_pow, testBit_fromBigEndian, testBit_fromBigEndian]
  by_cases low : bit < 128
  · have place : 16 - 1 - bit / 8 < 16 := by omega
    have whole : bit < 8 * groupElementBytes := by
      unfold groupElementBytes
      omega
    have source :
        groupElementBytes - 16 + (16 - 1 - bit / 8) = groupElementBytes - 1 - bit / 8 := by
      unfold groupElementBytes
      omega
    simp [lseAesKey, byteAt, place, source, low, whole]
  · simp [low]

/-- Read as a little-endian number, so are the bytes that are hashed to a position. -/
theorem load_low128LittleEndian (output : OprfOutput) :
    (load 128 (low128LittleEndian output) 0 16).toNat = fromBigEndian output % 2 ^ 128 := by
  apply Nat.eq_of_testBit_eq
  intro bit
  rw [Nat.testBit_mod_two_pow, BitVec.testBit_toNat, getLsbD_load _ 0 16 bit (by decide),
    testBit_fromBigEndian]
  by_cases low : bit < 128
  · have place : bit / 8 < 16 := by omega
    have whole : bit < 8 * groupElementBytes := by
      unfold groupElementBytes
      omega
    simp [low128LittleEndian, bitAt, byteAt, place, low, whole]
  · simp [low]

/-- The fixed-width encodings agree, for every modulus below `2 ^ 3072`: a field element is encoded,
is read back from its encoding, and its low 128 bits are both the label key read in big-endian order
and the hashed bytes read in little-endian order; an encoding of a field element is what writing
that element gives. -/
theorem encodings_agree (parameters : PublicParameters) (fits : parameters.modulus < 2 ^ 3072) :
    (∀ value : Int, 0 ≤ value → value < parameters.modulus →
      ∃ output, toBigEndian parameters value = .ok output ∧
        (fromBigEndian output : Int) = value ∧
        (fromBigEndian (lseAesKey output) : Int) = value % 2 ^ 128 ∧
        ((load 128 (low128LittleEndian output) 0 16).toNat : Int) = value % 2 ^ 128) ∧
      ∀ output : OprfOutput, fromBigEndian output < parameters.modulus →
        toBigEndian parameters (fromBigEndian output) = .ok output := by
  have width : parameters.modulus ≤ 256 ^ groupElementBytes := by
    have exponent : 8 * groupElementBytes = 3072 := rfl
    rw [show 256 = 2 ^ 8 from rfl, ← pow_mul, exponent]
    exact fits.le
  constructor
  · intro value nonnegative below
    lift value to Nat using nonnegative
    obtain ⟨output, encoded, read⟩ := exists_toBigEndian width (Int.ofNat_lt.mp below)
    refine ⟨output, encoded, congrArg _ read, ?_, ?_⟩
    · rw [fromBigEndian_lseAesKey, read]
      rfl
    · rw [load_low128LittleEndian, read]
      rfl
  · intro output below
    exact toBigEndian_fromBigEndian width output below

/-- A field element of two bytes keeps them at the far end of its encoding. -/
theorem encodings_agree_small :
    ∃ output, toBigEndian ⟨2579, 1289, 4⟩ 513 = .ok output ∧ (fromBigEndian output : Int) = 513 ∧
      (fromBigEndian (lseAesKey output) : Int) = 513 % 2 ^ 128 ∧
      ((load 128 (low128LittleEndian output) 0 16).toNat : Int) = 513 % 2 ^ 128 :=
  (encodings_agree ⟨2579, 1289, 4⟩ ((by decide : 2579 < 2 ^ 12).trans
    (pow_lt_pow_right₀ one_lt_two (by decide)))).1 513 (by decide) (by decide)

end Vlse.Lse
