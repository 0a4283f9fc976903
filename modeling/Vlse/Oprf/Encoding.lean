import Vlse.Foundation.ByteBits
import Vlse.Filter.Insert
import Vlse.Oprf.Group
/-!
# Fixed-width encodings

`FromBigEndian` reads a byte string as a number, most significant byte first. `ToBigEndian` writes
a field element into as many bytes as the modulus needs and refuses anything else. Each inverts
the other, and the bits of a number are those of its bytes.
-/

namespace Vlse.Oprf

open ByteBits Vlse.Filter

/-- `OprfOutput`: a group element in its fixed-width encoding. -/
abbrev OprfOutput := Bytes groupElementBytes

/-- `FromBigEndian`. -/
def fromBigEndian {length : Nat} (input : Bytes length) : Nat :=
  input.toList.foldl (fun value byte => (value <<< 8) + byte.toNat) 0

/-- The loop of `ToBigEndian`, which fills the last byte first: the bytes written with what is
left of the value. -/
def storeBigEndian : (length : Nat) → Nat → Bytes length × Nat
  | 0, value => (#v[], value)
  | length + 1, value =>
    let rest := storeBigEndian length (value >>> 8)
    (rest.1.push (BitVec.ofNat 8 (value &&& 0xff)), rest.2)

/-- `ToBigEndian`. -/
def toBigEndian (parameters : PublicParameters) (input : Int) : Except Fault OprfOutput :=
  if input < 0 ∨ parameters.modulus ≤ input then
    .error (.invalidArgument "group element is outside the field")
  else
    let stored := storeBigEndian groupElementBytes input.toNat
    if stored.2 ≠ 0 then .error (.logicError "group element does not fit fixed encoding")
    else .ok stored.1

/-- A further byte is the least significant one. -/
theorem fromBigEndian_push {length : Nat} (input : Bytes length) (byte : Byte) :
    fromBigEndian (input.push byte) = fromBigEndian input * 256 + byte.toNat := by
  unfold fromBigEndian
  rw [Vector.toList_push, List.foldl_append, List.foldl_cons, List.foldl_nil, Nat.shiftLeft_eq]

/-- The bytes written and what is left of a value make up the value. -/
theorem fromBigEndian_storeBigEndian (length value : Nat) :
    (storeBigEndian length value).2 * 256 ^ length +
      fromBigEndian (storeBigEndian length value).1 = value := by
  induction length generalizing value with
  | zero => simp [storeBigEndian, fromBigEndian]
  | succ length ih =>
    have upper := ih (value >>> 8)
    have lower : (BitVec.ofNat 8 (value &&& 0xff)).toNat = value % 256 := by
      rw [BitVec.toNat_ofNat, show 0xff = 2 ^ 8 - 1 from rfl, Nat.and_two_pow_sub_one_eq_mod,
        Nat.mod_mod]
    rw [storeBigEndian, fromBigEndian_push, lower, pow_succ, ← Nat.mul_assoc, ← Nat.add_assoc,
      ← Nat.add_mul, upper, Nat.shiftRight_eq_div_pow]
    omega

/-- A value that fits is written whole, and reading the bytes gives it back. -/
theorem storeBigEndian_of_lt {length value : Nat} (fits : value < 256 ^ length) :
    (storeBigEndian length value).2 = 0 ∧
      fromBigEndian (storeBigEndian length value).1 = value := by
  have whole := fromBigEndian_storeBigEndian length value
  have nothingLeft : (storeBigEndian length value).2 = 0 := by
    by_contra more
    have large := Nat.le_mul_of_pos_left (256 ^ length) (Nat.pos_of_ne_zero more)
    omega
  rw [nothingLeft, Nat.zero_mul, Nat.zero_add] at whole
  exact ⟨nothingLeft, whole⟩

/-- A field element below a modulus that fits is encoded, and reading the encoding gives it back. -/
theorem exists_toBigEndian {parameters : PublicParameters}
    (fits : parameters.modulus ≤ 256 ^ groupElementBytes) {value : Nat}
    (below : value < parameters.modulus) :
    ∃ output, toBigEndian parameters value = .ok output ∧ fromBigEndian output = value := by
  obtain ⟨nothingLeft, whole⟩ := storeBigEndian_of_lt (below.trans_le fits)
  refine ⟨(storeBigEndian groupElementBytes value).1, ?_, whole⟩
  rw [toBigEndian, if_neg (by omega)]
  dsimp only
  rw [Int.toNat_natCast, if_neg (not_not.mpr nothingLeft)]

/-- A field element is encoded, and reading the encoding gives it back. -/
theorem toBigEndian_ok (group : PrimeGroup) {value : Nat} (below : value < group.modulus) :
    ∃ output, toBigEndian group.toPublicParameters value = .ok output ∧
      fromBigEndian output = value :=
  exists_toBigEndian group.fits.le below

/-! ## The bits of an encoding -/

/-- A byte of an extended string is the new one at the end and an old one before it. -/
theorem byteAt_push {length : Nat} (input : Bytes length) (byte : Byte) (index : Nat) :
    byteAt (input.push byte) index = if index = length then byte else byteAt input index := by
  unfold byteAt
  rw [Vector.getElem?_push]
  split
  · rfl
  · rfl

/-- The bits of a big-endian number are those of its bytes, the last byte lowest. -/
theorem testBit_fromBigEndian {length : Nat} (input : Bytes length) (bit : Nat) :
    (fromBigEndian input).testBit bit =
      (decide (bit < 8 * length) && (byteAt input (length - 1 - bit / 8)).getLsbD (bit % 8)) := by
  induction length generalizing bit with
  | zero =>
    have nothing : input = #v[] := Vector.eq_empty
    have empty : fromBigEndian input = 0 := by
      rw [nothing]
      rfl
    rw [empty, Nat.zero_testBit]
    rfl
  | succ length ih =>
    have whole : ∃ (earlier : Bytes length) (last : Byte), input = earlier.push last :=
      ⟨input.pop, input.back, (Vector.push_pop_back input).symm⟩
    obtain ⟨earlier, last, rfl⟩ := whole
    rw [fromBigEndian_push, Nat.mul_comm, show 256 = 2 ^ 8 from rfl,
      Nat.testBit_two_pow_mul_add _ last.isLt, byteAt_push]
    by_cases low : bit < 8
    · have here : length + 1 - 1 - bit / 8 = length := by omega
      have inside : bit < 8 * (length + 1) := by omega
      rw [if_pos low, if_pos here, BitVec.testBit_toNat, Nat.mod_eq_of_lt low]
      simp [inside]
    · rw [if_neg low, ih earlier (bit - 8)]
      by_cases inside : bit < 8 * (length + 1)
      · have before : bit - 8 < 8 * length := by omega
        have there : length + 1 - 1 - bit / 8 ≠ length := by omega
        have place : length - 1 - (bit - 8) / 8 = length + 1 - 1 - bit / 8 := by omega
        have offset : (bit - 8) % 8 = bit % 8 := by omega
        rw [if_neg there, place, offset]
        simp [inside, before]
      · have beyond : ¬ bit - 8 < 8 * length := by omega
        simp [inside, beyond]

/-- Different strings are read as different numbers. -/
theorem fromBigEndian_injective {length : Nat} {left right : Bytes length}
    (same : fromBigEndian left = fromBigEndian right) : left = right := by
  apply ext_bits
  intro position inside
  -- the bit at a position of the string is a bit of the number, counted from its other end
  have bits := congrArg (fun value => value.testBit
    (8 * (length - 1 - position / 8) + position % 8)) same
  have below : 8 * (length - 1 - position / 8) + position % 8 < 8 * length := by omega
  have byte : (8 * (length - 1 - position / 8) + position % 8) / 8 = length - 1 - position / 8 := by
    omega
  have offset : (8 * (length - 1 - position / 8) + position % 8) % 8 = position % 8 := by omega
  have back : length - 1 - (length - 1 - position / 8) = position / 8 := by omega
  simp only [testBit_fromBigEndian, below, byte, offset, back, decide_true, Bool.true_and] at bits
  exact bits

/-- Writing what was read from an encoding gives the encoding back. -/
theorem toBigEndian_fromBigEndian {parameters : PublicParameters}
    (fits : parameters.modulus ≤ 256 ^ groupElementBytes) (input : OprfOutput)
    (below : fromBigEndian input < parameters.modulus) :
    toBigEndian parameters (fromBigEndian input) = .ok input := by
  obtain ⟨output, encoded, read⟩ := exists_toBigEndian fits below
  rw [encoded, fromBigEndian_injective read]

end Vlse.Oprf
