import Mathlib.Data.FinEnum
import Vlse.Filter.Alternate
import Vlse.Foundation.Rejection
/-!
# The mass of fingerprints

`Metadata` rehashes a zero fingerprint instead of mapping it to another one. When the hash function
is uniformly random, its fingerprint of an element is as likely to be one nonzero word as another.
-/

namespace Vlse.Filter

variable {F : FingerprintBits}

/-- Masking takes exclusive or with a fingerprint to that of fingerprints. -/
theorem maskFingerprint_xor (word : Word) (fingerprint : Fingerprint F) :
    maskFingerprint F (word ^^^ fingerprint.setWidth 64) =
      maskFingerprint F word ^^^ fingerprint := by
  have upper := F.upper
  ext bit below
  simp only [maskFingerprint, fingerprintMask, BitVec.getElem_setWidth, BitVec.getLsbD_and,
    BitVec.getLsbD_xor, BitVec.getLsbD_ushiftRight, BitVec.getLsbD_allOnes,
    BitVec.getLsbD_setWidth, BitVec.getElem_xor]
  have inMask : decide (64 - F.bits + bit < 64) = true := decide_eq_true (by omega)
  have inWord : decide (bit < 64) = true := decide_eq_true (by omega)
  rw [inMask, inWord, Bool.and_true, Bool.and_true, Bool.true_and, BitVec.getLsbD_eq_getElem below]

/-- Exchange two fingerprints in a word. -/
def exchangeFingerprints (left right : Fingerprint F) (word : Word) : Word :=
  word ^^^ (Equiv.swap left right (maskFingerprint F word) ^^^ maskFingerprint F word).setWidth 64

/-- The word then masks to the other one. -/
theorem maskFingerprint_exchange (left right : Fingerprint F) (word : Word) :
    maskFingerprint F (exchangeFingerprints left right word) =
      Equiv.swap left right (maskFingerprint F word) := by
  rw [exchangeFingerprints, maskFingerprint_xor, BitVec.xor_comm _ (maskFingerprint F word),
    ← BitVec.xor_assoc, BitVec.xor_self, BitVec.zero_xor]

/-- Exchanging twice changes nothing. -/
theorem exchangeFingerprints_twice (left right : Fingerprint F) (word : Word) :
    exchangeFingerprints left right (exchangeFingerprints left right word) = word := by
  have masked := maskFingerprint_exchange left right word
  have unfolded : exchangeFingerprints left right (exchangeFingerprints left right word) =
      exchangeFingerprints left right word ^^^
        (maskFingerprint F word ^^^
          Equiv.swap left right (maskFingerprint F word)).setWidth 64 := by
    rw [exchangeFingerprints, masked, Equiv.swap_apply_self]
  rw [unfolded, exchangeFingerprints, BitVec.xor_comm (maskFingerprint F word), BitVec.xor_assoc,
    BitVec.xor_self, BitVec.xor_zero]

/-- A word that masks to neither stays as it is. -/
theorem exchangeFingerprints_of_ne {left right : Fingerprint F} {word : Word}
    (notLeft : maskFingerprint F word ≠ left) (notRight : maskFingerprint F word ≠ right) :
    exchangeFingerprints left right word = word := by
  rw [exchangeFingerprints, Equiv.swap_apply_of_ne_of_ne notLeft notRight, BitVec.xor_self,
    BitVec.setWidth_zero, BitVec.xor_zero]

/-- Exchange two fingerprints in the words a hash function returns. -/
def exchangeHash (left right : Fingerprint F) : (Word → Word) ≃ (Word → Word) where
  toFun murmurHash64 := exchangeFingerprints left right ∘ murmurHash64
  invFun murmurHash64 := exchangeFingerprints left right ∘ murmurHash64
  left_inv _ := funext fun _ => exchangeFingerprints_twice left right _
  right_inv _ := funext fun _ => exchangeFingerprints_twice left right _

/-- The fingerprint of an element under an exchanged hash function is the exchanged fingerprint:
the rehash loop goes through the same words. -/
theorem fingerprintOf_exchangeHash (config : Config F) (element : Word) {left right : Fingerprint F}
    (leftGenuine : left ≠ 0) (rightGenuine : right ≠ 0) :
    { config with
        murmurHash64 := exchangeHash left right config.murmurHash64 }.fingerprintOf element =
      (config.fingerprintOf element).map (Equiv.swap left right) := by
  have loops := @search_rename _ _ config.rehash Config.nonzeroFingerprint
    (exchangeFingerprints left right) (Equiv.swap left right)
  apply loops
  · intro word
    have fixed : Equiv.swap left right 0 = 0 :=
      Equiv.swap_apply_of_ne_of_ne leftGenuine.symm rightGenuine.symm
    have sentinel : Equiv.swap left right (maskFingerprint F word) = 0 ↔
        maskFingerprint F word = 0 := by
      rw [Equiv.swap_apply_eq_iff, fixed]
    simp only [Config.nonzeroFingerprint, maskFingerprint_exchange, sentinel]
    split
    · rfl
    · rfl
  · intro word failed
    have zero : maskFingerprint F word = 0 := by
      by_contra genuine
      rw [Config.nonzeroFingerprint, if_neg genuine] at failed
      contradiction
    exact exchangeFingerprints_of_ne (zero ▸ leftGenuine.symm) (zero ▸ rightGenuine.symm)

/-- The law of the fingerprint of an element under a uniformly random hash function, none when the
rehash loop never ends. -/
noncomputable def fingerprintLaw (config : Config F) (element : Word) :
    PMF (Option (Fingerprint F)) :=
  (PMF.uniformOfFintype (Word → Word)).map fun murmurHash64 =>
    { config with murmurHash64 }.fingerprintOf element

/-- All nonzero fingerprints of an element have the same mass. -/
theorem fingerprintLaw_exchange (config : Config F) (element : Word) {left right : Fingerprint F}
    (leftGenuine : left ≠ 0) (rightGenuine : right ≠ 0) :
    fingerprintLaw config element (some left) = fingerprintLaw config element (some right) := by
  refine map_uniformOfFintype_apply_eq (exchangeHash left right) fun murmurHash64 => ?_
  have renamed := fingerprintOf_exchangeHash { config with murmurHash64 } element leftGenuine
    rightGenuine
  rw [renamed]
  cases ({ config with murmurHash64 } : Config F).fingerprintOf element with
  | none => simp
  | some fingerprint =>
    rw [Option.map_some, Option.some.injEq, Option.some.injEq, Equiv.swap_apply_eq_iff,
      Equiv.swap_apply_left]

/-- The empty-slot sentinel has none. -/
theorem fingerprintLaw_zero (config : Config F) (element : Word) :
    fingerprintLaw config element (some 0) = 0 := by
  rw [PMF.apply_eq_zero_iff, fingerprintLaw, PMF.mem_support_map_iff]
  rintro ⟨murmurHash64, -, found⟩
  exact Config.fingerprintOf_ne_zero found rfl

/-- All nonzero fingerprints of an element have the same mass, and the empty-slot sentinel has
none. -/
theorem fingerprintLaw_uniform (config : Config F) (element : Word) :
    (∀ left right : Fingerprint F, left ≠ 0 → right ≠ 0 →
      fingerprintLaw config element (some left) = fingerprintLaw config element (some right)) ∧
    fingerprintLaw config element (some 0) = 0 :=
  ⟨fun _ _ left right => fingerprintLaw_exchange config element left right,
    fingerprintLaw_zero config element⟩

end Vlse.Filter
