import Mathlib.Data.FinEnum
import Vlse.Filter.Refinement
import Vlse.Foundation.Draws
/-!
# False positives

`Contains` says true for a token only where the fingerprint that `Metadata` computes first is zero,
so that it is rehashed, or is one of those stored. The hash function of the filter decides for how
many tokens that is so: where it takes few words to one, few tokens fold, hash and mask to one
fingerprint. So there are at most as many false positives as stored entries, and one for the zero,
each with its share of all tokens.
-/

namespace Vlse.Filter

open Finset

variable {F : FingerprintBits} {P : Type*} {layout : Layout F}

/-! ## Tokens with one fingerprint -/

/-- How many words there are. -/
theorem card_word (width : Nat) : Fintype.card (BitVec width) = 2 ^ width := by
  rw [← FinEnum.card_eq_fintypeCard, FinEnum.card_bitVec]

/-- The fingerprint `Metadata` keeps unless it is zero. -/
def firstFingerprint (config : Config F) (token : Token128) : Fingerprint F :=
  maskFingerprint F (config.murmurHash64
    (hashToken128 config.murmurHash64 token config.hashSeed ^^^ 0x192837319273#64))

/-- Masking keeps the low bits. -/
theorem maskFingerprint_eq_setWidth (word : Word) :
    maskFingerprint F word = word.setWidth F.bits := by
  have upper := F.upper
  ext bit below
  simp only [maskFingerprint, fingerprintMask, BitVec.getElem_setWidth, BitVec.getLsbD_and,
    BitVec.getLsbD_ushiftRight, BitVec.getLsbD_allOnes]
  rw [decide_eq_true (by omega), Bool.and_true]

/-- Words that mask alike differ in their high bits. -/
theorem fewToOne_maskFingerprint (F : FingerprintBits) :
    FewToOne (2 ^ (64 - F.bits)) (maskFingerprint F) := by
  have few := FewToOne.of_injOn (f := maskFingerprint F)
    (fun word : Word => word.extractLsb' F.bits (64 - F.bits)) fun first second low high => ?_
  · rwa [card_word] at few
  · rw [maskFingerprint_eq_setWidth, maskFingerprint_eq_setWidth] at low
    apply BitVec.eq_of_getLsbD_eq
    intro bit below
    by_cases inMask : bit < F.bits
    · have same := congrArg (fun word => word.getLsbD bit) low
      simpa only [BitVec.getLsbD_setWidth, inMask, decide_true, Bool.true_and] using same
    · have same := congrArg (fun word => word.getLsbD (bit - F.bits)) high
      have inWord : bit - F.bits < 64 - F.bits := by omega
      have place : F.bits + (bit - F.bits) = bit := by omega
      simpa only [BitVec.getLsbD_extractLsb', inWord, decide_true, Bool.true_and, place] using same

/-- Tokens that fold alike differ in their low halves. -/
theorem fewToOne_foldToken : FewToOne (2 ^ 64) foldToken := by
  have few := FewToOne.of_injOn (f := foldToken) (fun token => token.setWidth 64)
    fun first second folded low => ?_
  · rwa [card_word] at few
  · have low : first.setWidth 64 = second.setWidth 64 := low
    rw [foldToken, foldToken, low, BitVec.xor_left_inj] at folded
    apply BitVec.eq_of_getLsbD_eq
    intro bit below
    by_cases inLow : bit < 64
    · have same := congrArg (fun word => word.getLsbD bit) low
      simpa only [BitVec.getLsbD_setWidth, inLow, decide_true, Bool.true_and] using same
    · have same := congrArg (fun word => word.getLsbD (bit - 64)) folded
      have inHigh : bit - 64 < 64 := by omega
      have place : 64 + (bit - 64) = bit := by omega
      simpa only [BitVec.getLsbD_setWidth, BitVec.getLsbD_ushiftRight, inHigh, decide_true,
        Bool.true_and, place] using same

/-- Exclusive or with a word loses nothing. -/
theorem fewToOne_xor (mask : Word) : FewToOne 1 fun word : Word => word ^^^ mask :=
  .of_injective fun _ _ same => (BitVec.xor_left_inj mask).mp same

/-- The tokens with one first fingerprint, by the words the hash function takes to one. -/
theorem fewToOne_firstFingerprint {config : Config F} {preimages : Nat}
    (spread : FewToOne preimages config.murmurHash64) :
    FewToOne (2 ^ 64 * preimages ^ 2 * 2 ^ (64 - F.bits)) (firstFingerprint config) := by
  have hashed := spread.comp ((fewToOne_xor (config.murmurHash64 config.hashSeed)).comp
    fewToOne_foldToken)
  have masked := (fewToOne_maskFingerprint F).comp
    (spread.comp ((fewToOne_xor 0x192837319273#64).comp hashed))
  rw [Nat.mul_one, Nat.mul_one, Nat.mul_assoc (2 ^ 64), ← Nat.pow_two] at masked
  exact masked

/-! ## Stored fingerprints -/

/-- The fingerprints with an entry. -/
def heldFingerprints (held : Multiset (Home layout × P)) : Finset (Fingerprint F) :=
  (held.map fun item => item.1.1).toFinset

/-- There are no more of them than entries. -/
theorem card_heldFingerprints_le (held : Multiset (Home layout × P)) :
    (heldFingerprints held).card ≤ held.card := by
  have bounded := Multiset.toFinset_card_le (held.map fun item => item.1.1)
  rwa [Multiset.card_map] at bounded

/-- A match in a bucket is an entry with its fingerprint. -/
theorem mem_heldFingerprints_of_bucketMatches {store : Store F layout.bucketCount P}
    {position : Fin layout.bucketCount} {fingerprint : Fingerprint F} (genuine : fingerprint ≠ 0)
    (matched : bucketMatches store position fingerprint ≠ []) :
    fingerprint ∈ heldFingerprints (contents layout store) := by
  have some : (bucketMatches store position fingerprint : Multiset P) ≠ 0 :=
    fun none => matched ((Multiset.coe_eq_zero _).mp none)
  rw [coe_bucketMatches store position genuine] at some
  obtain ⟨payload, listed⟩ := Multiset.exists_mem_of_ne_zero some
  obtain ⟨record, inside, -⟩ := Multiset.mem_map.mp listed
  obtain ⟨resident, rfl⟩ := Multiset.mem_filter.mp inside
  rw [heldFingerprints, Multiset.mem_toFinset, contents, spread]
  refine Multiset.mem_map.mpr ⟨entry layout position record, ?_, rfl⟩
  exact Multiset.mem_sum.mpr ⟨position, mem_univ position, Multiset.mem_map_of_mem _ resident⟩

/-- The fingerprint of a token that `Contains` finds is stored. -/
theorem mem_heldFingerprints_of_tokenMatches {metadata : KeyMetadata layout}
    {store : Store F layout.bucketCount P} (genuine : metadata.fingerprint ≠ 0)
    (matched : tokenMatches metadata store ≠ []) :
    metadata.fingerprint ∈ heldFingerprints (contents layout store) := by
  rw [tokenMatches, Ne, List.append_eq_nil_iff, not_and_or] at matched
  rcases matched with first | second
  · exact mem_heldFingerprints_of_bucketMatches genuine first
  · split at second
    · exact mem_heldFingerprints_of_bucketMatches genuine second
    · contradiction

/-! ## The answer -/

/-- The fingerprint of a token is the first one computed, unless that is zero. -/
theorem firstFingerprint_eq {config : Config F} {token : Token128}
    {metadata : KeyMetadata config.layout} (derived : config.metadata token = some metadata) :
    firstFingerprint config token = 0 ∨ firstFingerprint config token = metadata.fingerprint := by
  obtain ⟨fingerprint, found, rfl⟩ := Option.map_eq_some_iff.mp derived
  obtain ⟨count, -, hit, earlier⟩ := search_eq_some_first found
  cases count with
  | zero =>
    right
    rw [Function.iterate_zero_apply, Config.nonzeroFingerprint] at hit
    split at hit
    · contradiction
    · exact Option.some.inj hit
  | succ count =>
    left
    have failed := earlier 0 (Nat.succ_pos count)
    rw [Function.iterate_zero_apply, Config.nonzeroFingerprint] at failed
    split at failed
    · assumption
    · contradiction

/-- `Contains` says true only where the first fingerprint is zero or stored. -/
theorem firstFingerprint_mem {config : Config F} {state : State F config.layout.bucketCount P}
    {token : Token128} (found : contains config token state = some true) :
    firstFingerprint config token ∈
      {0} ∪ heldFingerprints (contents config.layout state.store) := by
  rw [contains_eq] at found
  obtain ⟨metadata, derived, answered⟩ := Option.map_eq_some_iff.mp found
  have genuine := Config.metadata_fingerprint derived
  have stored := mem_heldFingerprints_of_tokenMatches genuine (of_decide_eq_true answered)
  rcases firstFingerprint_eq derived with zero | same
  · exact mem_union_left _ (mem_singleton.mpr zero)
  · exact mem_union_right _ (same ▸ stored)

/-- After any calls on a new filter, `Contains` says true for at most the share of the stored
entries and one more among the fingerprints, by the words the hash function takes to one. -/
theorem falsePositive_le [Inhabited P] {config : Config F} {randomEngine : RandomEngine}
    {log : List (BagCall Token128 P × BagAnswer (Fingerprint F) P Fault)}
    {state : State F config.layout.bucketCount P} {preimages : Nat}
    (spread : FewToOne preimages config.murmurHash64)
    (run : (filterComponent config).Run (construct config.layout randomEngine) log state) :
    #{token : Token128 | contains config token state = some true} * 2 ^ F.bits ≤
      preimages ^ 2 * (state.filledSlots + 1) * 2 ^ 128 := by
  obtain ⟨bag, -, stands⟩ :=
    (filter_refines_bag config).run run (standsFor_construct config randomEngine)
  have few : (heldFingerprints (contents config.layout state.store)).card ≤ state.filledSlots := by
    rw [stands.account.counted, ← stands.account.contents]
    exact card_heldFingerprints_le _
  have answers : ({0} ∪ heldFingerprints (contents config.layout state.store)).card ≤
      state.filledSlots + 1 := by
    refine (card_union_le _ _).trans ?_
    rw [card_singleton, Nat.add_comm]
    exact Nat.add_le_add_right few 1
  have positives : #{token : Token128 | contains config token state = some true} ≤
      2 ^ 64 * preimages ^ 2 * 2 ^ (64 - F.bits) * (state.filledSlots + 1) := by
    refine le_trans (card_le_card fun token listed => ?_)
      (((fewToOne_firstFingerprint spread).card_mem_le _).trans (Nat.mul_le_mul_left _ answers))
    exact mem_filter.mpr ⟨mem_univ _, firstFingerprint_mem (mem_filter.mp listed).2⟩
  have words : 2 ^ (64 - F.bits) * 2 ^ F.bits = 2 ^ 64 := by
    rw [← Nat.pow_add, Nat.sub_add_cancel F.upper]
  calc #{token : Token128 | contains config token state = some true} * 2 ^ F.bits
      ≤ 2 ^ 64 * preimages ^ 2 * 2 ^ (64 - F.bits) * (state.filledSlots + 1) * 2 ^ F.bits :=
        Nat.mul_le_mul_right _ positives
    _ = preimages ^ 2 * (state.filledSlots + 1) * 2 ^ 64 * (2 ^ (64 - F.bits) * 2 ^ F.bits) := by
        ring
    _ = preimages ^ 2 * (state.filledSlots + 1) * 2 ^ 128 := by
        rw [words, Nat.mul_assoc, ← Nat.pow_add]

/-- A hash function that mixes a word by shifts and odd factors. -/
def mixWord (word : Word) : Word :=
  let first := (word ^^^ word >>> 33) * 0xff51afd7ed558ccd#64
  let second := (first ^^^ first >>> 33) * 0xc4ceb9fe1a85ec53#64
  second ^^^ second >>> 33

/-- A shift by more than half of a word is undone by doing it again. -/
theorem xor_shift_injective : Function.Injective fun word : Word => word ^^^ word >>> 33 := by
  apply Function.LeftInverse.injective (g := fun word : Word => word ^^^ word >>> 33)
  intro word
  have gone : word >>> 33 >>> 33 = 0#64 := by
    rw [← BitVec.shiftRight_add]
    exact BitVec.ushiftRight_eq_zero (by decide)
  dsimp only
  rw [BitVec.ushiftRight_xor_distrib, gone, BitVec.xor_zero, BitVec.xor_assoc, BitVec.xor_self,
    BitVec.xor_zero]

/-- A factor with an inverse is undone by it. -/
theorem mul_factor_injective (factor inverse : Word) (unit : factor * inverse = 1#64) :
    Function.Injective fun word : Word => word * factor := by
  apply Function.LeftInverse.injective (g := fun word : Word => word * inverse)
  intro word
  dsimp only
  rw [BitVec.mul_assoc, unit, BitVec.mul_one]

/-- Mixing takes no two words to one. -/
theorem mixWord_injective : Function.Injective mixWord := by
  have first := mul_factor_injective 0xff51afd7ed558ccd 0x4f74430c22a54005 (by decide)
  have second := mul_factor_injective 0xc4ceb9fe1a85ec53 0x9cb4b2f8129337db (by decide)
  exact xor_shift_injective.comp (second.comp (xor_shift_injective.comp
    (first.comp xor_shift_injective)))

/-- A filter for one item that hashes so. -/
def mixedConfig : Config indexBits where
  layout := .single indexBits
  murmurHash64 := mixWord
  hashSeed := 0x6a09e667f3bcc909#64
  maximumEvictions := 500

/-- It with nothing stored. -/
def mixedState : State indexBits mixedConfig.layout.bucketCount Nat :=
  construct mixedConfig.layout countingEngine

/-- It takes two records. -/
theorem filledSlots_mixedState :
    (insert mixedConfig 9 8 (insert mixedConfig 5 7 mixedState).2).2.filledSlots = 2 := by
  decide +kernel

/-- After two records and a lookup between them, few tokens are found. -/
theorem falsePositive_le_mixed :
    #{token : Token128 | contains mixedConfig token
        (insert mixedConfig 9 8 (insert mixedConfig 5 7 mixedState).2).2 = some true} * 2 ^ 43 ≤
      3 * 2 ^ 128 := by
  have first := FilterStep.insert mixedState 5 7
  have between := FilterStep.queryAll (insert mixedConfig 5 7 mixedState).2 9
  have second := FilterStep.insert (insert mixedConfig 5 7 mixedState).2 9 8
  have bounded := falsePositive_le (.of_injective mixWord_injective)
    (.cons first (.cons between (.cons second (.nil _))))
  have width : indexBits.bits = 43 := rfl
  rw [filledSlots_mixedState, width] at bounded
  omega

end Vlse.Filter
