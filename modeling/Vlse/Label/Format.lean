import Vlse.Filter.Alternate
import Vlse.Foundation.ByteBits
/-!
# Label bytes

The fixed formats of a label: the nonce is the one-based component position in big-endian order,
the associated data is a domain, the epoch, the token and the component index in little-endian
order, and the plaintext block holds a version, the valid flag, six zero bytes and the document.
-/

namespace Vlse.Label

open ByteBits Vlse.Filter

/-- `AeadKey128`. -/
abbrev AeadKey128 := Bytes 16

/-- `kNonceBytes`. -/
abbrev Nonce := Bytes 12

/-- `kPlaintextBytes`. -/
abbrev Plaintext := Bytes 16

/-- The associated data of a label. -/
abbrev AssociatedData := Bytes 43

/-- `MakeComponentNonce`: `nonce[12 - 1 - index]` is byte `index` of the one-based position. -/
def makeComponentNonce (componentIndex : BitVec 32) : Nonce :=
  let position := componentIndex.setWidth 64 + 1#64
  Vector.ofFn fun place : Fin 12 =>
    let index := 12 - 1 - place.val
    if index < 8 then (position >>> (8 * index)).setWidth 8 else 0

/-- `StoreLittleEndian64` at an offset of a byte string. -/
def storeLittleEndian64 {length : Nat} (output : Bytes length) (offset : Nat) (value : Word) :
    Bytes length :=
  store output offset value 8

/-- `StoreLittleEndian32` at an offset of a byte string. -/
def storeLittleEndian32 {length : Nat} (output : Bytes length) (offset : Nat)
    (value : BitVec 32) : Bytes length :=
  store output offset value 4

/-- `LoadLittleEndian64` at an offset of a byte string. -/
def loadLittleEndian64 {length : Nat} (input : Bytes length) (offset : Nat) : Word :=
  load 64 input offset 8

/-- `kDomain`. -/
def labelDomain : List Byte := literalBytes "VLSE-label-v1!!"

/-- `MakeAssociatedData`. -/
def makeAssociatedData (epoch : Word) (token : Token128) (componentIndex : BitVec 32) :
    AssociatedData :=
  let aad : AssociatedData := Vector.ofFn fun place => labelDomain.getD place.val 0
  let aad := storeLittleEndian64 aad 15 epoch
  let aad := store aad 23 token 16
  storeLittleEndian32 aad 39 componentIndex

/-- The plaintext block of `EncryptLabel`. -/
def labelPlaintext (valid : Bool) (documentIdentifier : Word) : Plaintext :=
  let plaintext : Plaintext := Vector.replicate 16 0
  let plaintext := plaintext.setIfInBounds 0 1
  let plaintext := plaintext.setIfInBounds 1 (if valid then 1 else 0)
  storeLittleEndian64 plaintext 8 documentIdentifier

/-- A byte of the one-based position in the nonce. -/
theorem byteAt_makeComponentNonce (componentIndex : BitVec 32) (index : Nat) (low : index < 8) :
    byteAt (makeComponentNonce componentIndex) (12 - 1 - index) =
      ((componentIndex.setWidth 64 + 1#64) >>> (8 * index)).setWidth 8 := by
  have inside : 12 - 1 - index < 12 := by omega
  have place : 12 - 1 - (12 - 1 - index) = index := by omega
  simp only [byteAt, makeComponentNonce, Vector.getElem?_ofFn, inside, dif_pos, place, low, if_true,
    Option.getD_some]

/-- Different components have different nonces. -/
theorem makeComponentNonce_injective : Function.Injective makeComponentNonce := by
  intro left right same
  have positions : left.setWidth 64 + 1#64 = right.setWidth 64 + 1#64 := by
    apply BitVec.eq_of_getLsbD_eq
    intro bit below
    have bytes := congrArg (fun nonce => (byteAt nonce (12 - 1 - bit / 8)).getLsbD (bit % 8)) same
    simp only [byteAt_makeComponentNonce _ _ (show bit / 8 < 8 by omega), BitVec.getLsbD_setWidth,
      BitVec.getLsbD_ushiftRight, Nat.mod_lt bit (show 0 < 8 by decide), decide_true,
      Bool.true_and, Nat.div_add_mod] at bytes
    exact bytes
  have values := congrArg BitVec.toNat positions
  have leftSmall := left.isLt
  have rightSmall := right.isLt
  apply BitVec.eq_of_toNat_eq
  simp only [BitVec.toNat_add, BitVec.toNat_setWidth, BitVec.toNat_ofNat] at values
  omega

/-- The version byte of a label. -/
theorem byteAt_labelPlaintext_version (valid : Bool) (documentIdentifier : Word) :
    byteAt (labelPlaintext valid documentIdentifier) 0 = 1 := by
  unfold labelPlaintext storeLittleEndian64
  dsimp only
  rw [byteAt_store_apart _ _ _ _ _ (.inl (by decide)), byteAt_setIfInBounds, if_neg (by decide),
    byteAt_setIfInBounds, if_pos (by decide)]

/-- The flag byte of a label. -/
theorem byteAt_labelPlaintext_flag (valid : Bool) (documentIdentifier : Word) :
    byteAt (labelPlaintext valid documentIdentifier) 1 = if valid then 1 else 0 := by
  unfold labelPlaintext storeLittleEndian64
  dsimp only
  rw [byteAt_store_apart _ _ _ _ _ (.inl (by decide)), byteAt_setIfInBounds, if_pos (by decide)]

/-- The reserved bytes of a label are zero. -/
theorem byteAt_labelPlaintext_reserved (valid : Bool) (documentIdentifier : Word) (index : Nat)
    (from2 : 2 ≤ index) (below : index < 8) :
    byteAt (labelPlaintext valid documentIdentifier) index = 0 := by
  unfold labelPlaintext storeLittleEndian64
  dsimp only
  rw [byteAt_store_apart _ _ _ _ _ (.inl below), byteAt_setIfInBounds, if_neg (by omega),
    byteAt_setIfInBounds, if_neg (by omega)]
  simp [byteAt, show index < 16 by omega]

/-- The document of a label. -/
theorem loadLittleEndian64_labelPlaintext (valid : Bool) (documentIdentifier : Word) :
    loadLittleEndian64 (labelPlaintext valid documentIdentifier) 8 = documentIdentifier :=
  load_store_same _ _ _ _ (by decide) (by decide)

/-- A block with the version, a flag byte, zero reserved bytes and a document is the block built
for that flag and that document. -/
theorem eq_labelPlaintext {plaintext : Plaintext} {valid : Bool} {documentIdentifier : Word}
    (version : byteAt plaintext 0 = 1) (flag : byteAt plaintext 1 = if valid then 1 else 0)
    (reserved : ∀ index, 2 ≤ index → index < 8 → byteAt plaintext index = 0)
    (document : loadLittleEndian64 plaintext 8 = documentIdentifier) :
    plaintext = labelPlaintext valid documentIdentifier := by
  apply ext_bits
  intro position inside
  by_cases header : position / 8 < 8
  · have same : byteAt plaintext (position / 8) =
        byteAt (labelPlaintext valid documentIdentifier) (position / 8) := by
      by_cases first : position / 8 = 0
      · rw [first, version, byteAt_labelPlaintext_version]
      · by_cases second : position / 8 = 1
        · rw [second, flag, byteAt_labelPlaintext_flag]
        · have third : 2 ≤ position / 8 := by omega
          rw [reserved _ third header, byteAt_labelPlaintext_reserved _ _ _ third header]
    unfold bitAt
    rw [same]
  · have words : loadLittleEndian64 plaintext 8 =
        loadLittleEndian64 (labelPlaintext valid documentIdentifier) 8 := by
      rw [document, loadLittleEndian64_labelPlaintext]
    have bits := congrArg (fun word => word.getLsbD (position - 64)) words
    simpa only [loadLittleEndian64, getLsbD_load _ 8 8 _ (le_refl (8 * 8)),
      show 8 * 8 + (position - 64) = position by omega,
      show position - 64 < 8 * 8 by omega, decide_true, Bool.true_and] using bits

/-! ## Associated data -/

/-- The epoch is read back from the associated data. -/
theorem load_makeAssociatedData_epoch (epoch : Word) (token : Token128)
    (componentIndex : BitVec 32) :
    load 64 (makeAssociatedData epoch token componentIndex) 15 8 = epoch := by
  unfold makeAssociatedData storeLittleEndian64 storeLittleEndian32
  dsimp only
  rw [load_store_apart _ _ _ _ _ _ (by decide), load_store_apart _ _ _ _ _ _ (by decide)]
  exact load_store_same _ _ _ _ (by decide) (by decide)

/-- The token is read back from the associated data. -/
theorem load_makeAssociatedData_token (epoch : Word) (token : Token128)
    (componentIndex : BitVec 32) :
    load 128 (makeAssociatedData epoch token componentIndex) 23 16 = token := by
  unfold makeAssociatedData storeLittleEndian32
  dsimp only
  rw [load_store_apart _ _ _ _ _ _ (by decide)]
  exact load_store_same _ _ _ _ (by decide) (by decide)

/-- The component index is read back from the associated data. -/
theorem load_makeAssociatedData_index (epoch : Word) (token : Token128)
    (componentIndex : BitVec 32) :
    load 32 (makeAssociatedData epoch token componentIndex) 39 4 = componentIndex :=
  load_store_same _ _ _ _ (by decide) (by decide)

/-- The associated data determines the epoch, the token and the component index. -/
theorem makeAssociatedData_inj {epoch epoch' : Word} {token token' : Token128}
    {componentIndex componentIndex' : BitVec 32}
    (same : makeAssociatedData epoch token componentIndex =
      makeAssociatedData epoch' token' componentIndex') :
    epoch = epoch' ∧ token = token' ∧ componentIndex = componentIndex' := by
  have epochs := congrArg (fun aad : AssociatedData => load 64 aad 15 8) same
  have tokens := congrArg (fun aad : AssociatedData => load 128 aad 23 16) same
  have indices := congrArg (fun aad : AssociatedData => load 32 aad 39 4) same
  simp only [load_makeAssociatedData_epoch] at epochs
  simp only [load_makeAssociatedData_token] at tokens
  simp only [load_makeAssociatedData_index] at indices
  exact ⟨epochs, tokens, indices⟩

end Vlse.Label
