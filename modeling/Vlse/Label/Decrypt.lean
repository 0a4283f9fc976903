import Vlse.Label.Aead
/-!
# Opening labels step by step

`DecryptLabel` makes eight OpenSSL calls, any of which may fail, before it parses the block they
left behind. Here every return value and every length is free. A call that returns false leaves
both outputs alone on all exits but one: the flag is written before it is found out of range. The
nonce is read from the label and not compared with the component, so acceptance fixes the rest of a
label and leaves the nonce to its writer.
-/

namespace Vlse.Label

open ByteBits Vlse.Filter

/-! ## The OpenSSL calls -/

/-- What the OpenSSL calls of `DecryptLabel` return, in their order, and what they leave behind. -/
structure DecryptSteps where
  /-- `EVP_CIPHER_CTX_new` gives a context. -/
  context : Bool
  /-- `EVP_DecryptInit_ex` with the cipher. -/
  initCipher : Int
  /-- `EVP_CIPHER_CTX_ctrl` with the length of the nonce. -/
  setNonceLength : Int
  /-- `EVP_DecryptInit_ex` with the key and the nonce. -/
  initKey : Int
  /-- `EVP_DecryptUpdate` with the associated data. -/
  updateAad : Int
  /-- `EVP_DecryptUpdate` with the ciphertext. -/
  updateCiphertext : Int
  /-- `output_length`. -/
  outputLength : Int
  /-- `EVP_CIPHER_CTX_ctrl` with the tag. -/
  setTag : Int
  /-- `EVP_DecryptFinal_ex`. -/
  final : Int
  /-- `final_length`. -/
  finalLength : Int
  /-- `plaintext`. -/
  plaintext : Plaintext

/-- The calls as OpenSSL makes them for a key, a nonce, associated data, a ciphertext and a tag. -/
abbrev OpenSsl (C T : Type*) := AeadKey128 → Nonce → AssociatedData → C → T → DecryptSteps

namespace DecryptSteps

/-- The condition that makes `DecryptLabel` return false before it parses. -/
def failed (steps : DecryptSteps) : Bool :=
  steps.initCipher ≠ 1 ∨ steps.setNonceLength ≠ 1 ∨ steps.initKey ≠ 1 ∨ steps.updateAad ≠ 1 ∨
    steps.updateCiphertext ≠ 1 ∨ steps.outputLength ≠ 16 ∨ steps.setTag ≠ 1 ∨ steps.final ≠ 1 ∨
    steps.finalLength ≠ 0

/-- The block that is parsed, if the calls get that far. -/
def opened (steps : DecryptSteps) : Option Plaintext :=
  if steps.context && !steps.failed then some steps.plaintext else none

end DecryptSteps

variable {C T : Type*}

/-- `DecryptLabel` past its check of the pointers: what it returns or throws, and the outputs behind
them afterwards. -/
def decryptLabelThrough (openSsl : OpenSsl C T) (key : AeadKey128) (epoch : Word)
    (token : Token128) (componentIndex : BitVec 32) (input : AeadLabel C T)
    (outputs : DecryptOutputs) : Except Fault Bool × DecryptOutputs :=
  let aad := makeAssociatedData epoch token componentIndex
  let steps := openSsl key input.nonce aad input.ciphertext input.tag
  if !steps.context then (.error (.runtimeError "EVP_CIPHER_CTX_new failed"), outputs)
  else if steps.failed then (.ok false, outputs)
  else
    let parsed := parsePlaintext steps.plaintext outputs
    (.ok parsed.1, parsed.2)

/-- OpenSSL over a cipher: every call succeeds, but the last one for a label that does not open. -/
def Gcm.openSsl (gcm : Gcm C T) : OpenSsl C T := fun key nonce aad ciphertext tag =>
  let opened := gcm.openBlock key nonce aad ciphertext tag
  { context := true, initCipher := 1, setNonceLength := 1, initKey := 1, updateAad := 1
    updateCiphertext := 1, outputLength := 16, setTag := 1
    final := if opened.isSome then 1 else 0
    finalLength := 0
    plaintext := opened.getD (Vector.replicate 16 0) }

/-- Over a cipher `DecryptLabel` is the function that opens a label and parses the block. -/
theorem decryptLabelThrough_openSsl (gcm : Gcm C T) (key : AeadKey128) (epoch : Word)
    (token : Token128) (componentIndex : BitVec 32) (input : AeadLabel C T)
    (outputs : DecryptOutputs) :
    decryptLabelThrough gcm.openSsl key epoch token componentIndex input outputs =
      (.ok (decryptLabel gcm key epoch token componentIndex input outputs).1,
        (decryptLabel gcm key epoch token componentIndex input outputs).2) := by
  unfold decryptLabelThrough decryptLabel Gcm.openSsl
  dsimp only
  cases gcm.openBlock key input.nonce (makeAssociatedData epoch token componentIndex)
      input.ciphertext input.tag with
  | none => simp [DecryptSteps.failed]
  | some plaintext => simp [DecryptSteps.failed]

/-! ## Reporting -/

/-- A block whose flag is out of range, and which is well formed before and after the flag. -/
structure FlagOutOfRange (plaintext : Plaintext) : Prop where
  /-- The version is known. -/
  version : byteAt plaintext 0 = 1
  /-- The reserved bytes are zero. -/
  reserved : ∀ index ∈ List.range' 2 6, byteAt plaintext index = 0
  /-- The flag is neither zero nor one. -/
  flag : 1 < (byteAt plaintext 1).toNat

/-- The parser refuses a block whose flag is out of range and clears the flag it reports. -/
theorem parsePlaintext_flagOutOfRange {plaintext : Plaintext} (foreign : FlagOutOfRange plaintext)
    (outputs : DecryptOutputs) :
    parsePlaintext plaintext outputs = (false, { outputs with valid := false }) := by
  have reserved : ¬ ∃ index ∈ List.range' 2 6, byteAt plaintext index ≠ 0 := by
    rintro ⟨index, inside, nonzero⟩
    exact nonzero (foreign.reserved index inside)
  have unset : decide (byteAt plaintext 1 = 1) = false := by
    apply decide_eq_false
    intro one
    have large := foreign.flag
    rw [one] at large
    exact absurd large (by decide)
  unfold parsePlaintext
  rw [if_neg (not_not.mpr foreign.version), if_neg reserved, unset]
  exact if_pos foreign.flag

/-- Every other block that the parser refuses leaves both outputs alone. -/
theorem parsePlaintext_false {plaintext : Plaintext} (usual : ¬ FlagOutOfRange plaintext)
    {outputs : DecryptOutputs} (refused : (parsePlaintext plaintext outputs).1 = false) :
    (parsePlaintext plaintext outputs).2 = outputs := by
  unfold parsePlaintext at refused ⊢
  split
  · rfl
  · rename_i version
    split
    · rfl
    · rename_i reserved
      rw [if_neg version, if_neg reserved] at refused
      dsimp only at refused ⊢
      split
      · rename_i flag
        have zero : ∀ index ∈ List.range' 2 6, byteAt plaintext index = 0 := by
          intro index inside
          by_contra nonzero
          exact reserved ⟨index, inside, nonzero⟩
        exact absurd ⟨not_not.mp version, zero, flag⟩ usual
      · rename_i flag
        rw [if_neg flag] at refused
        simp at refused

/-- `DecryptLabel` reports atomically, whatever its outputs held before, exactly when the label does
not open to a block whose flag is out of range. -/
theorem decryptLabel_atomic_iff (openSsl : OpenSsl C T) (key : AeadKey128) (epoch : Word)
    (token : Token128) (componentIndex : BitVec 32) (input : AeadLabel C T) :
    (∀ outputs,
      (decryptLabelThrough openSsl key epoch token componentIndex input outputs).1 = .ok false →
        (decryptLabelThrough openSsl key epoch token componentIndex input outputs).2 = outputs) ↔
      ∀ plaintext, (openSsl key input.nonce (makeAssociatedData epoch token componentIndex)
          input.ciphertext input.tag).opened = some plaintext → ¬ FlagOutOfRange plaintext := by
  unfold decryptLabelThrough DecryptSteps.opened
  dsimp only
  generalize openSsl key input.nonce (makeAssociatedData epoch token componentIndex)
    input.ciphertext input.tag = steps
  cases context : steps.context with
  | false => simp
  | true =>
    cases failed : steps.failed with
    | true => simp
    | false =>
      simp only [Bool.not_true, Bool.not_false, Bool.and_self, Bool.false_eq_true, if_false,
        if_true, Option.some.injEq, Except.ok.injEq, forall_eq']
      constructor
      · intro atomic foreign
        have parsed := parsePlaintext_flagOutOfRange foreign ⟨true, 0⟩
        have kept := atomic ⟨true, 0⟩ (by rw [parsed])
        rw [parsed] at kept
        simp at kept
      · intro usual outputs refused
        exact parsePlaintext_false usual refused

/-- The label key of the examples below. -/
def zeroKey : AeadKey128 := Vector.replicate 16 0

/-- A label that opens to a block of version one with flag two. -/
def strayLabel : AeadLabel (AeadKey128 × Nonce × AssociatedData × Plaintext) Unit where
  nonce := makeComponentNonce 0
  ciphertext := (zeroKey, makeComponentNonce 0, makeAssociatedData 7 5 0,
    #v[1, 2, 0, 0, 0, 0, 0, 0, 9, 0, 0, 0, 0, 0, 0, 0])
  tag := ()

/-- It is rejected with the flag overwritten. -/
theorem decryptLabel_not_atomic :
    (decryptLabelThrough transparentGcm.openSsl zeroKey 7 5 0 strayLabel ⟨true, 3⟩).1 = .ok false ∧
      (decryptLabelThrough transparentGcm.openSsl zeroKey 7 5 0 strayLabel ⟨true, 3⟩).2 ≠
        ⟨true, 3⟩ := by
  decide +kernel

/-! ## Canonical labels -/

/-- AES-GCM is deterministic and opens a ciphertext and a tag to a block exactly when sealing the
block gives them. -/
def Gcm.Deterministic (gcm : Gcm C T) : Prop :=
  ∀ key nonce aad ciphertext tag plaintext,
    gcm.openBlock key nonce aad ciphertext tag = some plaintext ↔
      gcm.sealBlock key nonce aad plaintext = (ciphertext, tag)

/-- The label `EncryptLabel` would make of its arguments under another nonce. -/
def sealLabel (gcm : Gcm C T) (nonce : Nonce) (call : EncryptCall) : AeadLabel C T :=
  let sealed := gcm.sealBlock call.key nonce
    (makeAssociatedData call.epoch call.token call.componentIndex)
    (labelPlaintext call.valid call.documentIdentifier)
  { nonce, ciphertext := sealed.1, tag := sealed.2 }

/-- `EncryptLabel` seals under the nonce of the component. -/
theorem encryptLabel_eq_sealLabel (gcm : Gcm C T) (call : EncryptCall) :
    encryptLabel gcm call = sealLabel gcm (makeComponentNonce call.componentIndex) call := rfl

/-- Labels are canonical but for their nonce: a label is accepted with a flag and a document exactly
when it is, byte for byte, the one sealed for them under its own nonce. So it is the one
`EncryptLabel` makes exactly when its nonce is also the one of the component. -/
theorem decryptLabel_canonical {gcm : Gcm C T} (deterministic : gcm.Deterministic)
    (call : EncryptCall) (input : AeadLabel C T) (outputs : DecryptOutputs) :
    (decryptLabel gcm call.key call.epoch call.token call.componentIndex input outputs =
        (true, ⟨call.valid, call.documentIdentifier⟩) ↔
      input = sealLabel gcm input.nonce call) ∧
    (decryptLabel gcm call.key call.epoch call.token call.componentIndex input outputs =
          (true, ⟨call.valid, call.documentIdentifier⟩) ∧
        input.nonce = makeComponentNonce call.componentIndex ↔
      input = encryptLabel gcm call) := by
  have accepted : decryptLabel gcm call.key call.epoch call.token call.componentIndex input
      outputs = (true, ⟨call.valid, call.documentIdentifier⟩) ↔
        input = sealLabel gcm input.nonce call := by
    rw [decryptLabel_eq_true_iff, deterministic]
    cases input with
    | mk nonce ciphertext tag =>
      rw [sealLabel, AeadLabel.mk.injEq, Prod.ext_iff]
      dsimp only
      constructor
      · intro sealed
        exact ⟨rfl, sealed.1.symm, sealed.2.symm⟩
      · intro same
        exact ⟨same.2.1.symm, same.2.2.symm⟩
  refine ⟨accepted, ?_⟩
  rw [accepted, encryptLabel_eq_sealLabel]
  constructor
  · intro canonical
    rw [← canonical.2]
    exact canonical.1
  · intro same
    have nonce : input.nonce = makeComponentNonce call.componentIndex := by
      rw [same]
      rfl
    rw [nonce]
    exact ⟨same, rfl⟩

/-- The transparent cipher is deterministic. -/
theorem transparentGcm_deterministic : transparentGcm.Deterministic := by
  intro key nonce aad ciphertext tag plaintext
  unfold transparentGcm
  dsimp only
  split
  · rename_i own
    rw [Option.some.injEq, own.1, own.2.1, own.2.2]
    simp [Prod.ext_iff, eq_comm]
  · rename_i other
    constructor
    · intro opened
      contradiction
    · intro sealed
      have same := (Prod.mk.inj sealed).1
      rw [← same] at other
      exact absurd ⟨rfl, rfl, rfl⟩ other

/-- The arguments of a call for the first component. -/
def firstCall : EncryptCall := ⟨zeroKey, 7, 5, 0, true, 9⟩

/-- The label `EncryptLabel` makes is the one accepted label with its nonce. -/
theorem decryptLabel_canonical_first :
    (decryptLabel transparentGcm zeroKey 7 5 0 (encryptLabel transparentGcm firstCall) ⟨false, 0⟩ =
        (true, ⟨true, 9⟩) ∧
      (encryptLabel transparentGcm firstCall).nonce = makeComponentNonce 0) :=
  (decryptLabel_canonical transparentGcm_deterministic firstCall
    (encryptLabel transparentGcm firstCall) ⟨false, 0⟩).2.mpr rfl

/-- A label sealed for the same arguments under a zero nonce is accepted, and is not the one of
`EncryptLabel`. -/
theorem decryptLabel_other_nonce :
    decryptLabel transparentGcm zeroKey 7 5 0
        (sealLabel transparentGcm (Vector.replicate 12 0) firstCall) ⟨false, 0⟩ =
          (true, ⟨true, 9⟩) ∧
      sealLabel transparentGcm (Vector.replicate 12 0) firstCall ≠
        encryptLabel transparentGcm ⟨zeroKey, 7, 5, 0, true, 9⟩ := by
  constructor
  · decide +kernel
  · intro same
    have nonces := congrArg AeadLabel.nonce same
    exact absurd nonces (by decide +kernel)

end Vlse.Label
