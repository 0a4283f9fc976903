import Vlse.Filter.Insert
import Vlse.Label.Format
/-!
# Authenticated labels

`EncryptLabel` seals the plaintext block of one component under the nonce of the component and the
associated data of its context; `DecryptLabel` opens a label and parses the block. AES-128-GCM is
a pair of functions over abstract ciphertexts and tags. In the symbolic model a sealed label opens
to its plaintext, and only under its own key, nonce and associated data.
-/

namespace Vlse.Label

open ByteBits Vlse.Filter

/-- AES-128-GCM: sealing gives a ciphertext and a tag, opening may reject them. -/
structure Gcm (C T : Type*) where
  /-- Seal a block. -/
  sealBlock : AeadKey128 → Nonce → AssociatedData → Plaintext → C × T
  /-- Open a ciphertext with its tag. -/
  openBlock : AeadKey128 → Nonce → AssociatedData → C → T → Option Plaintext

variable {C T : Type*}

/-- The symbolic model: a sealed block opens exactly under its key, nonce and associated data. -/
structure Gcm.Symbolic (gcm : Gcm C T) : Prop where
  /-- Opening gives back what was sealed. -/
  opens : ∀ key nonce aad plaintext,
    gcm.openBlock key nonce aad (gcm.sealBlock key nonce aad plaintext).1
      (gcm.sealBlock key nonce aad plaintext).2 = some plaintext
  /-- Nothing else opens it. -/
  exact : ∀ key nonce aad plaintext key' nonce' aad' opened,
    gcm.openBlock key' nonce' aad' (gcm.sealBlock key nonce aad plaintext).1
      (gcm.sealBlock key nonce aad plaintext).2 = some opened →
        key' = key ∧ nonce' = nonce ∧ aad' = aad

/-- `AeadLabel`. -/
structure AeadLabel (C T : Type*) where
  /-- The nonce the label was sealed with. -/
  nonce : Nonce
  /-- The sealed block. -/
  ciphertext : C
  /-- Its tag. -/
  tag : T

instance [Inhabited C] [Inhabited T] : Inhabited (AeadLabel C T) :=
  ⟨⟨Vector.replicate 12 0, default, default⟩⟩

/-- The arguments of a call of `EncryptLabel`. -/
structure EncryptCall where
  /-- The label key. -/
  key : AeadKey128
  /-- The epoch. -/
  epoch : Word
  /-- The query token. -/
  token : Token128
  /-- The component index. -/
  componentIndex : BitVec 32
  /-- Whether the component is genuine. -/
  valid : Bool
  /-- The document identifier. -/
  documentIdentifier : Word

/-- `EncryptLabel`. -/
def encryptLabel (gcm : Gcm C T) (call : EncryptCall) : AeadLabel C T :=
  let nonce := makeComponentNonce call.componentIndex
  let plaintext := labelPlaintext call.valid call.documentIdentifier
  let aad := makeAssociatedData call.epoch call.token call.componentIndex
  let sealed := gcm.sealBlock call.key nonce aad plaintext
  { nonce, ciphertext := sealed.1, tag := sealed.2 }

/-- The key and the nonce a call of `EncryptLabel` seals with. -/
def EncryptCall.keyNonce (call : EncryptCall) : AeadKey128 × Nonce :=
  (call.key, makeComponentNonce call.componentIndex)

/-- The two outputs of `DecryptLabel`, behind its pointers. -/
structure DecryptOutputs where
  /-- `*valid`. -/
  valid : Bool
  /-- `*document_identifier`. -/
  documentIdentifier : Word
deriving DecidableEq

/-- The parsing of `DecryptLabel` after the block was opened. The flag is written before it is
checked. -/
def parsePlaintext (plaintext : Plaintext) (outputs : DecryptOutputs) : Bool × DecryptOutputs :=
  if byteAt plaintext 0 ≠ 1 then (false, outputs)
  else if ∃ index ∈ List.range' 2 6, byteAt plaintext index ≠ 0 then (false, outputs)
  else
    let outputs := { outputs with valid := decide (byteAt plaintext 1 = 1) }
    if 1 < (byteAt plaintext 1).toNat then (false, outputs)
    else (true, { outputs with documentIdentifier := loadLittleEndian64 plaintext 8 })

/-- `DecryptLabel` past its check of the pointers: the outputs behind them before and after. -/
def decryptLabel (gcm : Gcm C T) (key : AeadKey128) (epoch : Word) (token : Token128)
    (componentIndex : BitVec 32) (input : AeadLabel C T) (outputs : DecryptOutputs) :
    Bool × DecryptOutputs :=
  let aad := makeAssociatedData epoch token componentIndex
  match gcm.openBlock key input.nonce aad input.ciphertext input.tag with
  | none => (false, outputs)
  | some plaintext => parsePlaintext plaintext outputs

/-- `DecryptLabel` behind its pointers; a null pointer throws. -/
def decryptLabelAt (gcm : Gcm C T) (key : AeadKey128) (epoch : Word) (token : Token128)
    (componentIndex : BitVec 32) (input : AeadLabel C T) :
    Option Bool → Option Word → Except Fault (Bool × DecryptOutputs)
  | some valid, some documentIdentifier =>
    .ok (decryptLabel gcm key epoch token componentIndex input ⟨valid, documentIdentifier⟩)
  | _, _ => .error (.invalidArgument "DecryptLabel output pointers must be non-null")

/-- A block of `EncryptLabel` parses to its flag and its document. -/
theorem parsePlaintext_labelPlaintext (valid : Bool) (documentIdentifier : Word)
    (outputs : DecryptOutputs) :
    parsePlaintext (labelPlaintext valid documentIdentifier) outputs =
      (true, ⟨valid, documentIdentifier⟩) := by
  have reserved : ¬ ∃ index ∈ List.range' 2 6,
      byteAt (labelPlaintext valid documentIdentifier) index ≠ 0 := by
    rintro ⟨index, inside, nonzero⟩
    rw [List.mem_range'_1] at inside
    exact nonzero (byteAt_labelPlaintext_reserved _ _ _ inside.1 (by omega))
  unfold parsePlaintext
  rw [if_neg (not_not.mpr (byteAt_labelPlaintext_version _ _)), if_neg reserved]
  dsimp only
  rw [byteAt_labelPlaintext_flag, loadLittleEndian64_labelPlaintext]
  cases valid
  · rfl
  · rfl

/-- The parser accepts the block built for its outputs and no other block. -/
theorem parsePlaintext_eq_true_iff (plaintext : Plaintext) (outputs result : DecryptOutputs) :
    parsePlaintext plaintext outputs = (true, result) ↔
      plaintext = labelPlaintext result.valid result.documentIdentifier := by
  constructor
  · intro accepted
    unfold parsePlaintext at accepted
    split at accepted
    · simp at accepted
    · rename_i version
      split at accepted
      · simp at accepted
      · rename_i reserved
        dsimp only at accepted
        split at accepted
        · simp at accepted
        · rename_i flagLow
          -- The flag is one of the two values below two, so the block names it.
          have flag : byteAt plaintext 1 =
              if decide (byteAt plaintext 1 = 1) = true then 1 else 0 := by
            by_cases one : byteAt plaintext 1 = 1
            · simp [one]
            · have zero : byteAt plaintext 1 = 0 := by
                have apart : (byteAt plaintext 1).toNat ≠ 1 := fun value =>
                  one (BitVec.eq_of_toNat_eq value)
                apply BitVec.eq_of_toNat_eq
                rw [show (0 : Byte).toNat = 0 from rfl]
                omega
              simp [zero]
          rw [← (Prod.mk.inj accepted).2]
          apply eq_labelPlaintext (not_not.mp version) flag _ rfl
          intro index from2 below
          by_contra nonzero
          exact reserved ⟨index, List.mem_range'_1.mpr ⟨from2, by omega⟩, nonzero⟩
  · intro built
    rw [built, parsePlaintext_labelPlaintext]

/-- Opening a sealed block under the same key, nonce and associated data gives it back. -/
def Gcm.OpensSealed (gcm : Gcm C T) : Prop :=
  ∀ key nonce aad plaintext,
    gcm.openBlock key nonce aad (gcm.sealBlock key nonce aad plaintext).1
      (gcm.sealBlock key nonce aad plaintext).2 = some plaintext

/-- A label is accepted exactly when it opens to the block built for the outputs. -/
theorem decryptLabel_eq_true_iff (gcm : Gcm C T) (key : AeadKey128) (epoch : Word)
    (token : Token128) (componentIndex : BitVec 32) (input : AeadLabel C T)
    (outputs result : DecryptOutputs) :
    decryptLabel gcm key epoch token componentIndex input outputs = (true, result) ↔
      gcm.openBlock key input.nonce (makeAssociatedData epoch token componentIndex)
        input.ciphertext input.tag =
          some (labelPlaintext result.valid result.documentIdentifier) := by
  unfold decryptLabel
  dsimp only
  cases gcm.openBlock key input.nonce (makeAssociatedData epoch token componentIndex)
      input.ciphertext input.tag with
  | none => simp
  | some plaintext =>
    rw [Option.some.injEq]
    exact parsePlaintext_eq_true_iff plaintext outputs result

/-- A label decrypts under its own key and context to its flag and its document. -/
theorem decryptLabel_encryptLabel {gcm : Gcm C T} (opens : gcm.OpensSealed) (call : EncryptCall)
    (outputs : DecryptOutputs) :
    decryptLabel gcm call.key call.epoch call.token call.componentIndex (encryptLabel gcm call)
      outputs = (true, ⟨call.valid, call.documentIdentifier⟩) := by
  rw [decryptLabel_eq_true_iff]
  exact opens _ _ _ _

/-- The label format over any cipher that opens what it sealed: a label is accepted with a flag
and a document exactly when it opens to the block of that flag and document, an encrypted label
gives back both, and no other block is accepted. -/
theorem label_format {gcm : Gcm C T} (opens : gcm.OpensSealed) :
    (∀ key epoch token componentIndex (input : AeadLabel C T) outputs valid documentIdentifier,
      decryptLabel gcm key epoch token componentIndex input outputs =
          (true, ⟨valid, documentIdentifier⟩) ↔
        gcm.openBlock key input.nonce (makeAssociatedData epoch token componentIndex)
          input.ciphertext input.tag = some (labelPlaintext valid documentIdentifier)) ∧
    (∀ call outputs,
      decryptLabel gcm call.key call.epoch call.token call.componentIndex
          (encryptLabel gcm call) outputs =
        (true, ⟨call.valid, call.documentIdentifier⟩)) ∧
    ∀ key epoch token componentIndex (input : AeadLabel C T) outputs plaintext,
      gcm.openBlock key input.nonce (makeAssociatedData epoch token componentIndex)
          input.ciphertext input.tag = some plaintext →
        (∀ valid documentIdentifier, plaintext ≠ labelPlaintext valid documentIdentifier) →
          (decryptLabel gcm key epoch token componentIndex input outputs).1 = false := by
  constructor
  · intro key epoch token componentIndex input outputs valid documentIdentifier
    exact decryptLabel_eq_true_iff gcm key epoch token componentIndex input outputs _
  constructor
  · exact decryptLabel_encryptLabel opens
  · intro key epoch token componentIndex input outputs plaintext opened foreign
    cases accepted : decryptLabel gcm key epoch token componentIndex input outputs with
    | mk answer result =>
      cases answer with
      | false => rfl
      | true =>
        have block := (decryptLabel_eq_true_iff gcm _ _ _ _ _ _ _).mp accepted
        rw [opened] at block
        exact absurd (Option.some.inj block) (foreign _ _)

section Symbolic

variable {gcm : Gcm C T}

/-- A label decrypts under its own key and context to its flag and its document. -/
theorem decryptLabel_own (symbolic : gcm.Symbolic) (call : EncryptCall)
    (outputs : DecryptOutputs) :
    decryptLabel gcm call.key call.epoch call.token call.componentIndex (encryptLabel gcm call)
      outputs = (true, ⟨call.valid, call.documentIdentifier⟩) :=
  decryptLabel_encryptLabel symbolic.opens call outputs

/-- A label that opens somewhere opens in its own context. -/
theorem openBlock_encryptLabel (symbolic : gcm.Symbolic) (call : EncryptCall)
    {key : AeadKey128} {epoch : Word} {token : Token128} {componentIndex : BitVec 32}
    {plaintext : Plaintext}
    (opened : gcm.openBlock key (encryptLabel gcm call).nonce
      (makeAssociatedData epoch token componentIndex) (encryptLabel gcm call).ciphertext
      (encryptLabel gcm call).tag = some plaintext) :
    key = call.key ∧ epoch = call.epoch ∧ token = call.token ∧
      componentIndex = call.componentIndex := by
  have place := symbolic.exact _ _ _ _ _ _ _ _ opened
  exact ⟨place.1, makeAssociatedData_inj place.2.2⟩

/-- A label is rejected under another key or in another context. -/
theorem decryptLabel_elsewhere (symbolic : gcm.Symbolic) (call : EncryptCall)
    {key : AeadKey128} {epoch : Word} {token : Token128} {componentIndex : BitVec 32}
    {outputs : DecryptOutputs}
    (apart : ¬ (key = call.key ∧ epoch = call.epoch ∧ token = call.token ∧
      componentIndex = call.componentIndex)) :
    decryptLabel gcm key epoch token componentIndex (encryptLabel gcm call) outputs =
      (false, outputs) := by
  unfold decryptLabel
  dsimp only
  cases opened : gcm.openBlock key (encryptLabel gcm call).nonce
      (makeAssociatedData epoch token componentIndex) (encryptLabel gcm call).ciphertext
      (encryptLabel gcm call).tag with
  | none => rfl
  | some plaintext => exact absurd (openBlock_encryptLabel symbolic call opened) apart

/-- Labels are bound to their context: where the triple of epoch, token and component index or
the key differs, a label is rejected and both outputs keep their values. -/
theorem decryptLabel_bound (symbolic : gcm.Symbolic) (call : EncryptCall) (key : AeadKey128)
    (epoch : Word) (token : Token128) (componentIndex : BitVec 32) (outputs : DecryptOutputs)
    (apart : (epoch, token, componentIndex) ≠ (call.epoch, call.token, call.componentIndex) ∨
      key ≠ call.key) :
    decryptLabel gcm key epoch token componentIndex (encryptLabel gcm call) outputs =
      (false, outputs) := by
  apply decryptLabel_elsewhere symbolic call
  intro same
  cases apart with
  | inl context => exact context (by rw [same.2.1, same.2.2.1, same.2.2.2])
  | inr keys => exact keys same.1

/-- A label is rejected under another key. -/
theorem decryptLabel_other (symbolic : gcm.Symbolic) (call : EncryptCall)
    {key : AeadKey128} (apart : key ≠ call.key) (epoch : Word) (token : Token128)
    (componentIndex : BitVec 32) (outputs : DecryptOutputs) :
    decryptLabel gcm key epoch token componentIndex (encryptLabel gcm call) outputs =
      (false, outputs) :=
  decryptLabel_elsewhere symbolic call fun same => apart same.1

/-- A label that decrypts in some context decrypts to its own flag and document. -/
theorem decryptLabel_accepted (symbolic : gcm.Symbolic) (call : EncryptCall)
    {key : AeadKey128} {epoch : Word} {token : Token128} {componentIndex : BitVec 32}
    {outputs result : DecryptOutputs}
    (accepted : decryptLabel gcm key epoch token componentIndex (encryptLabel gcm call) outputs =
      (true, result)) :
    result = ⟨call.valid, call.documentIdentifier⟩ := by
  have opened := (decryptLabel_eq_true_iff gcm _ _ _ _ _ _ _).mp accepted
  have place := openBlock_encryptLabel symbolic call opened
  rw [place.1, place.2.1, place.2.2.1, place.2.2.2,
    decryptLabel_own symbolic call outputs] at accepted
  exact (Prod.mk.inj accepted).2.symm

end Symbolic

/-- A cipher that keeps what it seals in the clear is symbolic. -/
def transparentGcm : Gcm (AeadKey128 × Nonce × AssociatedData × Plaintext) Unit where
  sealBlock key nonce aad plaintext := ((key, nonce, aad, plaintext), ())
  openBlock key nonce aad ciphertext _ :=
    if key = ciphertext.1 ∧ nonce = ciphertext.2.1 ∧ aad = ciphertext.2.2.1 then
      some ciphertext.2.2.2
    else none

/-- The transparent cipher opens what it sealed and nothing else. -/
theorem transparentGcm_symbolic : transparentGcm.Symbolic where
  opens key nonce aad plaintext := if_pos ⟨rfl, rfl, rfl⟩
  exact key nonce aad plaintext key' nonce' aad' opened accepted := by
    by_contra apart
    have rejected : transparentGcm.openBlock key' nonce' aad'
        (transparentGcm.sealBlock key nonce aad plaintext).1
        (transparentGcm.sealBlock key nonce aad plaintext).2 = none := if_neg apart
    rw [rejected] at accepted
    contradiction

/-- A label sealed for the component after the one asked is rejected. -/
theorem decryptLabel_bound_next :
    decryptLabel transparentGcm (Vector.replicate 16 0) 7 5 0
      (encryptLabel transparentGcm ⟨Vector.replicate 16 0, 7, 5, 1, true, 9⟩) ⟨false, 0⟩ =
        (false, ⟨false, 0⟩) :=
  decryptLabel_bound transparentGcm_symbolic
    ⟨Vector.replicate 16 0, 7, 5, 1, true, 9⟩ (Vector.replicate 16 0) 7 5 0 ⟨false, 0⟩
    (.inl (by decide))

/-- A dummy label with a nonzero document gives both back. -/
theorem label_format_dummy :
    decryptLabel transparentGcm (Vector.replicate 16 0) 7 5 1
      (encryptLabel transparentGcm ⟨Vector.replicate 16 0, 7, 5, 1, false, 9⟩) ⟨true, 0⟩ =
        (true, ⟨false, 9⟩) :=
  (label_format transparentGcm_symbolic.opens).2.1
    ⟨Vector.replicate 16 0, 7, 5, 1, false, 9⟩ ⟨true, 0⟩

end Vlse.Label
